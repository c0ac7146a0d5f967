import Mathlib.Tactic.SplitIfs
import SoloCall.Json.Writer

namespace SoloCall.Json

def units (t : Text) : List CodeUnit := t.map .char

theorem text?_units (t : Text) : text? (units t) = some t := by
  induction t with
  | nil => rfl
  | cons c t ih =>
      show (text? (units t)).map (c :: ·) = some (c :: t)
      rw [ih]
      rfl

theorem hexWord?_control : ∀ n < 0x20, hexWord? '0' '0' (hexDigit (n / 16)) (hexDigit n) = some n := by
  decide

theorem stringBody?_plain {c : Char} (hquote : c ≠ '"') (hslash : c ≠ '\\') (hc : 0x20 ≤ c.toNat)
    (r : Text) : stringBody? (c :: r) = (stringBody? r).map fun p => (.char c :: p.1, p.2) := by
  rw [stringBody?]
  · rw [if_pos (by simp [hc, hslash])]
  · exact hquote
  · intro a b d e _ h
    exact absurd h hslash
  · intro e _ h
    exact absurd h hslash

theorem stringBody?_control {c : Char} (hc : c.toNat < 0x20) (r : Text) :
    stringBody? ('\\' :: 'u' :: '0' :: '0' :: hexDigit (c.toNat / 16) :: hexDigit c.toNat :: r) =
      (stringBody? r).map fun p => (.char c :: p.1, p.2) := by
  have hunit : unitOf c.toNat = .char c := by
    have hhalf : isHalf c.toNat = false := by
      simp only [isHalf, Bool.and_eq_false_iff, decide_eq_false_iff_not]
      omega
    rw [unitOf, hhalf, Char.ofNat_toNat]
    rfl
  simp only [stringBody?, hexWord?_control c.toNat hc, Option.bind_eq_bind, Option.bind_some, hunit]
  cases stringBody? r <;> rfl

theorem stringBody?_letter {c e : Char} (he : escapes.lookup e = some c) (r : Text) :
    stringBody? ('\\' :: e :: r) = (stringBody? r).map fun p => (.char c :: p.1, p.2) := by
  rw [stringBody?]
  · simp only [he, Option.bind_eq_bind, Option.bind_some]
    cases stringBody? r <;> rfl
  · rintro _ _ _ _ _ rfl _
    cases he

/-- A character is written as a backslash and a letter, as the code of a control character, or as
it is. -/
theorem escape_cases (c : Char) :
    (∃ e, escapes.lookup e = some c ∧ escape c = ['\\', e]) ∨
    (c.toNat < 0x20 ∧
      escape c = ['\\', 'u', '0', '0', hexDigit (c.toNat / 16), hexDigit c.toNat]) ∨
    (c ≠ '"' ∧ c ≠ '\\' ∧ 0x20 ≤ c.toNat ∧ escape c = [c]) := by
  rw [escape]
  split_ifs with h₁ h₂ h₃ h₄ h₅ h₆ h₇ h₈
  · exact .inl ⟨'"', by rw [h₁]; rfl, rfl⟩
  · exact .inl ⟨'\\', by rw [h₂]; rfl, rfl⟩
  · exact .inl ⟨'b', by rw [h₃]; rfl, rfl⟩
  · exact .inl ⟨'f', by rw [h₄]; rfl, rfl⟩
  · exact .inl ⟨'n', by rw [h₅]; rfl, rfl⟩
  · exact .inl ⟨'r', by rw [h₆]; rfl, rfl⟩
  · exact .inl ⟨'t', by rw [h₇]; rfl, rfl⟩
  · exact .inr (.inl ⟨h₈, rfl⟩)
  · exact .inr (.inr ⟨h₁, h₂, Nat.le_of_not_lt h₈, rfl⟩)

theorem stringBody?_escape (c : Char) (r : Text) :
    stringBody? (escape c ++ r) = (stringBody? r).map fun p => (.char c :: p.1, p.2) := by
  rcases escape_cases c with ⟨e, he, h⟩ | ⟨hc, h⟩ | ⟨hquote, hslash, hc, h⟩
  · rw [h]
    exact stringBody?_letter he r
  · rw [h]
    exact stringBody?_control hc r
  · rw [h]
    exact stringBody?_plain hquote hslash hc r

theorem stringBody?_flatMap_escape (t r : Text) :
    stringBody? (t.flatMap escape ++ '"' :: r) = some (units t, r) := by
  induction t with
  | nil => rfl
  | cons c t ih =>
      rw [List.flatMap_cons, List.append_assoc, stringBody?_escape, ih]
      rfl

theorem token?_quote (t r : Text) : token? (quote t ++ r) = some (.string (units t), r) := by
  have hquote : quote t ++ r = '"' :: (t.flatMap escape ++ '"' :: r) := by simp [quote]
  rw [hquote]
  show (stringBody? (t.flatMap escape ++ '"' :: r)).map _ = _
  rw [stringBody?_flatMap_escape]
  rfl

theorem lex?_of_token? {c : Char} {t r : Text} {token : Token} (hc : isSpace c = false)
    (h : token? (c :: t) = some (token, r)) : lex? (c :: t) = (lex? r).map (token :: ·) := by
  rw [lex?, if_neg (by simp [hc])]
  split
  · rename_i hn
    cases hn.symm.trans h
  · rename_i heq
    obtain ⟨rfl, rfl⟩ := Prod.mk.inj (Option.some.inj (heq.symm.trans h))
    rfl

theorem lex?_mark (c : Char) (token : Token) (hc : isSpace c = false)
    (h : ∀ r, token? (c :: r) = some (token, r)) (r : Text) :
    lex? (c :: r) = (lex? r).map (token :: ·) :=
  lex?_of_token? hc (h r)

theorem lex?_word (c : Char) (rest : Text) (token : Token) (hc : isSpace c = false)
    (h : ∀ t, token? (c :: t) = word? (c :: rest) token (c :: t)) (r : Text) :
    lex? (c :: rest ++ r) = (lex? r).map (token :: ·) := by
  have hafter : Text.after? (c :: rest) (c :: (rest ++ r)) = some r := Text.after?_append (c :: rest) r
  apply lex?_of_token? hc
  show token? (c :: (rest ++ r)) = some (token, r)
  rw [h, word?, hafter]
  rfl

theorem lex?_quote (t r : Text) :
    lex? (quote t ++ r) = (lex? r).map (.string (units t) :: ·) :=
  lex?_of_token? rfl (token?_quote t r)

theorem not_mem_escape (c : Char) : '\n' ∉ escape c := by
  rcases escape_cases c with ⟨e, he, h⟩ | ⟨hc, h⟩ | ⟨-, -, hc, h⟩
  · have hletter : e ≠ '\n' := by
      rintro rfl
      cases he
    simpa [h] using Ne.symm hletter
  · have hdigits : ∀ n < 0x20, '\n' ≠ hexDigit (n / 16) ∧ '\n' ≠ hexDigit n := by decide
    simpa [h] using hdigits c.toNat hc
  · have hbreak : c ≠ '\n' := by
      rintro rfl
      exact absurd hc (by decide)
    simpa [h] using Ne.symm hbreak

theorem not_mem_quote (t : Text) : '\n' ∉ quote t := by
  intro h
  simp only [quote, List.cons_append, List.mem_cons, List.mem_append, List.mem_flatMap,
    List.not_mem_nil, or_false, Char.reduceEq, false_or] at h
  obtain ⟨c, -, hc⟩ := h
  exact not_mem_escape c hc

end SoloCall.Json
