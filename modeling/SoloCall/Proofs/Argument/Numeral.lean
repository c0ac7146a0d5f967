import Mathlib.Computability.RegularExpressions
import Mathlib.Data.List.TakeWhile
import Mathlib.Tactic.IntervalCases
import SoloCall.Argument
import SoloCall.Proofs.Text.Split

namespace SoloCall.Argument

open RegularExpression

variable {cs t u w f e : Text} {p : RegularExpression Char}

def anyOf (cs : Text) : RegularExpression Char := cs.foldr (fun c p => char c + p) 0

def optional (p : RegularExpression Char) : RegularExpression Char := 1 + p

def sign : RegularExpression Char := anyOf ['+', '-']

def digit : RegularExpression Char := anyOf "0123456789".toList

def digits : RegularExpression Char := digit * digit.star

def exponent : RegularExpression Char := anyOf ['e', 'E'] * optional sign * digits

def magnitude : RegularExpression Char :=
  (digits + digits * char '.' * digit.star + digit.star * char '.' * digits) * optional exponent

/-- Decimal numbers: a sign, digits with a point before, behind or among them, and an exponent, of
which the sign, the point and the exponent may be missing. -/
def numeral : RegularExpression Char := optional sign * magnitude

theorem mem_anyOf : w ∈ (anyOf cs).matches' ↔ ∃ c ∈ cs, w = [c] := by
  induction cs with
  | nil =>
      have hempty : (anyOf []).matches' = 0 := rfl
      simp [hempty, Language.notMem_zero]
  | cons c cs ih =>
      have hcons : (anyOf (c :: cs)).matches' = {[c]} + (anyOf cs).matches' := rfl
      rw [hcons, Language.mem_add, ih]
      simp only [List.mem_cons, exists_eq_or_imp]
      rfl

theorem mem_star_anyOf : w ∈ (anyOf cs).star.matches' ↔ ∀ c ∈ w, c ∈ cs := by
  rw [matches'_star, Language.mem_kstar]
  constructor
  · rintro ⟨pieces, rfl, h⟩ c hc
    obtain ⟨piece, hpiece, hmem⟩ := List.mem_flatten.1 hc
    obtain ⟨d, hd, rfl⟩ := mem_anyOf.1 (h piece hpiece)
    exact List.mem_singleton.1 hmem ▸ hd
  · intro h
    refine ⟨w.map fun c => [c], by simp [← List.flatMap_def], ?_⟩
    intro piece hpiece
    obtain ⟨c, hc, rfl⟩ := List.mem_map.1 hpiece
    exact mem_anyOf.2 ⟨c, h c hc, rfl⟩

theorem mem_optional : w ∈ (optional p).matches' ↔ w = [] ∨ w ∈ p.matches' := by
  rw [optional, matches'_add, Language.mem_add]
  rfl

theorem isDigit_iff {c : Char} : isDigit c = true ↔ c ∈ "0123456789".toList := by
  constructor
  · intro h
    obtain ⟨hlow, hhigh⟩ : 48 ≤ c.toNat ∧ c.toNat ≤ 57 := by
      simpa [isDigit, Char.le_def, UInt32.le_iff_toNat_le] using h
    rw [← Char.ofNat_toNat c]
    interval_cases c.toNat <;> decide
  · intro h
    have hall : ∀ c ∈ "0123456789".toList, isDigit c = true := by simp [isDigit]
    exact hall c h

theorem mem_star_digit : w ∈ digit.star.matches' ↔ ∀ c ∈ w, isDigit c = true := by
  simp only [digit, mem_star_anyOf, isDigit_iff]

theorem mem_digits : w ∈ digits.matches' ↔ w ≠ [] ∧ ∀ c ∈ w, isDigit c = true := by
  rw [digits, matches'_mul, Language.mem_mul]
  constructor
  · rintro ⟨first, hfirst, rest, hrest, rfl⟩
    obtain ⟨c, hc, rfl⟩ := mem_anyOf.1 hfirst
    rw [List.singleton_append, List.forall_mem_cons]
    exact ⟨List.cons_ne_nil c rest, isDigit_iff.2 hc, mem_star_digit.1 hrest⟩
  · rintro ⟨hne, hall⟩
    obtain ⟨c, rest, rfl⟩ := List.exists_cons_of_ne_nil hne
    obtain ⟨hc, hrest⟩ := List.forall_mem_cons.1 hall
    exact ⟨[c], mem_anyOf.2 ⟨c, isDigit_iff.1 hc, rfl⟩, rest, mem_star_digit.2 hrest, rfl⟩

/-- No text of the expression is empty or begins with a sign. -/
def BeginsUnsigned (p : RegularExpression Char) : Prop :=
  ∀ w ∈ p.matches', ∃ c r, w = c :: r ∧ c ≠ '+' ∧ c ≠ '-'

theorem unsigned_of_ne {c : Char} (hplus : c ≠ '+') (hminus : c ≠ '-') (r : Text) :
    unsigned (c :: r) = c :: r := by
  rw [unsigned.eq_def]
  split <;> simp_all

theorem exists_sign (t : Text) : ∃ s ∈ (optional sign).matches', s ++ unsigned t = t := by
  rw [unsigned.eq_def]
  split
  · exact ⟨['+'], mem_optional.2 (.inr (mem_anyOf.2 ⟨'+', by decide, rfl⟩)), rfl⟩
  · exact ⟨['-'], mem_optional.2 (.inr (mem_anyOf.2 ⟨'-', by decide, rfl⟩)), rfl⟩
  · exact ⟨[], mem_optional.2 (.inl rfl), rfl⟩

theorem mem_optional_sign_mul (hp : BeginsUnsigned p) :
    t ∈ (optional sign * p).matches' ↔ unsigned t ∈ p.matches' := by
  rw [matches'_mul, Language.mem_mul]
  constructor
  · rintro ⟨s, hs, w, hw, rfl⟩
    rcases mem_optional.1 hs with rfl | hs
    · obtain ⟨c, r, rfl, hplus, hminus⟩ := hp w hw
      rwa [List.nil_append, unsigned_of_ne hplus hminus]
    · obtain ⟨c, hc, rfl⟩ := mem_anyOf.1 hs
      obtain rfl | rfl : c = '+' ∨ c = '-' := by simpa using hc
      · exact hw
      · exact hw
  · intro h
    obtain ⟨s, hs, hcut⟩ := exists_sign t
    exact ⟨s, hs, unsigned t, h, hcut⟩

theorem ne_sign_of_isDigit {c : Char} (h : isDigit c = true) : c ≠ '+' ∧ c ≠ '-' := by
  constructor <;> (rintro rfl; revert h; decide)

theorem beginsUnsigned_digits : BeginsUnsigned digits := by
  intro w hw
  obtain ⟨hne, hall⟩ := mem_digits.1 hw
  obtain ⟨c, r, rfl⟩ := List.exists_cons_of_ne_nil hne
  exact ⟨c, r, rfl, ne_sign_of_isDigit (hall c List.mem_cons_self)⟩

theorem isExponent_iff : isExponent t = true ↔ t ∈ (optional exponent).matches' := by
  have hexponent : exponent.matches' = (anyOf ['e', 'E'] * (optional sign * digits)).matches' :=
    mul_assoc (anyOf ['e', 'E']).matches' _ _
  rw [mem_optional, hexponent, matches'_mul, Language.mem_mul]
  cases t with
  | nil => simp [isExponent]
  | cons c r =>
      have hmark : c = 'e' ∨ c = 'E' ↔ [c] ∈ (anyOf ['e', 'E']).matches' := by simp [mem_anyOf]
      have hdigits : isExponent (c :: r) = true ↔
          (c = 'e' ∨ c = 'E') ∧ r ∈ (optional sign * digits).matches' := by
        rw [mem_optional_sign_mul beginsUnsigned_digits, mem_digits]
        simp [isExponent, and_assoc]
      rw [hdigits, hmark]
      constructor
      · rintro ⟨hc, hr⟩
        exact .inr ⟨[c], hc, r, hr, rfl⟩
      · rintro (hnil | ⟨mark, hm, rest, hrest, heq⟩)
        · cases hnil
        · obtain ⟨d, -, rfl⟩ := mem_anyOf.1 hm
          obtain ⟨rfl, rfl⟩ := List.cons.inj heq
          exact ⟨hm, hrest⟩

theorem head?_exponent (he : isExponent e = true) {c : Char} (hc : e.head? = some c) :
    c = 'e' ∨ c = 'E' := by
  obtain ⟨r, rfl⟩ := List.head?_eq_some_iff.1 hc
  simp only [isExponent, Bool.and_eq_true, Bool.or_eq_true, decide_eq_true_eq] at he
  exact he.1.1

theorem exponent_not_digit (he : isExponent e = true) {c : Char} (hc : e.head? = some c) :
    isDigit c = false ∧ c ≠ '.' := by
  rcases head?_exponent he hc with rfl | rfl <;> decide

theorem digits_before_exponent (hw : ∀ c ∈ w, isDigit c = true) (he : isExponent e = true) :
    (w ++ e).takeWhile isDigit = w ∧ (w ++ e).dropWhile isDigit = e :=
  Text.takeWhile_dropWhile_append hw fun _ hc => (exponent_not_digit he hc).1

theorem isMagnitude_whole (hw : ∀ c ∈ w, isDigit c = true) (hne : w ≠ [])
    (he : isExponent e = true) : isMagnitude (w ++ e) = true := by
  obtain ⟨htake, hdrop⟩ := digits_before_exponent hw he
  rw [isMagnitude, htake, hdrop]
  split
  · exact absurd rfl (exponent_not_digit he rfl).2
  · simp [hne, he]

theorem isMagnitude_pointed (hw : ∀ c ∈ w, isDigit c = true) (hf : ∀ c ∈ f, isDigit c = true)
    (hne : w ≠ [] ∨ f ≠ []) (he : isExponent e = true) :
    isMagnitude (w ++ '.' :: (f ++ e)) = true := by
  have hpoint : ∀ c, ('.' :: (f ++ e)).head? = some c → isDigit c = false := by
    rintro _ ⟨⟩
    decide
  obtain ⟨htake, hdrop⟩ := Text.takeWhile_dropWhile_append hw hpoint
  obtain ⟨hfraction, hrest⟩ := digits_before_exponent hf he
  simp only [isMagnitude, htake, hdrop, hfraction, hrest, he, Bool.and_true]
  simpa using hne

theorem exists_of_isMagnitude (h : isMagnitude t = true) :
    ∃ w e, (∀ c ∈ w, isDigit c = true) ∧ isExponent e = true ∧
      (t = w ++ e ∧ w ≠ [] ∨
        ∃ f, t = w ++ '.' :: (f ++ e) ∧ (∀ c ∈ f, isDigit c = true) ∧ (w ≠ [] ∨ f ≠ [])) := by
  have hcut : t.takeWhile isDigit ++ t.dropWhile isDigit = t := List.takeWhile_append_dropWhile
  have hwhole : ∀ c ∈ t.takeWhile isDigit, isDigit c = true := fun _ => List.mem_takeWhile_imp
  simp only [isMagnitude] at h
  split at h
  · rename_i r hdrop
    have hpart : r.takeWhile isDigit ++ r.dropWhile isDigit = r := List.takeWhile_append_dropWhile
    rw [Bool.and_eq_true, Bool.or_eq_true] at h
    refine ⟨_, _, hwhole, h.2, .inr ⟨r.takeWhile isDigit, ?_, fun _ => List.mem_takeWhile_imp, ?_⟩⟩
    · rw [hpart, ← hdrop, hcut]
    · simpa using h.1
  · rw [Bool.and_eq_true] at h
    exact ⟨_, _, hwhole, h.2, .inl ⟨hcut.symm, by simpa using h.1⟩⟩

theorem isMagnitude_iff : isMagnitude t = true ↔ t ∈ magnitude.matches' := by
  rw [magnitude, matches'_mul, Language.mem_mul]
  simp only [matches'_add, matches'_mul, matches'_char, Language.mem_add, Language.mem_mul]
  constructor
  · intro h
    obtain ⟨w, e, hw, he, ⟨rfl, hne⟩ | ⟨f, rfl, hf, hne⟩⟩ := exists_of_isMagnitude h
    · exact ⟨w, .inl (.inl (mem_digits.2 ⟨hne, hw⟩)), e, isExponent_iff.1 he, rfl⟩
    · refine ⟨w ++ ['.'] ++ f, ?_, e, isExponent_iff.1 he, by simp⟩
      rcases hne with hne | hne
      · exact .inl (.inr ⟨_, ⟨w, mem_digits.2 ⟨hne, hw⟩, ['.'], rfl, rfl⟩, f,
          mem_star_digit.2 hf, rfl⟩)
      · exact .inr ⟨_, ⟨w, mem_star_digit.2 hw, ['.'], rfl, rfl⟩, f, mem_digits.2 ⟨hne, hf⟩, rfl⟩
  · rintro ⟨_, (hw | ⟨_, ⟨w, hw, _, rfl, rfl⟩, f, hf, rfl⟩) | ⟨_, ⟨w, hw, _, rfl, rfl⟩, f, hf, rfl⟩,
      e, he, rfl⟩
    · obtain ⟨hne, hw⟩ := mem_digits.1 hw
      exact isMagnitude_whole hw hne (isExponent_iff.2 he)
    · obtain ⟨hne, hw⟩ := mem_digits.1 hw
      simpa using isMagnitude_pointed hw (mem_star_digit.1 hf) (.inl hne) (isExponent_iff.2 he)
    · obtain ⟨hne, hf⟩ := mem_digits.1 hf
      simpa using isMagnitude_pointed (mem_star_digit.1 hw) hf (.inr hne) (isExponent_iff.2 he)

theorem head?_magnitude (h : isMagnitude t = true) :
    ∃ c r, t = c :: r ∧ (isDigit c = true ∨ c = '.') := by
  obtain ⟨w, e, hw, -, ⟨rfl, hne⟩ | ⟨f, rfl, -, -⟩⟩ := exists_of_isMagnitude h
  · obtain ⟨c, r, rfl⟩ := List.exists_cons_of_ne_nil hne
    exact ⟨c, r ++ e, rfl, .inl (hw c List.mem_cons_self)⟩
  · cases w with
    | nil => exact ⟨'.', f ++ e, rfl, .inr rfl⟩
    | cons c r => exact ⟨c, r ++ '.' :: (f ++ e), rfl, .inl (hw c List.mem_cons_self)⟩

theorem beginsUnsigned_magnitude : BeginsUnsigned magnitude := by
  intro w hw
  obtain ⟨c, r, rfl, hc | rfl⟩ := head?_magnitude (isMagnitude_iff.2 hw)
  · exact ⟨c, r, rfl, ne_sign_of_isDigit hc⟩
  · exact ⟨'.', r, rfl, by decide⟩

theorem floatWords_head {c : Char} {r : Text} (hc : isDigit c = true ∨ c = '.') :
    Text.lower (c :: r) ∉ floatWords := by
  have hlower : c.toLower ≠ 'i' ∧ c.toLower ≠ 'n' := by
    have hall : ∀ d ∈ '.' :: "0123456789".toList, d.toLower ≠ 'i' ∧ d.toLower ≠ 'n' := by simp
    apply hall
    rw [List.mem_cons, ← isDigit_iff]
    exact hc.symm
  simp [Text.lower, floatWords, hlower]

theorem isNumeric_iff : isNumeric t = true ↔ t.trim ∈ numeral.matches' := by
  rw [numeral, mem_optional_sign_mul beginsUnsigned_magnitude, ← isMagnitude_iff, isNumeric,
    isFloat, Bool.and_eq_true, Bool.or_eq_true]
  constructor
  · rintro ⟨hhead, hmagnitude | hword⟩
    · exact hmagnitude
    · obtain ⟨c, hc, hstart⟩ := (Option.any_eq_true _ _).1 hhead
      obtain ⟨r, hr⟩ := List.head?_eq_some_iff.1 hc
      rw [hr] at hword
      exact absurd (List.contains_iff_mem.1 hword) (floatWords_head (by simpa using hstart))
  · intro h
    obtain ⟨c, r, hr, hc⟩ := head?_magnitude h
    exact ⟨by simpa [hr] using hc, .inl h⟩

/-- Arguments that stand for themselves in a program. -/
inductive IsPlain : Text → Prop
  | empty : IsPlain []
  | opened {c : Char} (h : c ∈ ['"', '\'', '[', '\x7b']) (r : Text) : IsPlain (c :: r)
  | word {t : Text} (h : t ∈ ["null".toList, "None".toList, "nil".toList, "true".toList,
      "false".toList]) : IsPlain t
  | number {t : Text} (h : t.trim ∈ numeral.matches') : IsPlain t

theorem isLiteral_iff : isLiteral t = true ↔ IsPlain t := by
  simp only [isLiteral, Bool.or_eq_true, isNumeric_iff]
  constructor
  · rintro (((hnil | hnumber) | hopened) | hword)
    · exact List.isEmpty_iff.1 hnil ▸ .empty
    · exact .number hnumber
    · obtain ⟨c, hc, hopen⟩ := (Option.any_eq_true _ _).1 hopened
      obtain ⟨r, rfl⟩ := List.head?_eq_some_iff.1 hc
      exact .opened (List.contains_iff_mem.1 hopen) r
    · exact .word (List.contains_iff_mem.1 hword)
  · rintro (_ | ⟨hopen, r⟩ | hword | hnumber)
    · exact .inl (.inl (.inl rfl))
    · exact .inl (.inr (List.contains_iff_mem.2 hopen))
    · exact .inr (List.contains_iff_mem.2 hword)
    · exact .inl (.inl (.inr hnumber))

def quoted (t : Text) : Text := '"' :: t ++ ['"']

theorem format_of_isPlain (h : IsPlain t) : format t = t := if_pos (isLiteral_iff.2 h)

theorem format_of_not_isPlain (h : ¬ IsPlain t) : format t = quoted t :=
  if_neg (isLiteral_iff.not.2 h)

theorem quoted_ne (t : Text) : quoted t ≠ t := by
  intro h
  have hlength := congrArg List.length h
  simp only [quoted, List.length_append, List.length_cons, List.length_nil] at hlength
  omega

theorem format_format (t : Text) : format (format t) = format t := by
  by_cases h : IsPlain t
  · rw [format_of_isPlain h, format_of_isPlain h]
  · rw [format_of_not_isPlain h]
    exact format_of_isPlain (.opened (by decide) _)

/-- Arguments keep their number and order. One that stands for itself stays as it is, and no other
does: it is put between quotes. A second pass changes nothing. -/
theorem formatAll_quotes (ts : List Text) :
    (formatAll ts).length = ts.length ∧ formatAll (formatAll ts) = formatAll ts ∧
      List.Forall₂ (fun t u => (u = t ↔ IsPlain t) ∧ (u = t ∨ u = '"' :: t ++ ['"'])) ts
        (formatAll ts) := by
  refine ⟨List.length_map .., ?_, ?_⟩
  · rw [formatAll, formatAll, List.map_map]
    exact List.map_congr_left fun t _ => format_format t
  · rw [formatAll, List.forall₂_map_right_iff, List.forall₂_same]
    intro t _
    by_cases h : IsPlain t
    · rw [format_of_isPlain h]
      simp [h]
    · rw [format_of_not_isPlain h]
      exact ⟨by simp [h, quoted_ne], .inr rfl⟩

example : formatAll [" +.5E-3\n".toList, "-Inf".toList, "1e".toList] =
    [" +.5E-3\n".toList, "\"-Inf\"".toList, "\"1e\"".toList] := by decide

end SoloCall.Argument
