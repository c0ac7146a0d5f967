import Mathlib.Tactic.SplitIfs
import SoloCall.Driver.Plan

namespace SoloCall

namespace Driver

variable {body t : Text}

def escapeLetters : List (Char × Char) := [
  ('b', '\x08'), ('t', '\t'), ('n', '\n'), ('v', '\x0b'), ('f', '\x0c'), ('r', '\r')]

def beginsNumber (c : Char) : Bool := isDigit c || c = 'x' || c = 'u'

def isLineTerminator (c : Char) : Bool := c = '\n' || c = '\r' || c = '\u2028' || c = '\u2029'

/-- What a literal stands for from behind its opening quote, and what follows its closing quote. A
backslash before a line end continues the literal on the next line. A literal that gives a character
by its number is not read. -/
def literalBody? : Text → Option (Text × Text)
  | [] => none
  | '"' :: r => some ([], r)
  | '\\' :: '\r' :: '\n' :: r => literalBody? r
  | '\\' :: e :: r =>
    if beginsNumber e then none
    else if isLineTerminator e then literalBody? r
    else (literalBody? r).map fun p => ((escapeLetters.lookup e).getD e :: p.1, p.2)
  | c :: r =>
    if c = '\\' || c = '\n' || c = '\r' then none
    else (literalBody? r).map fun p => (c :: p.1, p.2)

def literal? : Text → Option (Text × Text)
  | '"' :: r => literalBody? r
  | _ => none

def escapeMarks : List Char := ['\\', '"', 'n', 'r']

/-- Every backslash starts an escape, and beside the escapes there is no quote and no line break. -/
inductive IsEscaped : Text → Prop
  | nil : IsEscaped []
  | plain {c : Char} {t : Text} (hc : c ∉ ['"', '\\', '\n', '\r']) (ht : IsEscaped t) :
      IsEscaped (c :: t)
  | escape {e : Char} {t : Text} (he : e ∈ escapeMarks) (ht : IsEscaped t) :
      IsEscaped ('\\' :: e :: t)

theorem IsEscaped.not_mem {c : Char} (h : IsEscaped body) (hc : c ∈ ['\n', '\r']) : c ∉ body := by
  induction h with
  | nil => simp
  | plain hd ht ih =>
      rw [List.mem_cons, not_or]
      refine ⟨?_, ih⟩
      rintro rfl
      exact hd (by simpa using Or.inr (Or.inr hc))
  | escape he ht ih =>
      have hmarks : ∀ d ∈ ['\n', '\r'], ∀ e ∈ escapeMarks, d ≠ '\\' ∧ d ≠ e := by
        simp [escapeMarks]
      obtain ⟨hslash, hmark⟩ := hmarks c hc _ he
      simp [hslash, hmark, ih]

def literalChar (c : Char) : Text :=
  if c = '\n' then ['\\', 'n']
  else if c = '\r' then ['\\', 'r']
  else if c = '"' || c = '\\' then ['\\', c]
  else [c]

theorem scriptString_eq (t : Text) : scriptString t = '"' :: (t.flatMap literalChar ++ ['"']) := rfl

theorem literalChar_cases (c : Char) :
    (∃ e ∈ escapeMarks, literalChar c = ['\\', e] ∧ (escapeLetters.lookup e).getD e = c) ∨
      c ∉ ['"', '\\', '\n', '\r'] ∧ literalChar c = [c] := by
  rw [literalChar]
  split_ifs with hfeed hreturn hmark
  · exact .inl ⟨'n', by decide, rfl, by rw [hfeed]; rfl⟩
  · exact .inl ⟨'r', by decide, rfl, by rw [hreturn]; rfl⟩
  · rw [Bool.or_eq_true, decide_eq_true_eq, decide_eq_true_eq] at hmark
    refine .inl ⟨c, ?_, rfl, ?_⟩ <;> rcases hmark with rfl | rfl <;> decide
  · refine .inr ⟨?_, rfl⟩
    simp_all

theorem isEscaped_flatMap (t : Text) : IsEscaped (t.flatMap literalChar) := by
  induction t with
  | nil => exact .nil
  | cons c t ih =>
      rw [List.flatMap_cons]
      rcases literalChar_cases c with ⟨e, he, hchar, -⟩ | ⟨hc, hchar⟩
      · rw [hchar]
        exact .escape he ih
      · rw [hchar]
        exact .plain hc ih

theorem literalBody?_escape {e : Char} (he : e ∈ escapeMarks) (r : Text) :
    literalBody? ('\\' :: e :: r) =
      (literalBody? r).map fun p => ((escapeLetters.lookup e).getD e :: p.1, p.2) := by
  have hmarks : escapeMarks.all (fun e => e != '\r' && !beginsNumber e && !isLineTerminator e) =
      true := by decide
  obtain ⟨⟨hreturn, hnumber⟩, hend⟩ :
      (e ≠ '\r' ∧ beginsNumber e = false) ∧ isLineTerminator e = false := by
    simpa using List.all_eq_true.1 hmarks e he
  rw [literalBody?]
  · rw [hnumber, hend]
    rfl
  · exact fun _ h => absurd h hreturn

theorem literalBody?_plain {c : Char} (hc : c ∉ ['"', '\\', '\n', '\r']) (r : Text) :
    literalBody? (c :: r) = (literalBody? r).map fun p => (c :: p.1, p.2) := by
  simp only [List.mem_cons, List.not_mem_nil, or_false, not_or] at hc
  obtain ⟨hquote, hslash, hfeed, hreturn⟩ := hc
  rw [literalBody?]
  · simp [hslash, hfeed, hreturn]
  · exact hquote
  · exact fun _ h => absurd h hslash
  · exact fun _ _ h => absurd h hslash

theorem literalBody?_flatMap (t rest : Text) :
    literalBody? (t.flatMap literalChar ++ '"' :: rest) = some (t, rest) := by
  induction t with
  | nil => rfl
  | cons c t ih =>
      rw [List.flatMap_cons, List.append_assoc]
      rcases literalChar_cases c with ⟨e, he, hchar, hvalue⟩ | ⟨hc, hchar⟩
      · rw [hchar, List.cons_append, List.singleton_append, literalBody?_escape he, ih, hvalue]
        rfl
      · rw [hchar, List.singleton_append, literalBody?_plain hc, ih]
        rfl

theorem literal?_scriptString (t rest : Text) : literal? (scriptString t ++ rest) = some (t, rest) := by
  have hshape : scriptString t ++ rest = '"' :: (t.flatMap literalChar ++ '"' :: rest) := by
    simp [scriptString_eq]
  rw [hshape, literal?]
  exact literalBody?_flatMap t rest

/-- A text stands between two quotes, with nothing in between but its escapes and plain characters;
the literal is read as the text, so no two texts are written alike. -/
theorem scriptString_isLiteral :
    (∀ t, ∃ body, scriptString t = '"' :: (body ++ ['"']) ∧ IsEscaped body ∧
      '\n' ∉ body ∧ '\r' ∉ body ∧ ∀ rest, literal? (scriptString t ++ rest) = some (t, rest)) ∧
    Function.Injective scriptString := by
  constructor
  · intro t
    have hescaped := isEscaped_flatMap t
    exact ⟨t.flatMap literalChar, scriptString_eq t, hescaped, hescaped.not_mem (by simp),
      hescaped.not_mem (by simp), literal?_scriptString t⟩
  · intro s t h
    have hs := literal?_scriptString s []
    rw [h, literal?_scriptString t []] at hs
    exact (Prod.mk.inj (Option.some.inj hs)).1.symm

example : literal? (scriptString "a\\\"b\n".toList ++ [')']) = some ("a\\\"b\n".toList, [')']) := by
  rfl

end Driver

end SoloCall
