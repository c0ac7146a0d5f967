import SoloCall.Text.Decimal

namespace SoloCall.Json

inductive CodeUnit where
  | char (c : Char)
  | half (n : Nat)
  deriving DecidableEq, Repr

structure NumberText where
  negative : Bool
  whole : Text
  fraction? : Option Text := none
  exponent? : Option (Option Char × Text) := none
  deriving DecidableEq, Repr

inductive Token where
  | objectStart | objectEnd | arrayStart | arrayEnd | comma | colon
  | null | true | false
  | number (n : NumberText)
  | string (units : List CodeUnit)
  deriving DecidableEq, Repr

def isSpace (c : Char) : Bool := c = ' ' || c = '\t' || c = '\n' || c = '\r'

def hexValue? (c : Char) : Option Nat :=
  let n := c.toNat
  if isDigit c then some (n - 48)
  else if 'a' ≤ c && c ≤ 'f' then some (n - 87)
  else if 'A' ≤ c && c ≤ 'F' then some (n - 55)
  else none

def hexWord? (a b c d : Char) : Option Nat := do
  return (((← hexValue? a) * 16 + (← hexValue? b)) * 16 + (← hexValue? c)) * 16 + (← hexValue? d)

def isHalf (n : Nat) : Bool := 0xD800 ≤ n && n ≤ 0xDFFF

def unitOf (n : Nat) : CodeUnit := if isHalf n then .half n else .char (Char.ofNat n)

def escapes : List (Char × Char) := [
  ('"', '"'), ('\\', '\\'), ('/', '/'), ('b', '\x08'), ('f', '\x0c'), ('n', '\n'), ('r', '\r'),
  ('t', '\t')]

/-- The units of a string after its opening quote, and what follows its closing quote. -/
def stringBody? : Text → Option (List CodeUnit × Text)
  | [] => none
  | '"' :: r => some ([], r)
  | '\\' :: 'u' :: a :: b :: c :: d :: r => do
    let n ← hexWord? a b c d
    let (units, rest) ← stringBody? r
    return (unitOf n :: units, rest)
  | '\\' :: e :: r => do
    let c ← escapes.lookup e
    let (units, rest) ← stringBody? r
    return (.char c :: units, rest)
  | c :: r =>
    if 0x20 ≤ c.toNat && c ≠ '\\' then (stringBody? r).map fun p => (.char c :: p.1, p.2)
    else none

def digits? (t : Text) : Option (Text × Text) :=
  match t.takeWhile isDigit with
  | [] => none
  | ds => some (ds, t.dropWhile isDigit)

/-- No digit follows a zero that begins a number. -/
def whole? (t : Text) : Option (Text × Text) :=
  match t with
  | '0' :: r => some (['0'], r)
  | _ => digits? t

def fraction? (t : Text) : Option (Option Text × Text) :=
  match t with
  | '.' :: r => (digits? r).map fun p => (some p.1, p.2)
  | _ => some (none, t)

def exponentDigits? (sign? : Option Char) (t : Text) :
    Option (Option (Option Char × Text) × Text) :=
  (digits? t).map fun p => (some (sign?, p.1), p.2)

def exponent? (t : Text) : Option (Option (Option Char × Text) × Text) :=
  match t with
  | c :: r =>
    if c = 'e' || c = 'E' then
      match r with
      | '+' :: r => exponentDigits? (some '+') r
      | '-' :: r => exponentDigits? (some '-') r
      | _ => exponentDigits? none r
    else some (none, t)
  | [] => some (none, t)

def unsigned? (negative : Bool) (t : Text) : Option (NumberText × Text) := do
  let (whole, t) ← whole? t
  let (frac, t) ← fraction? t
  let (exp, t) ← exponent? t
  return (⟨negative, whole, frac, exp⟩, t)

def number? (t : Text) : Option (NumberText × Text) :=
  match t with
  | '-' :: r => unsigned? .true r
  | _ => unsigned? .false t

def word? (w : Text) (token : Token) (t : Text) : Option (Token × Text) :=
  (Text.after? w t).map fun r => (token, r)

def token? (t : Text) : Option (Token × Text) :=
  match t with
  | [] => none
  | '\x7b' :: r => some (.objectStart, r)
  | '\x7d' :: r => some (.objectEnd, r)
  | '[' :: r => some (.arrayStart, r)
  | ']' :: r => some (.arrayEnd, r)
  | ',' :: r => some (.comma, r)
  | ':' :: r => some (.colon, r)
  | '"' :: r => (stringBody? r).map fun p => (.string p.1, p.2)
  | 'n' :: _ => word? "null".toList .null t
  | 't' :: _ => word? "true".toList .true t
  | 'f' :: _ => word? "false".toList .false t
  | _ => (number? t).map fun p => (.number p.1, p.2)

theorem stringBody?_length {t rest : Text} {units : List CodeUnit}
    (h : stringBody? t = some (units, rest)) : rest.length < t.length := by
  induction t using stringBody?.induct generalizing units with
  | case1 => simp [stringBody?] at h
  | case2 r =>
    simp only [stringBody?, Option.some.injEq, Prod.mk.injEq] at h
    simp [h.2]
  | case3 a b c d r ih =>
    simp only [stringBody?, Option.bind_eq_bind, Option.bind_eq_some_iff] at h
    obtain ⟨n, _, ⟨us, r'⟩, hr, he⟩ := h
    obtain ⟨-, rfl⟩ := Prod.mk.inj (Option.some.inj he)
    have := ih hr
    simp only [List.length_cons] at this ⊢
    omega
  | case4 e r hne ih =>
    rw [stringBody?] at h
    · simp only [Option.bind_eq_bind, Option.bind_eq_some_iff] at h
      obtain ⟨n, _, ⟨us, r'⟩, hr, he⟩ := h
      obtain ⟨-, rfl⟩ := Prod.mk.inj (Option.some.inj he)
      have := ih hr
      simp only [List.length_cons] at this ⊢
      omega
    · exact hne
  | case5 c r h₁ h₂ h₃ hc ih =>
    rw [stringBody?, if_pos hc] at h
    · obtain ⟨⟨us, r'⟩, hr, he⟩ := Option.map_eq_some_iff.1 h
      obtain ⟨-, rfl⟩ := Prod.mk.inj he
      have := ih hr
      simp only [List.length_cons] at this ⊢
      omega
    · exact h₁
    · exact h₂
    · exact h₃
  | case6 c r h₁ h₂ h₃ hc =>
    rw [stringBody?, if_neg hc] at h
    · exact absurd h (by simp)
    · exact h₁
    · exact h₂
    · exact h₃

theorem digits?_length {t ds rest : Text} (h : digits? t = some (ds, rest)) :
    rest.length < t.length := by
  unfold digits? at h
  split at h
  · simp at h
  · rename_i hne
    obtain ⟨-, rfl⟩ := Prod.mk.inj (Option.some.inj h)
    have hl := congrArg List.length (List.takeWhile_append_dropWhile (p := isDigit) (l := t))
    have hp : 0 < (t.takeWhile isDigit).length := by
      cases hw : t.takeWhile isDigit with
      | nil => exact absurd hw hne
      | cons => simp
    rw [List.length_append] at hl
    omega

theorem whole?_length {t ds rest : Text} (h : whole? t = some (ds, rest)) :
    rest.length < t.length := by
  unfold whole? at h
  split at h
  · obtain ⟨-, rfl⟩ := Prod.mk.inj (Option.some.inj h)
    simp
  · exact digits?_length h

theorem fraction?_length {t rest : Text} {f : Option Text} (h : fraction? t = some (f, rest)) :
    rest.length ≤ t.length := by
  unfold fraction? at h
  split at h
  · obtain ⟨⟨ds, r'⟩, hd, he⟩ := Option.map_eq_some_iff.1 h
    obtain ⟨-, rfl⟩ := Prod.mk.inj he
    have := digits?_length hd
    simp only [List.length_cons]
    omega
  · obtain ⟨-, rfl⟩ := Prod.mk.inj (Option.some.inj h)
    exact Nat.le_refl _

theorem exponentDigits?_length {sign : Option Char} {t rest : Text}
    {e : Option (Option Char × Text)} (h : exponentDigits? sign t = some (e, rest)) :
    rest.length < t.length := by
  obtain ⟨⟨ds, r'⟩, hd, he⟩ := Option.map_eq_some_iff.1 h
  obtain ⟨-, rfl⟩ := Prod.mk.inj he
  exact digits?_length hd

theorem exponent?_length {t rest : Text} {e : Option (Option Char × Text)}
    (h : exponent? t = some (e, rest)) : rest.length ≤ t.length := by
  unfold exponent? at h
  split at h
  · split at h
    · split at h <;> have := exponentDigits?_length h <;>
        simp only [List.length_cons] at * <;> omega
    · obtain ⟨-, rfl⟩ := Prod.mk.inj (Option.some.inj h)
      exact Nat.le_refl _
  · obtain ⟨-, rfl⟩ := Prod.mk.inj (Option.some.inj h)
    exact Nat.le_refl _

theorem unsigned?_length {b : Bool} {t rest : Text} {n : NumberText}
    (h : unsigned? b t = some (n, rest)) : rest.length < t.length := by
  simp only [unsigned?, Option.bind_eq_bind, Option.bind_eq_some_iff] at h
  obtain ⟨⟨w, t₁⟩, hw, ⟨f, t₂⟩, hf, ⟨e, t₃⟩, he, hn⟩ := h
  obtain ⟨-, rfl⟩ := Prod.mk.inj (Option.some.inj hn)
  have h₁ := whole?_length hw
  have h₂ := fraction?_length hf
  have h₃ := exponent?_length he
  simp only at h₂ h₃ ⊢
  omega

theorem number?_length {t rest : Text} {n : NumberText} (h : number? t = some (n, rest)) :
    rest.length < t.length := by
  unfold number? at h
  split at h
  · have := unsigned?_length h
    simp only [List.length_cons]
    omega
  · exact unsigned?_length h

theorem word?_length {w t rest : Text} {token k : Token} (hw : w ≠ [])
    (h : word? w token t = some (k, rest)) : rest.length < t.length := by
  obtain ⟨r, hr, he⟩ := Option.map_eq_some_iff.1 h
  obtain ⟨-, rfl⟩ := Prod.mk.inj he
  rw [Text.after?_eq_some_iff] at hr
  subst hr
  have := List.length_pos_iff.2 hw
  simp only [List.length_append]
  omega

theorem token?_length {t rest : Text} {k : Token} (h : token? t = some (k, rest)) :
    rest.length < t.length := by
  unfold token? at h
  split at h
  · simp at h
  iterate 6
    obtain ⟨-, rfl⟩ := Prod.mk.inj (Option.some.inj h)
    simp
  · obtain ⟨⟨us, r'⟩, hs, he⟩ := Option.map_eq_some_iff.1 h
    obtain ⟨-, rfl⟩ := Prod.mk.inj he
    have := stringBody?_length hs
    simp only [List.length_cons]
    omega
  · exact word?_length (by decide) h
  · exact word?_length (by decide) h
  · exact word?_length (by decide) h
  · obtain ⟨⟨n, r'⟩, hn, he⟩ := Option.map_eq_some_iff.1 h
    obtain ⟨-, rfl⟩ := Prod.mk.inj he
    exact number?_length hn

/-- The tokens of a text; spaces may stand around them. -/
def lex? (t : Text) : Option (List Token) :=
  match t with
  | [] => some []
  | c :: r =>
    if isSpace c then lex? r
    else
      match h : token? (c :: r) with
      | none => none
      | some (token, rest) =>
        have := token?_length h
        (lex? rest).map (token :: ·)
termination_by t.length
decreasing_by
  · exact Nat.lt_succ_self r.length
  · exact token?_length h

end SoloCall.Json
