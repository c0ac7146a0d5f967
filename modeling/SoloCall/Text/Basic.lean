namespace SoloCall

abbrev Text := List Char

namespace Text

/-- The pieces between the separators. There is always at least one, and joining the pieces with
the separator gives the text back. -/
def split (sep : Char) (t : Text) : List Text :=
  t.foldr (fun c pieces =>
    if c = sep then [] :: pieces
    else match pieces with
      | [] => [[c]]
      | piece :: rest => (c :: piece) :: rest) [[]]

def join (sep : Text) : List Text → Text
  | [] => []
  | [piece] => piece
  | piece :: next :: rest => piece ++ sep ++ join sep (next :: rest)

def cut? (sep : Char) : Text → Option (Text × Text)
  | [] => none
  | c :: r => if c = sep then some ([], r) else (cut? sep r).map fun p => (c :: p.1, p.2)

def after? : (head t : Text) → Option Text
  | [], t => some t
  | _ :: _, [] => none
  | h :: head, c :: t => if h = c then after? head t else none

def startsWith (head t : Text) : Bool := (after? head t).isSome

def hasPart (part : Text) : Text → Bool
  | [] => part.isEmpty
  | c :: r => startsWith part (c :: r) || hasPart part r

/-- Rewrites the occurrences of `old` from left to right; `skip` counts the characters of an
occurrence that is still being passed over. -/
def replaceFrom (old new : Text) : (skip : Nat) → Text → Text
  | _, [] => []
  | skip + 1, _ :: r => replaceFrom old new skip r
  | 0, c :: r =>
    if startsWith old (c :: r) then new ++ replaceFrom old new (old.length - 1) r
    else c :: replaceFrom old new 0 r

/-- Every occurrence of the non-empty text `old`, read from the left without overlap, becomes
`new`. What was put in is not read again. -/
def replaceAll (old new t : Text) : Text := replaceFrom old new 0 t

def endWhile (p : Char → Bool) (t : Text) : Text := (t.reverse.takeWhile p).reverse

def dropEndWhile (p : Char → Bool) (t : Text) : Text := (t.reverse.dropWhile p).reverse

def le : Text → Text → Bool
  | [], _ => true
  | _ :: _, [] => false
  | a :: x, b :: y => if a = b then le x y else a.toNat < b.toNat

theorem split_ne_nil (sep : Char) (t : Text) : split sep t ≠ [] := by
  induction t with
  | nil => simp [split]
  | cons c r ih =>
    simp only [split, List.foldr_cons] at ih ⊢
    split
    · simp
    · split <;> simp

theorem split_nil (sep : Char) : split sep [] = [[]] := rfl

theorem split_cons_sep (sep : Char) (t : Text) : split sep (sep :: t) = [] :: split sep t := by
  simp [split]

theorem split_cons_of_ne {sep c : Char} (h : c ≠ sep) (t : Text) :
    split sep (c :: t) =
      match split sep t with
      | [] => [[c]]
      | piece :: rest => (c :: piece) :: rest := by
  simp [split, h]

theorem join_cons_cons (sep piece next : Text) (rest : List Text) :
    join sep (piece :: next :: rest) = piece ++ sep ++ join sep (next :: rest) := rfl

theorem join_split (sep : Char) (t : Text) : join [sep] (split sep t) = t := by
  induction t with
  | nil => rfl
  | cons c r ih =>
    by_cases h : c = sep
    · subst h
      rw [split_cons_sep]
      cases hs : split c r with
      | nil => exact absurd hs (split_ne_nil c r)
      | cons piece rest => rw [hs] at ih; simp [join, ih]
    · rw [split_cons_of_ne h]
      cases hs : split sep r with
      | nil => exact absurd hs (split_ne_nil sep r)
      | cons piece rest =>
        rw [hs] at ih
        cases rest with
        | nil => simpa [join] using ih
        | cons next rest => simpa [join] using ih

theorem cut?_eq_some {sep : Char} {t before after : Text} (h : cut? sep t = some (before, after)) :
    t = before ++ sep :: after ∧ sep ∉ before := by
  induction t generalizing before with
  | nil => simp [cut?] at h
  | cons c r ih =>
    simp only [cut?] at h
    split at h
    · rename_i hc
      obtain ⟨rfl, rfl⟩ := Prod.mk.inj (Option.some.inj h)
      simp [hc]
    · rename_i hc
      obtain ⟨⟨front, back⟩, hr, he⟩ := Option.map_eq_some_iff.1 h
      obtain ⟨rfl, rfl⟩ := Prod.mk.inj he
      obtain ⟨rfl, hn⟩ := ih hr
      exact ⟨rfl, by simp [hn, Ne.symm hc]⟩

theorem after?_eq_some_iff {head t r : Text} : after? head t = some r ↔ t = head ++ r := by
  induction head generalizing t with
  | nil => simp [after?, eq_comm]
  | cons h head ih =>
    cases t with
    | nil => simp [after?]
    | cons c t =>
      by_cases hc : h = c
      · simp [after?, hc, ih]
      · simp [after?, hc, Ne.symm hc]

theorem after?_append (head r : Text) : after? head (head ++ r) = some r :=
  after?_eq_some_iff.2 rfl

end Text

end SoloCall
