import SoloCall.Parameter
import SoloCall.Proofs.Text.Split
import SoloCall.Proofs.Text.Trim

namespace SoloCall.Parameter

variable {language : Language} {raw a b t : Text}

def read? : Language → Text → Option Parameter
  | .java => typed? "Object".toList
  | .c | .cpp => typed? "int".toList
  | .go => named?
  | .javascript | .typescript => bound?
  | .python | .unknown => annotated?

def dropsSelf : Language → Bool
  | .python | .unknown => true
  | .java | .c | .cpp | .go | .javascript | .typescript => false

theorem tokenize_eq (language : Language) (raw : Text) :
    tokenize language raw =
      (if dropsSelf language then dropSelf (declarations raw) else declarations raw).filterMap
        (read? language) := by
  cases language <;> rfl

theorem mem_declarations_of_mem_dropSelf {ts : List Text} (h : t ∈ dropSelf ts) : t ∈ ts := by
  cases ts with
  | nil => exact h
  | cons first rest =>
      rw [dropSelf] at h
      split at h
      · exact List.mem_cons_of_mem first h
      · exact h

theorem declarations_append (a b : Text) :
    declarations (a ++ ',' :: b) = declarations a ++ declarations b := by
  rw [declarations, Text.split_append_cons, List.map_append, List.filter_append]
  rfl

def firstPiece? (raw : Text) : Option Text := (raw.split ',').find? fun piece => !piece.allBlank

theorem head?_declarations (raw : Text) :
    (declarations raw).head? = (firstPiece? raw).map Text.trim := by
  have hempty (piece : Text) : (!piece.trim.isEmpty) = !piece.allBlank := by
    rw [Bool.eq_iff_iff]
    simp [Text.trim_eq_nil_iff]
  rw [declarations, List.head?_filter, List.find?_map, firstPiece?]
  congr 2
  funext piece
  exact hempty piece

theorem read?_self (h : language = .python ∨ language = .unknown) :
    read? language self = some ⟨self, anyType, none⟩ := by
  rcases h with rfl | rfl <;> rfl

theorem dropsSelf_iff : dropsSelf language = true ↔ language = .python ∨ language = .unknown := by
  cases language <;> simp [dropsSelf]

theorem declarations_eq_nil_iff : declarations raw = [] ↔ firstPiece? raw = none := by
  rw [← List.head?_eq_none_iff, head?_declarations, Option.map_eq_none_iff]

theorem dropSelf_append {ts : List Text} (h : ts ≠ []) (us : List Text) :
    dropSelf (ts ++ us) = dropSelf ts ++ us := by
  obtain ⟨first, rest, rfl⟩ := List.exists_cons_of_ne_nil h
  rw [List.cons_append, dropSelf, dropSelf]
  split <;> rfl

/-- The list behind the comma leads with `self`, and in the one before it stands something. -/
def HoldsSelf (language : Language) (a b : Text) : Prop :=
  (language = .python ∨ language = .unknown) ∧ (firstPiece? a).isSome ∧
    (firstPiece? b).map Text.trim = some self

instance (language : Language) (a b : Text) : Decidable (HoldsSelf language a b) :=
  inferInstanceAs (Decidable (_ ∧ _))

theorem filterMap_declarations (h : language = .python ∨ language = .unknown) (raw : Text) :
    (declarations raw).filterMap (read? language) =
      (if (firstPiece? raw).map Text.trim = some self then [⟨self, anyType, none⟩] else []) ++
        tokenize language raw := by
  rw [tokenize_eq, if_pos (dropsSelf_iff.2 h), ← head?_declarations]
  cases declarations raw with
  | nil => rfl
  | cons first rest =>
      by_cases hs : first = self
      · rw [hs, List.filterMap_cons_some (read?_self h)]
        simp [dropSelf]
      · simp [dropSelf, hs]

/-- Two lists with a comma between them declare what each of them declares, and if the second leads
with `self`, the first decides whether that is a parameter. -/
theorem tokenize_append_comma (language : Language) (a b : Text) :
    tokenize language (a ++ [','] ++ b) =
      tokenize language a ++ (if HoldsSelf language a b then [⟨self, anyType, none⟩] else []) ++
        tokenize language b := by
  rw [List.append_assoc, List.singleton_append]
  by_cases hl : language = .python ∨ language = .unknown
  · have hd := dropsSelf_iff.2 hl
    by_cases ha : declarations a = []
    · have hnone := declarations_eq_nil_iff.1 ha
      have hself : ¬ HoldsSelf language a b := by simp [HoldsSelf, hnone]
      rw [tokenize_eq, tokenize_eq, tokenize_eq, declarations_append, ha, if_neg hself]
      simp [hd, dropSelf]
    · have hsome : (firstPiece? a).isSome := by
        rwa [Option.isSome_iff_ne_none, ne_eq, ← declarations_eq_nil_iff]
      have hself : HoldsSelf language a b ↔ (firstPiece? b).map Text.trim = some self := by
        simp [HoldsSelf, hl, hsome]
      calc tokenize language (a ++ ',' :: b)
          = (dropSelf (declarations a) ++ declarations b).filterMap (read? language) := by
            rw [tokenize_eq, if_pos hd, declarations_append, dropSelf_append ha]
        _ = tokenize language a ++ (declarations b).filterMap (read? language) := by
            rw [List.filterMap_append, tokenize_eq, if_pos hd]
        _ = _ := by
            rw [filterMap_declarations hl, ← List.append_assoc]
            simp only [hself]
  · have hd : dropsSelf language = false := by
      rw [← Bool.not_eq_true, dropsSelf_iff]
      exact hl
    have hself : ¬ HoldsSelf language a b := fun h => hl h.1
    rw [tokenize_eq, tokenize_eq, tokenize_eq, declarations_append, if_neg hself]
    simp [hd]

end SoloCall.Parameter
