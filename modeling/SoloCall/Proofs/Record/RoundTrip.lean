import Mathlib.Data.Option.Basic
import SoloCall.Listing
import SoloCall.Proofs.Json.Reading
import SoloCall.Proofs.Traverse

namespace SoloCall

open Json

namespace Json.Tree

def ofText (t : Text) : Tree := .string (units t)

def ofNat (n : Nat) : Tree := .number ⟨.false, decimal n, none, none⟩

@[simp]
theorem text?_ofText (t : Text) : (ofText t).text? = some t := text?_units t

theorem word?_ofNat {n : Nat} (h : n ≤ maxWord) : (ofNat n).word? = some n := by
  simp only [ofNat, word?, ofDigits_decimal]
  exact if_pos h

theorem le_maxWord_of_word? {tree : Tree} {n : Nat} (h : tree.word? = some n) : n ≤ maxWord := by
  rw [word?.eq_def] at h
  split at h
  · split at h
    · rename_i hle
      obtain rfl := Option.some.inj h
      exact hle
    · cases h
  · cases h

end Json.Tree

theorem Json.Value.fieldReadsAs_string (key t : Text) :
    FieldReadsAs (key, .string t) (units key, .ofText t) :=
  ⟨rfl, readsAs_string t⟩

theorem Json.Value.fieldReadsAs_nat (key : Text) (n : Nat) :
    FieldReadsAs (key, .int n) (units key, .ofNat n) :=
  ⟨rfl, readsAs_nat n⟩

theorem Language.ofTree?_name (language : Language) :
    ofTree? (.ofText language.name) = some language := by
  have hname : ofName? language.name = some language := by
    cases language <;> rfl
  show (Json.text? (units language.name)).bind ofName? = some language
  rw [text?_units, Option.bind_some, hname]

namespace Parameter

def tree (p : Parameter) : Tree :=
  .object ([(units "name".toList, .ofText p.name), (units "type".toList, .ofText p.type)] ++
    match p.default? with
    | none => []
    | some value => [(units "defaultValue".toList, .ofText value)])

theorem toJson_readsAs (p : Parameter) : p.toJson.ReadsAs p.tree := by
  obtain ⟨name, type, default?⟩ := p
  apply Value.readsAs_object
  refine .cons (Value.fieldReadsAs_string _ name) (.cons (Value.fieldReadsAs_string _ type) ?_)
  cases default? with
  | none => exact .nil
  | some value => exact .cons (Value.fieldReadsAs_string _ value) .nil

theorem ofTree?_tree (p : Parameter) : ofTree? p.tree = some p := by
  obtain ⟨name, type, default?⟩ := p
  cases default? with
  | none =>
      have hfields : (Parameter.tree ⟨name, type, none⟩).fields?
          ["name".toList, "type".toList, "defaultValue".toList] =
          some [some (.ofText name), some (.ofText type), none] := rfl
      rw [ofTree?, hfields]
      simp [Tree.optional?]
  | some value =>
      have hfields : (Parameter.tree ⟨name, type, some value⟩).fields?
          ["name".toList, "type".toList, "defaultValue".toList] =
          some [some (.ofText name), some (.ofText type), some (.ofText value)] := rfl
      have hvalue : Tree.optional? Tree.text? (some (.ofText value)) = some (some value) := by
        show (Tree.text? (.ofText value)).map some = _
        rw [Tree.text?_ofText]
        rfl
      rw [ofTree?, hfields]
      simp [hvalue]

end Parameter

namespace FunctionRecord

def FitsWord (r : FunctionRecord) : Prop := r.lineStart ≤ maxWord ∧ r.lineEnd ≤ maxWord

instance (r : FunctionRecord) : Decidable r.FitsWord := inferInstanceAs (Decidable (_ ∧ _))

def tree (r : FunctionRecord) : Tree :=
  .object [
    (units "name".toList, .ofText r.name),
    (units "parameters".toList, .array (r.parameters.map Parameter.tree)),
    (units "code".toList, .ofText r.code),
    (units "lineStart".toList, .ofNat r.lineStart),
    (units "lineEnd".toList, .ofNat r.lineEnd),
    (units "language".toList, .ofText r.language.name)]

theorem toJson_readsAs (r : FunctionRecord) : r.toJson.ReadsAs r.tree := by
  have hparameters : List.Forall₂ Value.ReadsAs (r.parameters.map Parameter.toJson)
      (r.parameters.map Parameter.tree) := by
    rw [List.forall₂_map_left_iff, List.forall₂_map_right_iff, List.forall₂_same]
    exact fun p _ => p.toJson_readsAs
  apply Value.readsAs_object
  exact .cons (Value.fieldReadsAs_string _ r.name)
    (.cons ⟨rfl, Value.readsAs_array hparameters⟩
      (.cons (Value.fieldReadsAs_string _ r.code)
        (.cons (Value.fieldReadsAs_nat _ r.lineStart)
          (.cons (Value.fieldReadsAs_nat _ r.lineEnd)
            (.cons (Value.fieldReadsAs_string _ r.language.name) .nil)))))

theorem ofTree?_tree {r : FunctionRecord} (h : r.FitsWord) : ofTree? r.tree = some r := by
  have hfields : r.tree.fields? fieldNames = some [some (.ofText r.name),
      some (.array (r.parameters.map Parameter.tree)), some (.ofText r.code),
      some (.ofNat r.lineStart), some (.ofNat r.lineEnd), some (.ofText r.language.name)] := rfl
  have hparameters : (r.parameters.map Parameter.tree).mapM Parameter.ofTree? =
      some r.parameters := mapM_map_eq_some fun p _ => p.ofTree?_tree
  rw [ofTree?, hfields]
  simp [Tree.items?, hparameters, Tree.word?_ofNat h.1, Tree.word?_ofNat h.2,
    Language.ofTree?_name]

theorem fitsWord_of_ofTree? {tree : Tree} {r : FunctionRecord} (h : ofTree? tree = some r) :
    r.FitsWord := by
  simp only [ofTree?, Option.bind_eq_bind, Option.bind_eq_some_iff] at h
  obtain ⟨fields, -, h⟩ := h
  split at h
  · simp only [Option.bind_eq_some_iff] at h
    obtain ⟨name, -, items, -, parameters, -, code, -, lineStart, hstart, lineEnd, hend, language,
      -, h⟩ := h
    obtain rfl := Option.some.inj h
    exact ⟨Tree.le_maxWord_of_word? hstart, Tree.le_maxWord_of_word? hend⟩
  · cases h

theorem ofJson?_of_layout {r : FunctionRecord} (h : r.FitsWord) {t : Text}
    (hl : Layout r.toJson.pieces t) : ofJson? t = some r := by
  rw [ofJson?, r.toJson_readsAs.parse?_of_layout hl]
  exact ofTree?_tree h

theorem parse?_recordsJson (rs : List FunctionRecord) :
    Json.parse? (Listing.recordsJson rs) = some (.array (rs.map tree)) := by
  have hreads : List.Forall₂ Value.ReadsAs (rs.map toJson) (rs.map tree) := by
    rw [List.forall₂_map_left_iff, List.forall₂_map_right_iff, List.forall₂_same]
    exact fun r _ => r.toJson_readsAs
  rw [Listing.recordsJson, (Value.readsAs_array hreads).parse?_pretty rfl]

theorem listOfJson?_recordsJson {rs : List FunctionRecord} (h : ∀ r ∈ rs, r.FitsWord) :
    listOfJson? (Listing.recordsJson rs) = some rs := by
  rw [listOfJson?, parse?_recordsJson]
  exact mapM_map_eq_some fun r hr => ofTree?_tree (h r hr)

/-- Printed records read as the same list, a record on one line reads as itself, and so does a
record that was itself read, from whatever text. -/
theorem ofJson?_toJson {rs : List FunctionRecord} (h : ∀ r ∈ rs, r.FitsWord) :
    listOfJson? (Listing.recordsJson rs) = some rs ∧
    (∀ r ∈ rs, ofJson? r.toJson.compact = some r) ∧
    ∀ (t : Text) (r : FunctionRecord), ofJson? t = some r →
      ofJson? r.toJson.compact = some r ∧ ofJson? r.toJson.pretty = some r := by
  refine ⟨listOfJson?_recordsJson h, ?_, ?_⟩
  · intro r hr
    exact ofJson?_of_layout (h r hr) (layout_flatMap_text _)
  · intro t r ht
    obtain ⟨tree, -, htree⟩ := Option.bind_eq_some_iff.1 ht
    have hfits := fitsWord_of_ofTree? htree
    exact ⟨ofJson?_of_layout hfits (layout_flatMap_text _),
      ofJson?_of_layout hfits (layout_layOut 0 _)⟩

theorem ofJson?_toJson_escaped :
    (∀ r ∈ [(⟨"a\"\n".toList, [⟨"é".toList, [], some []⟩, ⟨[], "\t".toList, none⟩], "\\".toList, 0,
        18446744073709551615, .cpp⟩ : FunctionRecord)], r.FitsWord) ∧
      listOfJson? (Listing.recordsJson
        [⟨"a\"\n".toList, [⟨"é".toList, [], some []⟩, ⟨[], "\t".toList, none⟩], "\\".toList, 0,
          18446744073709551615, .cpp⟩]) =
        some [⟨"a\"\n".toList, [⟨"é".toList, [], some []⟩, ⟨[], "\t".toList, none⟩], "\\".toList, 0,
          18446744073709551615, .cpp⟩] ∧
      ofJson? "[\"f\", [], \"\", 1, 2, \"go\"]".toList =
        some ⟨"f".toList, [], [], 1, 2, .go⟩ ∧
      ofJson? (FunctionRecord.toJson ⟨"f".toList, [], [], 1, 2, .go⟩).compact =
        some ⟨"f".toList, [], [], 1, 2, .go⟩ := by
  have hfits : ∀ r ∈ [(⟨"a\"\n".toList, [⟨"é".toList, [], some []⟩, ⟨[], "\t".toList, none⟩],
      "\\".toList, 0, 18446744073709551615, .cpp⟩ : FunctionRecord)], r.FitsWord := by decide
  have hread : ofJson? "[\"f\", [], \"\", 1, 2, \"go\"]".toList =
      some ⟨"f".toList, [], [], 1, 2, .go⟩ := by decide +kernel
  exact ⟨hfits, (ofJson?_toJson hfits).1, hread, ((ofJson?_toJson hfits).2.2 _ _ hread).1⟩

end FunctionRecord

end SoloCall
