import SoloCall.Listing
import SoloCall.Proofs.Json.Token
import SoloCall.Proofs.Text.Trim

namespace SoloCall

theorem Text.exists_split_lines (sep : Char) (lines : List Text) (r : Text) :
    ∃ front, split sep ((lines.flatMap fun line => line ++ [sep]) ++ r) = front ++ split sep r := by
  induction lines with
  | nil => exact ⟨[], rfl⟩
  | cons line lines ih =>
      obtain ⟨front, hf⟩ := ih
      refine ⟨split sep line ++ front, ?_⟩
      rw [List.flatMap_cons, List.append_assoc, List.append_assoc, List.singleton_append,
        split_append_cons, hf, List.append_assoc]

namespace Outcome

open Json

def field : Outcome → Text
  | success _ => "result".toList
  | failure _ => "error".toList

def tokens (o : Outcome) : List Token :=
  [.objectStart, .string (units "success".toList), .colon,
    if o.isSuccess then .true else .false, .comma,
    .string (units o.field), .colon, .string (units o.text), .objectEnd]

def tree (o : Outcome) : Tree :=
  .object [(units "success".toList, .bool o.isSuccess), (units o.field, .string (units o.text))]

theorem compact_toJson (o : Outcome) :
    o.toJson.compact = '\x7b' :: (quote "success".toList ++
      ':' :: ((if o.isSuccess then "true".toList else "false".toList) ++
        ',' :: (quote o.field ++ ':' :: (quote o.text ++ ['\x7d'])))) := by
  cases o <;> rfl

theorem lex?_compact_toJson (o : Outcome) : lex? o.toJson.compact = some o.tokens := by
  have hbool (r : Text) : lex? ((if o.isSuccess then "true".toList else "false".toList) ++ r) =
      (lex? r).map ((if o.isSuccess then Token.true else Token.false) :: ·) := by
    cases o.isSuccess
    · exact lex?_word 'f' "alse".toList .false rfl (fun _ => rfl) r
    · exact lex?_word 't' "rue".toList .true rfl (fun _ => rfl) r
  have hnil : lex? [] = some [] := by rw [lex?]
  rw [compact_toJson, lex?_mark _ .objectStart rfl fun _ => rfl, lex?_quote,
    lex?_mark _ .colon rfl fun _ => rfl, hbool, lex?_mark _ .comma rfl fun _ => rfl, lex?_quote,
    lex?_mark _ .colon rfl fun _ => rfl, lex?_quote, lex?_mark _ .objectEnd rfl fun _ => rfl, hnil]
  rfl

theorem parse?_compact_toJson (o : Outcome) : Json.parse? o.toJson.compact = some o.tree := by
  rw [Json.parse?, lex?_compact_toJson]
  cases o <;> rfl

theorem optional?_string (t : Text) :
    Tree.optional? (Tree.value? reportDepth) (some (.string (units t))) =
      some (some (.string t)) := by
  show ((Json.text? (units t)).map Value.string).map some = _
  rw [text?_units]
  rfl

theorem ofTree?_tree (o : Outcome) : ofTree? o.tree = some o := by
  cases o with
  | success result =>
      have hfields : (success result).tree.fields?
          ["success".toList, "result".toList, "error".toList] =
          some [some (.bool true), some (.string (units result)), none] := rfl
      rw [ofTree?, hfields]
      simp only [Option.bind_eq_bind, Option.bind_some, optional?_string]
      rfl
  | failure error =>
      have hfields : (failure error).tree.fields?
          ["success".toList, "result".toList, "error".toList] =
          some [some (.bool false), none, some (.string (units error))] := rfl
      rw [ofTree?, hfields]
      simp only [Option.bind_eq_bind, Option.bind_some, optional?_string]
      rfl

/-- A report is an object from its first character to its last, and on one line. -/
theorem exists_compact_toJson (o : Outcome) :
    ∃ inner, '\n' ∉ inner ∧ o.toJson.compact = '\x7b' :: (inner ++ ['\x7d']) := by
  have hbool : '\n' ∉ if o.isSuccess then "true".toList else "false".toList := by
    split <;> decide
  refine ⟨quote "success".toList ++
    ':' :: ((if o.isSuccess then "true".toList else "false".toList) ++
      ',' :: (quote o.field ++ ':' :: quote o.text)), ?_, ?_⟩
  · simp only [List.mem_append, List.mem_cons, not_or]
    exact ⟨not_mem_quote _, by decide, hbool, by decide, not_mem_quote _, by decide,
      not_mem_quote _⟩
  · simp only [compact_toJson, List.append_assoc, List.cons_append]

theorem ofLine?_compact_toJson (o : Outcome) : ofLine? o.toJson.compact = some o := by
  obtain ⟨inner, -, hc⟩ := exists_compact_toJson o
  have htrim : o.toJson.compact.trim = o.toJson.compact := by
    rw [hc]
    exact Text.trim_enclosed rfl rfl inner
  have hstart : Text.startsWith ['\x7b'] o.toJson.compact = true := by
    rw [hc]
    rfl
  rw [ofLine?, htrim, if_pos hstart, parse?_compact_toJson]
  exact ofTree?_tree o

/-- What is printed of an outcome is one line, and at the end of any lines it gives the outcome
back. -/
theorem ofOutput_outcomeJson (o : Outcome) :
    (∃ line, '\n' ∉ line ∧ Listing.outcomeJson o = line ++ ['\n']) ∧
    ∀ earlier : List Text,
      ofOutput ((earlier.flatMap fun line => line ++ ['\n']) ++ Listing.outcomeJson o) = o := by
  obtain ⟨inner, hinner, hc⟩ := exists_compact_toJson o
  have hbreak : '\n' ∉ o.toJson.compact := by
    rw [hc]
    simpa using hinner
  refine ⟨⟨o.toJson.compact, hbreak, rfl⟩, ?_⟩
  intro earlier
  obtain ⟨front, hf⟩ := Text.exists_split_lines '\n' earlier (Listing.outcomeJson o)
  have hlast : Text.split '\n' (Listing.outcomeJson o) = [o.toJson.compact, []] :=
    Text.split_append_sep hbreak []
  have hempty : ofLine? [] = none := rfl
  have hfind : (front ++ [o.toJson.compact, []]).reverse.findSome? ofLine? = some o := by
    simp [hempty, ofLine?_compact_toJson]
  rw [ofOutput, hf, hlast, hfind]

end Outcome

end SoloCall
