import SoloCall.Proofs.Json.Nesting
import SoloCall.Proofs.Outcome.LastReport
import SoloCall.Proofs.Text.Trim
import SoloCall.Proofs.Traverse

namespace SoloCall

namespace Json

variable {fields : List (Key × Tree)} {named : List (Text × Tree)} {name : Text}

def KeysRead (fields : List (Key × Tree)) (named : List (Text × Tree)) : Prop :=
  List.Forall₂ (fun f g => text? f.1 = some g.1 ∧ f.2 = g.2) fields named

def HoldsOnce (named : List (Text × Tree)) (name : Text) (tree : Tree) : Prop :=
  ∃ before after, named = before ++ (name, tree) :: after ∧ ∀ f ∈ before ++ after, f.1 ≠ name

def HoldsField (named : List (Text × Tree)) (name : Text) : Option Tree → Prop
  | some tree => HoldsOnce named name tree
  | none => ∀ f ∈ named, f.1 ≠ name

theorem field_eq_some_iff {tree? : Option Tree} :
    (match named.filter (fun f => f.1 = name) with
      | [] => some none
      | [f] => some (some f.2)
      | _ => none) = some tree? ↔ HoldsField named name tree? := by
  have hkey (f : Text × Tree) : ¬ decide (f.1 = name) = true ↔ f.1 ≠ name := by simp
  constructor
  · intro h
    split at h
    · rename_i hnone
      obtain rfl := Option.some.inj h
      intro f hf
      exact (hkey f).1 (List.filter_eq_nil_iff.1 hnone f hf)
    · rename_i f hone
      obtain rfl := Option.some.inj h
      obtain ⟨before, after, rfl, hbefore, hf, hafter⟩ := List.filter_eq_cons_iff.1 hone
      obtain rfl : f.1 = name := by simpa using hf
      refine ⟨before, after, rfl, fun g hg => ?_⟩
      rcases List.mem_append.1 hg with hg | hg
      · exact (hkey g).1 (hbefore g hg)
      · exact (hkey g).1 (List.filter_eq_nil_iff.1 hafter g hg)
    · cases h
  · intro h
    cases tree? with
    | none =>
        have hnone : named.filter (fun f => f.1 = name) = [] :=
          List.filter_eq_nil_iff.2 fun f hf => (hkey f).2 (h f hf)
        rw [hnone]
    | some tree =>
        obtain ⟨before, after, rfl, hother⟩ := h
        have hone : (before ++ (name, tree) :: after).filter (fun f => f.1 = name) =
            [(name, tree)] := by
          refine List.filter_eq_cons_iff.2 ⟨before, after, rfl, fun f hf => ?_, by simp, ?_⟩
          · exact (hkey f).2 (hother f (List.mem_append_left _ hf))
          · exact List.filter_eq_nil_iff.2 fun f hf =>
              (hkey f).2 (hother f (List.mem_append_right _ hf))
        rw [hone]

theorem keysRead_iff : KeysRead fields named ↔
    fields.mapM (fun f => (text? f.1).map fun key => (key, f.2)) = some named := by
  have hread (f : Key × Tree) (g : Text × Tree) :
      (text? f.1).map (fun key => (key, f.2)) = some g ↔ text? f.1 = some g.1 ∧ f.2 = g.2 := by
    rw [Option.map_eq_some_iff]
    constructor
    · rintro ⟨key, hkey, rfl⟩
      exact ⟨hkey, rfl⟩
    · rintro ⟨hkey, htree⟩
      exact ⟨g.1, hkey, by rw [htree]⟩
  simp only [mapM_eq_some_iff, hread, KeysRead]

theorem fields?_object_eq_some_iff {names : List Text} {trees : List (Option Tree)} :
    (Tree.object fields).fields? names = some trees ↔
      ∃ named, KeysRead fields named ∧ List.Forall₂ (HoldsField named) names trees := by
  rw [Tree.fields?, Option.bind_eq_bind, Option.bind_eq_some_iff]
  constructor
  · rintro ⟨named, hread, hfields⟩
    exact ⟨named, keysRead_iff.2 hread,
      (mapM_eq_some_iff.1 hfields).imp fun _ _ h => field_eq_some_iff.1 h⟩
  · rintro ⟨named, hread, hfields⟩
    exact ⟨named, keysRead_iff.1 hread,
      mapM_eq_some_iff.2 (hfields.imp fun _ _ h => field_eq_some_iff.2 h)⟩

end Json

namespace Outcome

open Json

variable {output line : Text} {named : List (Text × Tree)} {name : Text}

inductive Gives (named : List (Text × Tree)) (name : Text) : Option Value → Prop
  | missing (h : HoldsField named name none) : Gives named name none
  | null (h : HoldsOnce named name .null) : Gives named name none
  | value (tree : Tree) (v : Value) (h : HoldsOnce named name tree) (hne : tree ≠ .null)
      (hv : tree.value? reportDepth = some v) : Gives named name (some v)

theorem gives_iff {value? : Option Value} : Gives named name value? ↔
    ∃ tree?, HoldsField named name tree? ∧
      Tree.optional? (Tree.value? reportDepth) tree? = some value? := by
  constructor
  · intro h
    cases h with
    | missing h => exact ⟨none, h, rfl⟩
    | null h => exact ⟨some .null, h, rfl⟩
    | value tree v h hne hv =>
        refine ⟨some tree, h, ?_⟩
        rw [Tree.optional?, hv]
        · rfl
        · exact hne
  · rintro ⟨tree?, h, hvalue⟩
    rw [Tree.optional?.eq_def] at hvalue
    split at hvalue
    · obtain rfl := Option.some.inj hvalue
      exact .missing h
    · obtain rfl := Option.some.inj hvalue
      exact .null h
    · rename_i tree hne
      obtain ⟨v, hv, rfl⟩ := Option.map_eq_some_iff.1 hvalue
      exact .value tree v h (fun he => hne he) hv

/-- What a report says: whether the call succeeded, and the values of its other two fields. -/
structure Report where
  succeeded : Bool
  result? : Option Value
  error? : Option Value

/-- The line trims to an object that is this report. Its other fields do not matter, but no field
of the report may be repeated, and all keys have to be texts. -/
def Decodes (line : Text) (report : Report) : Prop :=
  Text.startsWith ['\x7b'] line.trim = true ∧
    ∃ fields named, Json.parse? line.trim = some (.object fields) ∧ KeysRead fields named ∧
      HoldsOnce named "success".toList (.bool report.succeeded) ∧
      Gives named "result".toList report.result? ∧ Gives named "error".toList report.error?

namespace Report

def told? (r : Report) : Option Value := if r.succeeded then r.result? else r.error?

def standIn (r : Report) : Text := if r.succeeded then [] else unknownError

def outcome (r : Report) : Outcome :=
  if r.succeeded then .success ((r.told?.bind valueText?).getD r.standIn)
  else .failure ((r.told?.bind valueText?).getD r.standIn)

end Report

inductive ShownAs (standIn : Text) : Option Value → Text → Prop
  | nothing : ShownAs standIn none standIn
  | string (t : Text) : ShownAs standIn (some (.string t)) t
  | json (v : Value) (hnull : v ≠ .null) (hstring : ∀ t, v ≠ .string t) :
      ShownAs standIn (some v) v.compact

theorem value?_eq_null {depth : Nat} {tree : Tree} (h : tree.value? depth = some .null) :
    tree = .null := by
  cases tree with
  | null => rfl
  | bool => simp [Tree.value?] at h
  | number n =>
      simp only [Tree.value?, NumberText.value?] at h
      split at h
      · cases h
      · split at h
        · cases h
        · simp at h
  | string => simp [Tree.value?] at h
  | array => cases depth <;> simp [Tree.value?] at h
  | object =>
      cases depth with
      | zero => cases h
      | succ depth =>
          simp only [Tree.value?, Option.bind_eq_bind, Option.bind_eq_some_iff] at h
          obtain ⟨_, _, hobject⟩ := h
          cases hobject

theorem Gives.ne_null {value? : Option Value} (h : Gives named name value?) :
    value? ≠ some .null := by
  rintro rfl
  cases h with
  | value tree v h hne hv => exact hne (value?_eq_null hv)

theorem shownAs_getD {value? : Option Value} (hne : value? ≠ some .null) (standIn : Text) :
    ShownAs standIn value? ((value?.bind valueText?).getD standIn) := by
  cases value? with
  | none => exact .nothing
  | some v =>
      cases v with
      | null => exact absurd rfl hne
      | string t => exact .string t
      | bool | int | float | array | object => exact .json _ (by simp) (by simp)

theorem ofTree?_object_eq_some_iff {fields : List (Key × Tree)} {o : Outcome} :
    ofTree? (.object fields) = some o ↔
      ∃ (report : Report) (named : List (Text × Tree)), KeysRead fields named ∧
        HoldsOnce named "success".toList (.bool report.succeeded) ∧
        Gives named "result".toList report.result? ∧ Gives named "error".toList report.error? ∧
        report.outcome = o := by
  constructor
  · intro h
    rw [ofTree?] at h
    obtain ⟨trees, hfields, h⟩ := Option.bind_eq_some_iff.1 h
    split at h
    · rename_i succeeded result? error?
      obtain ⟨named, hread, hheld⟩ := fields?_object_eq_some_iff.1 hfields
      rcases hheld with _ | ⟨hsuccess, _ | ⟨hresult, _ | ⟨herror, -⟩⟩⟩
      obtain ⟨value?, hvalue, h⟩ := Option.bind_eq_some_iff.1 h
      obtain ⟨told?, htold, h⟩ := Option.bind_eq_some_iff.1 h
      refine ⟨⟨succeeded, value?, told?⟩, named, hread, hsuccess,
        gives_iff.2 ⟨result?, hresult, hvalue⟩, gives_iff.2 ⟨error?, herror, htold⟩, ?_⟩
      cases succeeded <;> exact Option.some.inj h
    · cases h
  · rintro ⟨⟨succeeded, value?, told?⟩, named, hread, hsuccess, hresult, herror, rfl⟩
    obtain ⟨result?, hresult, hvalue⟩ := gives_iff.1 hresult
    obtain ⟨error?, herror, htold⟩ := gives_iff.1 herror
    have hfields : (Tree.object fields).fields?
        ["success".toList, "result".toList, "error".toList] =
        some [some (.bool succeeded), result?, error?] :=
      fields?_object_eq_some_iff.2 ⟨named, hread, .cons hsuccess (.cons hresult (.cons herror .nil))⟩
    rw [ofTree?, hfields]
    simp only [Option.bind_eq_bind, Option.bind_some, hvalue, htold]
    cases succeeded <;> rfl

theorem ofLine?_eq_some_iff {o : Outcome} :
    ofLine? line = some o ↔ ∃ report, Decodes line report ∧ report.outcome = o := by
  constructor
  · intro h
    rw [ofLine?] at h
    split at h
    · rename_i hstart
      obtain ⟨tree, hparse, htree⟩ := Option.bind_eq_some_iff.1 h
      obtain ⟨rest, hrest⟩ := Option.isSome_iff_exists.1 hstart
      have hline : line.trim = '\x7b' :: rest := Text.after?_eq_some_iff.1 hrest
      obtain ⟨fields, rfl⟩ := exists_object_of_parse? (hline ▸ hparse)
      obtain ⟨report, named, hread, hsuccess, hresult, herror, ho⟩ :=
        ofTree?_object_eq_some_iff.1 htree
      exact ⟨report, ⟨hstart, fields, named, hparse, hread, hsuccess, hresult, herror⟩, ho⟩
    · cases h
  · rintro ⟨report, ⟨hstart, fields, named, hparse, hread, hsuccess, hresult, herror⟩, ho⟩
    rw [ofLine?, if_pos hstart, hparse]
    exact ofTree?_object_eq_some_iff.2 ⟨report, named, hread, hsuccess, hresult, herror, ho⟩

theorem Decodes.ofLine?_eq {report : Report} (h : Decodes line report) :
    ofLine? line = some report.outcome :=
  ofLine?_eq_some_iff.2 ⟨report, h, rfl⟩

theorem ofLine?_eq_none_iff : ofLine? line = none ↔ ∀ report, ¬ Decodes line report := by
  rw [Option.eq_none_iff_forall_ne_some]
  constructor
  · intro h report hreport
    exact h _ hreport.ofLine?_eq
  · intro h o ho
    obtain ⟨report, hreport, -⟩ := ofLine?_eq_some_iff.1 ho
    exact h report hreport

theorem Decodes.told?_ne_null {report : Report} (h : Decodes line report) :
    report.told? ≠ some .null := by
  obtain ⟨-, fields, named, -, -, -, hresult, herror⟩ := h
  rw [Report.told?]
  split
  · exact hresult.ne_null
  · exact herror.ne_null

/-- The line is this report, and no line behind it is any. -/
def Decides (output line : Text) (report : Report) : Prop :=
  ∃ before after, output.split '\n' = before ++ line :: after ∧ Decodes line report ∧
    ∀ later ∈ after, ∀ report, ¬ Decodes later report

theorem Decides.decodes {report : Report} (h : Decides output line report) :
    Decodes line report := by
  obtain ⟨-, -, -, hreport, -⟩ := h
  exact hreport

theorem Decides.ofOutput_eq {report : Report} (h : Decides output line report) :
    ofOutput output = report.outcome := by
  obtain ⟨before, after, hlines, hreport, hafter⟩ := h
  have hnone : after.reverse.findSome? ofLine? = none := by
    rw [List.findSome?_eq_none_iff]
    intro later hl
    exact ofLine?_eq_none_iff.2 (hafter later (List.mem_reverse.1 hl))
  have hfind : (output.split '\n').reverse.findSome? ofLine? = some report.outcome := by
    rw [hlines, List.reverse_append, List.reverse_cons, List.append_assoc, List.findSome?_append,
      hnone]
    simp [hreport.ofLine?_eq]
  rw [ofOutput, hfind]

theorem Report.isSuccess_outcome (r : Report) : r.outcome.isSuccess = r.succeeded := by
  rw [outcome]
  cases r.succeeded <;> rfl

theorem Report.text_outcome (r : Report) :
    r.outcome.text = (r.told?.bind valueText?).getD r.standIn := by
  rw [outcome]
  split <;> rfl

theorem decides_or_none (output : Text) : (∃ line report, Decides output line report) ∨
    (output.split '\n').reverse.findSome? ofLine? = none := by
  cases hfind : (output.split '\n').reverse.findSome? ofLine? with
  | none => exact Or.inr rfl
  | some o =>
      left
      obtain ⟨after, line, before, hlines, hline, hafter⟩ := List.findSome?_eq_some_iff.1 hfind
      obtain ⟨report, hreport, -⟩ := ofLine?_eq_some_iff.1 hline
      refine ⟨line, report, before.reverse, after.reverse, ?_, hreport, fun later hl => ?_⟩
      · simpa using congrArg List.reverse hlines
      · exact ofLine?_eq_none_iff.1 (hafter later (List.mem_reverse.1 hl))

/-- The last line that is a report decides alone: whether there is a success, and by what text. If
no line is one, there is a failure that tells the whole output. -/
theorem ofOutput_decided (output : Text) :
    (∀ line report, Decides output line report →
      (ofOutput output).isSuccess = report.succeeded ∧
      ShownAs report.standIn report.told? (ofOutput output).text ∧
      ∀ other report, Decides other line report → ofOutput other = ofOutput output) ∧
    ((∃ line report, Decides output line report) ∨
      (∀ line ∈ output.split '\n', ∀ report, ¬ Decodes line report) ∧
        ofOutput output = .failure (if output.allBlank then unreadable else output.trim)) := by
  constructor
  · intro line report h
    have hline : Decodes line report := h.decodes
    rw [h.ofOutput_eq, Report.isSuccess_outcome, Report.text_outcome]
    refine ⟨rfl, shownAs_getD hline.told?_ne_null report.standIn, fun other report' h' => ?_⟩
    rw [h'.ofOutput_eq]
    exact Option.some.inj (h'.decodes.ofLine?_eq.symm.trans hline.ofLine?_eq)
  · rcases decides_or_none output with h | hnone
    · exact Or.inl h
    · right
      constructor
      · intro line hl
        exact ofLine?_eq_none_iff.1 (List.findSome?_eq_none_iff.1 hnone line (List.mem_reverse.2 hl))
      · rw [ofOutput, hnone]
        simp only [List.isEmpty_iff, Text.trim_eq_nil_iff]
        split <;> rfl

def noisyOutput : Text :=
  ("\x7b\"success\": true, \"result\": \"old\"\x7d\nstep 1 \x7b\n" ++
    "\u00a0\x7b\"n\": [1], \"success\": false, \"error\": \x7b\"b\": 7\x7d\x7d\r\n" ++
    "\x7b\"success\": true, \"success\": true\x7d\n").toList

def noisyLine : Text :=
  "\u00a0\x7b\"n\": [1], \"success\": false, \"error\": \x7b\"b\": 7\x7d\x7d\r".toList

def noisyReport : Report := ⟨false, none, some (.object [("b".toList, .int 7)])⟩

theorem decodes_noisyLine : Decodes noisyLine noisyReport := by
  let one : Tree := .number ⟨.false, ['1'], none, none⟩
  let seven : Tree := .object [(units "b".toList, .number ⟨.false, ['7'], none, none⟩)]
  have hlex : Json.lex? noisyLine.trim = some [.objectStart, .string (units "n".toList), .colon,
      .arrayStart, .number ⟨.false, ['1'], none, none⟩, .arrayEnd, .comma,
      .string (units "success".toList), .colon, .false, .comma, .string (units "error".toList),
      .colon, .objectStart, .string (units "b".toList), .colon,
      .number ⟨.false, ['7'], none, none⟩, .objectEnd, .objectEnd] := by decide +kernel
  have hparse : Json.parse? noisyLine.trim = some (.object [(units "n".toList, .array [one]),
      (units "success".toList, .bool false), (units "error".toList, seven)]) := by
    rw [Json.parse?, hlex]
    rfl
  refine ⟨by rfl, _, [("n".toList, .array [one]), ("success".toList, .bool false),
    ("error".toList, seven)], hparse, ?_, ?_, ?_, ?_⟩
  · exact .cons ⟨rfl, rfl⟩ (.cons ⟨rfl, rfl⟩ (.cons ⟨rfl, rfl⟩ .nil))
  · exact ⟨[("n".toList, .array [one])], [("error".toList, seven)], rfl, by simp⟩
  · exact .missing (by simp [HoldsField])
  · refine .value seven _ ⟨[("n".toList, .array [one]), ("success".toList, .bool false)], [], rfl,
      by simp⟩ (by simp [seven]) ?_
    rfl

theorem ofOutput_decided_amongNoise : Decides noisyOutput noisyLine noisyReport ∧
    (ofOutput noisyOutput).isSuccess = false ∧
    ShownAs noisyReport.standIn noisyReport.told? (ofOutput noisyOutput).text := by
  have hdecides : Decides noisyOutput noisyLine noisyReport := by
    refine ⟨["\x7b\"success\": true, \"result\": \"old\"\x7d".toList, "step 1 \x7b".toList],
      ["\x7b\"success\": true, \"success\": true\x7d".toList, []], by decide +kernel,
      decodes_noisyLine, ?_⟩
    intro later hl
    have hnone : ∀ later ∈ ["\x7b\"success\": true, \"success\": true\x7d".toList, []],
        ofLine? later = none := by decide +kernel
    exact ofLine?_eq_none_iff.1 (hnone later hl)
  obtain ⟨hsuccess, htext, -⟩ := (ofOutput_decided noisyOutput).1 noisyLine noisyReport hdecides
  exact ⟨hdecides, hsuccess, htext⟩

end Outcome

end SoloCall
