import SoloCall.Proofs.Record.RoundTrip
import SoloCall.Proofs.Record.Signature

namespace SoloCall

namespace Listing

variable {r : FunctionRecord} {rs : List FunctionRecord} {s : Style} {t u : Text} {c : Char}

structure Entry where
  lineStart : Nat
  lineEnd : Nat
  signature : Text
  deriving DecidableEq, Repr

def entry (r : FunctionRecord) : Entry := ⟨r.lineStart, r.lineEnd, r.signature⟩

def plainLine (r : FunctionRecord) : Text := padLeft 9 (lineRange r) ++ ' ' :: ' ' :: r.signature

theorem records_plain (rs : List FunctionRecord) :
    records false rs = (rs.map plainLine).flatMap fun line => line ++ ['\n'] := by
  rw [List.flatMap_map, records]
  congr 1
  funext r
  simp [recordLine, plainLine]

theorem not_mem_range (hdigit : c.isDigit = false) (hspace : c ≠ ' ') (hdash : c ≠ '-')
    (r : FunctionRecord) : c ∉ padLeft 9 (lineRange r) := by
  have hdecimal (n : Nat) : c ∉ decimal n := by
    intro hmem
    rw [isDigit_of_mem_decimal hmem] at hdigit
    cases hdigit
  simp [padLeft, lineRange, hdecimal, hspace, hdash]

namespace Entry

def ofLine? (line : Text) : Option Entry :=
  let range := line.dropWhile (· = ' ')
  match range.dropWhile isDigit with
  | '-' :: r =>
    match r.dropWhile isDigit with
    | ' ' :: ' ' :: signature =>
      some ⟨ofDigits (range.takeWhile isDigit), ofDigits (r.takeWhile isDigit), signature⟩
    | _ => none
  | _ => none

def ofListing? (t : Text) : Option (List Entry) := (Text.split '\n' t).dropLast.mapM ofLine?

theorem decimal_append (n : Nat) {r : Text} (hr : ∀ c, r.head? = some c → isDigit c = false) :
    (decimal n ++ r).takeWhile isDigit = decimal n ∧ (decimal n ++ r).dropWhile isDigit = r :=
  Text.takeWhile_dropWhile_append (fun _ hc => isDigit_of_mem_decimal hc) hr

theorem ofLine?_plainLine (r : FunctionRecord) : ofLine? (plainLine r) = some (entry r) := by
  let behindEnd : Text := ' ' :: ' ' :: r.signature
  let behindStart : Text := '-' :: (decimal r.lineEnd ++ behindEnd)
  have hline : plainLine r = List.replicate (9 - (lineRange r).length) ' ' ++
      (decimal r.lineStart ++ behindStart) := by
    simp [plainLine, padLeft, lineRange, behindStart, behindEnd]
  have hpadding : (plainLine r).dropWhile (· = ' ') = decimal r.lineStart ++ behindStart := by
    rw [hline]
    refine (Text.takeWhile_dropWhile_append (by simp) ?_).2
    intro c hc
    have hdigit : c.isDigit = true := by
      rw [List.head?_append_of_ne_nil _ (decimal_ne_nil _)] at hc
      exact isDigit_of_mem_decimal (List.mem_of_head? hc)
    have hne : c ≠ ' ' := by
      rintro rfl
      cases hdigit
    simpa using hne
  obtain ⟨hstart, hbehindStart⟩ := decimal_append r.lineStart (r := behindStart) (by
    rintro _ ⟨⟩
    rfl)
  obtain ⟨hend, hbehindEnd⟩ := decimal_append r.lineEnd (r := behindEnd) (by
    rintro _ ⟨⟩
    rfl)
  simp only [ofLine?, hpadding, hstart, hbehindStart, behindStart, hend, hbehindEnd, behindEnd,
    ofDigits_decimal]
  rfl

end Entry

def behindStyle? : Text → Option Text
  | '\x1b' :: '[' :: r =>
    match r.dropWhile fun c => isDigit c || c = ';' with
    | 'm' :: r => some r
    | _ => none
  | _ => none

theorem behindStyle?_length (h : behindStyle? t = some u) : u.length < t.length := by
  rw [behindStyle?.eq_def] at h
  split at h
  · rename_i r
    split at h
    · rename_i rest hdrop
      obtain rfl := Option.some.inj h
      have hsuffix := (List.dropWhile_suffix (l := r) fun c => isDigit c || c = ';').length_le
      rw [hdrop] at hsuffix
      simp only [List.length_cons] at hsuffix ⊢
      omega
    · cases h
  · cases h

theorem behindStyle?_of_ne (hc : c ≠ '\x1b') (t : Text) : behindStyle? (c :: t) = none := by
  rw [behindStyle?]
  rintro r hr
  exact hc (List.cons.inj hr).1

/-- A text without its colour escape sequences. -/
def withoutStyles : Text → Text
  | [] => []
  | c :: t =>
    match _hstyle : behindStyle? (c :: t) with
    | some r => withoutStyles r
    | none => c :: withoutStyles t
termination_by t => t.length
decreasing_by
  · exact behindStyle?_length ‹_›
  · exact Nat.lt_succ_self _

theorem withoutStyles_of_behindStyle? (h : behindStyle? t = some u) :
    withoutStyles t = withoutStyles u := by
  cases t with
  | nil => cases h
  | cons c t =>
      rw [withoutStyles]
      split
      · rename_i r hr
        obtain rfl := Option.some.inj (hr.symm.trans h)
        rfl
      · rename_i hnone
        rw [hnone] at h
        cases h

theorem withoutStyles_append (ht : '\x1b' ∉ t) (u : Text) :
    withoutStyles (t ++ u) = t ++ withoutStyles u := by
  induction t with
  | nil => rfl
  | cons c t ih =>
      obtain ⟨hc, ht⟩ : '\x1b' ≠ c ∧ '\x1b' ∉ t := by simpa using ht
      rw [List.cons_append, withoutStyles]
      split
      · rename_i r hr
        rw [behindStyle?_of_ne hc.symm] at hr
        cases hr
      · rw [ih ht, List.cons_append]

def Style.IsEscape (s : Style) : Prop :=
  ∀ t, behindStyle? (s.opening ++ t) = some t ∧ behindStyle? (s.closing ++ t) = some t

theorem isEscape_dim : dim.IsEscape := fun _ => ⟨rfl, rfl⟩

theorem isEscape_cyan : cyan.IsEscape := fun _ => ⟨rfl, rfl⟩

theorem withoutStyles_paint (hs : s.IsEscape) (ht : '\x1b' ∉ t) (u : Text) :
    withoutStyles (s.paint t ++ u) = t ++ withoutStyles u := by
  rw [Style.paint, List.append_assoc, List.append_assoc, withoutStyles_of_behindStyle? (hs _).1,
    withoutStyles_append ht, withoutStyles_of_behindStyle? (hs u).2]

theorem withoutStyles_recordLine (h : '\x1b' ∉ r.signature) (u : Text) :
    withoutStyles (recordLine true r ++ u) = recordLine false r ++ withoutStyles u := by
  have hrange := not_mem_range (c := '\x1b') rfl (by decide) (by decide) r
  have hcoloured : recordLine true r ++ u = dim.paint (padLeft 9 (lineRange r)) ++
      ([' ', ' '] ++ (cyan.paint r.signature ++ (['\n'] ++ u))) := by
    simp [recordLine]
  rw [hcoloured, withoutStyles_paint isEscape_dim hrange, withoutStyles_append (by decide),
    withoutStyles_paint isEscape_cyan h, withoutStyles_append (by decide)]
  simp [recordLine]

theorem withoutStyles_records (h : ∀ r ∈ rs, '\x1b' ∉ r.signature) :
    withoutStyles (records true rs) = records false rs := by
  induction rs with
  | nil => rw [records, List.flatMap_nil, withoutStyles]; rfl
  | cons r rs ih =>
      obtain ⟨hr, hrs⟩ := List.forall_mem_cons.1 h
      have hrest := ih hrs
      simp only [records, List.flatMap_cons] at hrest ⊢
      rw [withoutStyles_recordLine hr, hrest]

open Json

def whole? : Tree → Option Nat
  | .number ⟨.false, digits, none, none⟩ => some (ofDigits digits)
  | _ => none

def name? (tree : Tree) : Option Text := do
  let [some name] ← tree.fields? ["name".toList] | none
  name.text?

/-- What an object of the JSON listing tells: its lines, and its name with those of its
parameters. -/
def Entry.ofTree? (tree : Tree) : Option Entry := do
  let [some name, some parameters, some lineStart, some lineEnd] ←
    tree.fields? ["name".toList, "parameters".toList, "lineStart".toList, "lineEnd".toList] | none
  let names ← (← parameters.items?).mapM name?
  return {
    lineStart := ← whole? lineStart
    lineEnd := ← whole? lineEnd
    signature := (← name.text?) ++ '(' :: Text.join [',', ' '] names ++ [')'] }

def Entry.ofJson? (t : Text) : Option (List Entry) := do
  (← (← Json.parse? t).items?).mapM Entry.ofTree?

theorem name?_tree (p : Parameter) : name? p.tree = some p.name := by
  obtain ⟨name, type, default?⟩ := p
  have hfields : (Parameter.tree ⟨name, type, default?⟩).fields? ["name".toList] =
      some [some (.ofText name)] := by
    cases default? <;> rfl
  rw [name?, hfields]
  exact Tree.text?_ofText name

theorem whole?_ofNat (n : Nat) : whole? (.ofNat n) = some n := congrArg some (ofDigits_decimal n)

theorem Entry.ofTree?_tree (r : FunctionRecord) : Entry.ofTree? r.tree = some (entry r) := by
  have hfields : r.tree.fields?
      ["name".toList, "parameters".toList, "lineStart".toList, "lineEnd".toList] =
      some [some (.ofText r.name), some (.array (r.parameters.map Parameter.tree)),
        some (.ofNat r.lineStart), some (.ofNat r.lineEnd)] := rfl
  have hnames : (r.parameters.map Parameter.tree).mapM name? =
      some (r.parameters.map Parameter.name) := mapM_map_eq_map fun p _ => name?_tree p
  rw [Entry.ofTree?, hfields]
  simp [Tree.items?, hnames, whole?_ofNat, entry, FunctionRecord.signature]

theorem Entry.ofJson?_recordsJson (rs : List FunctionRecord) :
    Entry.ofJson? (recordsJson rs) = some (rs.map entry) := by
  rw [Entry.ofJson?, FunctionRecord.parse?_recordsJson]
  exact mapM_map_eq_map fun r _ => Entry.ofTree?_tree r

theorem split_records_plain (h : ∀ r ∈ rs, '\n' ∉ r.signature) :
    Text.split '\n' (records false rs) = rs.map plainLine ++ [[]] := by
  rw [records_plain]
  apply Text.split_lines
  intro line hline
  obtain ⟨r, hr, rfl⟩ := List.mem_map.1 hline
  have hrange := not_mem_range (c := '\n') rfl (by decide) (by decide) r
  simp [plainLine, hrange, h r hr]

theorem Entry.ofListing?_records (h : ∀ r ∈ rs, '\n' ∉ r.signature) :
    Entry.ofListing? (records false rs) = some (rs.map entry) := by
  rw [Entry.ofListing?, split_records_plain h, List.dropLast_concat]
  exact mapM_map_eq_map fun r _ => Entry.ofLine?_plainLine r

/-- The plain listing of a source has one line for each record, which tells its lines and signature
and reads back as these. Without its escape sequences the coloured listing is the plain one, and the
JSON listing tells the same entries, or the records themselves where sixty-four bits count the
lines of the source. -/
theorem records_agree (language : Language) (source : Text) :
    let rs := FunctionRecord.extract language source
    Text.split '\n' (records false rs) = rs.map plainLine ++ [[]] ∧
    (∀ r ∈ rs, Entry.ofLine? (plainLine r) = some (entry r)) ∧
    ((∀ r ∈ rs, '\x1b' ∉ r.signature) → withoutStyles (records true rs) = records false rs) ∧
    Entry.ofListing? (records false rs) = some (rs.map entry) ∧
    Entry.ofJson? (recordsJson rs) = some (rs.map entry) ∧
    ((source.split '\n').length ≤ maxWord →
      FunctionRecord.listOfJson? (recordsJson rs) = some rs) := by
  intro rs
  have hlines : ∀ r ∈ rs, '\n' ∉ r.signature :=
    fun r hr => FunctionRecord.lineFeed_notMem_signature hr
  refine ⟨split_records_plain hlines, fun r _ => Entry.ofLine?_plainLine r, withoutStyles_records,
    Entry.ofListing?_records hlines, Entry.ofJson?_recordsJson rs, fun hcount => ?_⟩
  have hscan := FunctionRecord.scanned_scan language 1 (source.split '\n')
  apply FunctionRecord.listOfJson?_recordsJson
  intro r hr
  have hstart := hscan.lineStart_le_lineEnd r hr
  have hend := hscan.lineEnd_lt r hr
  rw [FunctionRecord.FitsWord]
  omega

def arrowSource : Text := "\nconst sum = (a, b\t= 1, été?) =>\n  a + b;\n".toList

theorem records_agree_arrow :
    let rs := FunctionRecord.extract .javascript arrowSource
    (∀ r ∈ rs, '\x1b' ∉ r.signature) ∧ (arrowSource.split '\n').length ≤ maxWord ∧
      records false rs = "      2-2  sum(a, b, été)\n".toList ∧
      withoutStyles (records true rs) = records false rs ∧
      FunctionRecord.listOfJson? (recordsJson rs) = some rs := by
  intro rs
  obtain ⟨-, -, hcoloured, -, -, hjson⟩ := records_agree .javascript arrowSource
  have hescape : ∀ r ∈ rs, '\x1b' ∉ r.signature := by decide
  have hcount : (arrowSource.split '\n').length ≤ maxWord := by decide
  have hplain : records false rs = "      2-2  sum(a, b, été)\n".toList := by decide
  exact ⟨hescape, hcount, hplain, hcoloured hescape, hjson hcount⟩

end Listing

end SoloCall
