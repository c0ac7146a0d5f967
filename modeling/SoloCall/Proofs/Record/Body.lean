import SoloCall.Proofs.Record.Likeness
import SoloCall.Proofs.Text.Split

namespace SoloCall

namespace FunctionRecord

variable {language : Language} {source source' : Text}

/-- Two lines that are alike within the body of a record: they hold as many braces of either kind,
or are both blank, or both deeper than the header. -/
def Alike (r : FunctionRecord) (line line' : Text) : Prop :=
  if r.language.usesBraces then line'.count '{' = line.count '{' ∧ line'.count '}' = line.count '}'
  else line.allBlank = true ∧ line'.allBlank = true ∨
    line.allBlank = false ∧ line'.allBlank = false ∧
      r.headerLine.indent < line.indent ∧ r.headerLine.indent < line'.indent

instance (r : FunctionRecord) (number : Nat) : Decidable (r.Inner number) :=
  inferInstanceAs (Decidable (_ ∧ _))

instance (r : FunctionRecord) (line line' : Text) : Decidable (r.Alike line line') :=
  inferInstanceAs (Decidable (ite _ _ _))

theorem Alike.countsAs {r : FunctionRecord} {line line' : Text} (h : r.Alike line line') :
    CountsAs r.language 0 r.headerLine.indent line line' := by
  cases hb : r.language.usesBraces with
  | true => simpa only [Alike, CountsAs, hb, if_pos] using h
  | false =>
      simp only [Alike, hb, Bool.false_eq_true, if_false] at h
      simp only [CountsAs, hb, Bool.false_eq_true, if_false]
      rcases h with ⟨hl, hl'⟩ | ⟨hl, hl', hi, hi'⟩
      · simp [layer, isDeeper, hl, hl']
      · simp [layer, isDeeper, hl, hl', hi, hi']

/-- The second source differs from the first at most in the bodies of its records, and there in
lines that are alike. -/
structure BodyEdit (language : Language) (source source' : Text) : Prop where
  length_eq : (source'.split '\n').length = (source.split '\n').length
  outside : ∀ i, (∀ r ∈ extract language source, ¬ r.Inner (i + 1)) →
    (source'.split '\n')[i]? = (source.split '\n')[i]?
  inside : ∀ r ∈ extract language source, ∀ i, r.Inner (i + 1) →
    ∀ line ∈ (source.split '\n')[i]?, ∀ line' ∈ (source'.split '\n')[i]?, r.Alike line line'

theorem BodyEdit.likewise (h : BodyEdit language source source') : Likewise language 0 1
    (extract language source) (source.split '\n') (source'.split '\n') where
  length_eq := h.length_eq
  line := by
    intro i line line' hl hl'
    by_cases hinner : ∃ r ∈ extract language source, r.Inner (i + 1)
    · obtain ⟨r, hr, hi⟩ := hinner
      have hlang : r.language = language := language_scan language _ r hr
      have hcounts := (h.inside r hr i hi line hl line' hl').countsAs
      rw [hlang] at hcounts
      exact Or.inr ⟨r, hr, by rwa [Nat.add_comm], hcounts⟩
    · have hsame := h.outside i fun r hr hi => hinner ⟨r, hr, hi⟩
      obtain rfl : line' = line := Option.some.inj (hl'.symm.trans (hsame.trans hl))
      exact Or.inl (.refl language line')

theorem bodyEdit_iff : BodyEdit language source source' ↔
    (source'.split '\n').length = (source.split '\n').length ∧
    (∀ i < (source.split '\n').length, (∀ r ∈ extract language source, ¬ r.Inner (i + 1)) →
      (source'.split '\n')[i]? = (source.split '\n')[i]?) ∧
    ∀ r ∈ extract language source, ∀ i < r.lineEnd, r.Inner (i + 1) →
      ∀ line ∈ (source.split '\n')[i]?, ∀ line' ∈ (source'.split '\n')[i]?,
        r.Alike line line' := by
  constructor
  · intro h
    exact ⟨h.length_eq, fun i _ => h.outside i, fun r hr i _ => h.inside r hr i⟩
  · rintro ⟨hlength, houtside, hinside⟩
    refine ⟨hlength, fun i hi => ?_, fun r hr i hi => hinside r hr i hi.2 hi⟩
    rcases Nat.lt_or_ge i (source.split '\n').length with hlt | hge
    · exact houtside i hlt hi
    · rw [List.getElem?_eq_none hge, List.getElem?_eq_none (hlength ▸ hge)]

instance : Decidable (BodyEdit language source source') := decidable_of_iff _ bodyEdit_iff.symm

/-- Bodies rewritten in alike lines leave the name, the parameters and the place of every record,
even if the new lines look like headers. -/
theorem outline_extract_of_bodyEdit (h : BodyEdit language source source') :
    (extract language source').map outline = (extract language source).map outline := by
  have hscan : Scanned language 1 (source.split '\n') (extract language source) :=
    scanned_scan language 1 _
  have hstep := hscan.inStep (fun _ => Text.not_mem_of_mem_split) h.likewise
  exact hstep.outline_eq 1

def plainBody : Text := "int f(int a)\n\x7b\n  return a;\n\x7d\nint b;".toList

def headerBody : Text := "int f(int a)\n\x7b\nvoid g(int b)\n  \x7d // f()\nint b;".toList

def plainSuite : Text := "class K:\n  def f(a):\n    b = a\n\n    return b\n".toList

def headerSuite : Text := "class K:\n  def f(a):\n   def g(b):\n \t\n    return g\n".toList

theorem outline_extract_headerBody :
    (BodyEdit .c plainBody headerBody ∧
      (extract .c headerBody).map outline = (extract .c plainBody).map outline) ∧
    BodyEdit .python plainSuite headerSuite ∧
      (extract .python headerSuite).map outline = (extract .python plainSuite).map outline := by
  have hbraces : BodyEdit .c plainBody headerBody := by decide
  have hsuite : BodyEdit .python plainSuite headerSuite := by decide
  exact ⟨⟨hbraces, outline_extract_of_bodyEdit hbraces⟩, hsuite, outline_extract_of_bodyEdit hsuite⟩

end FunctionRecord

end SoloCall
