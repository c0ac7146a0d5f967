import SoloCall.Config
import SoloCall.Proofs.Text.LineEnding
import SoloCall.Proofs.Text.Trim

namespace SoloCall.Config

variable {pairs more : List (Text × Text)} {lines lines' : List Text} {line k v w : Text}

def IsLast (pairs : List (Text × Text)) (k v : Text) : Prop :=
  ∃ before after, pairs = before ++ (k, v) :: after ∧ ∀ p ∈ after, p.1 ≠ k

def last? (pairs : List (Text × Text)) (k : Text) : Option Text := pairs.reverse.lookup k

theorem last?_append (pairs more : List (Text × Text)) (k : Text) :
    last? (pairs ++ more) k = (last? more k).or (last? pairs k) := by
  rw [last?, List.reverse_append, List.lookup_append]
  rfl

theorem last?_eq_some_iff : last? pairs k = some v ↔ IsLast pairs k v := by
  rw [last?, List.lookup_eq_some_iff]
  constructor
  · rintro ⟨after, before, hpairs, hafter⟩
    refine ⟨before.reverse, after.reverse, by simpa using congrArg List.reverse hpairs, ?_⟩
    intro p hp
    have hne := hafter p (List.mem_reverse.1 hp)
    exact Ne.symm (by simpa using hne)
  · rintro ⟨before, after, rfl, hafter⟩
    refine ⟨after.reverse, before.reverse, by simp, ?_⟩
    intro p hp
    have hne := hafter p (List.mem_reverse.1 hp)
    simpa using Ne.symm hne

theorem last?_eq_none_iff : last? pairs k = none ↔ ∀ p ∈ pairs, p.1 ≠ k := by
  rw [last?, List.lookup_eq_none_iff]
  constructor
  · intro h p hp
    have hne := h p (List.mem_reverse.2 hp)
    exact Ne.symm (by simpa using hne)
  · intro h p hp
    have hne := h p (List.mem_reverse.1 hp)
    simpa using Ne.symm hne

def Assigns (line k v : Text) : Prop :=
  ∃ before after : Text, line.trim = before ++ '=' :: after ∧ '=' ∉ before ∧
    line.trim.head? ≠ some '#' ∧ before.trim = k ∧ after.trim = v

theorem assignment?_eq_some_iff : assignment? line = some (k, v) ↔ Assigns line k v := by
  rw [assignment?]
  split
  · rename_i hnil
    simp [Assigns, hnil]
  · rename_i r hcomment
    simp [Assigns, hcomment]
  · rename_i hnil hcomment
    have hhead : line.trim.head? ≠ some '#' := by
      intro h
      obtain ⟨r, hr⟩ := List.head?_eq_some_iff.1 h
      exact hcomment r hr
    constructor
    · intro h
      obtain ⟨⟨before, after⟩, hcut, hpair⟩ := Option.map_eq_some_iff.1 h
      obtain ⟨heq, hbefore⟩ := Text.cut?_eq_some hcut
      obtain ⟨hk, hv⟩ := Prod.mk.inj hpair
      exact ⟨before, after, heq, hbefore, hhead, hk, hv⟩
    · rintro ⟨before, after, heq, hbefore, -, rfl, rfl⟩
      rw [heq, Text.cut?_append_cons hbefore]
      rfl

theorem assignment?_eq_none_iff : assignment? line = none ↔ ∀ k v, ¬ Assigns line k v := by
  rw [Option.eq_none_iff_forall_ne_some, Prod.forall]
  simp only [ne_eq, assignment?_eq_some_iff]

/-- The line assigns the value, and no line behind it assigns the key another one. -/
def IsLastAssignment (lines : List Text) (k v : Text) : Prop :=
  ∃ above line below, lines = above ++ line :: below ∧ Assigns line k v ∧
    ∀ later ∈ below, ∀ v', ¬ Assigns later k v'

theorem last?_assignments_eq_none_iff :
    last? (lines.filterMap assignment?) k = none ↔ ∀ line ∈ lines, ∀ v, ¬ Assigns line k v := by
  rw [last?_eq_none_iff]
  constructor
  · intro h line hl v ha
    have hmem := List.mem_filterMap.2 ⟨line, hl, assignment?_eq_some_iff.2 ha⟩
    exact h (k, v) hmem rfl
  · rintro h ⟨k', v⟩ hp rfl
    obtain ⟨line, hl, ha⟩ := List.mem_filterMap.1 hp
    exact h line hl v (assignment?_eq_some_iff.1 ha)

theorem last?_assignments_eq_some_iff :
    last? (lines.filterMap assignment?) k = some v ↔ IsLastAssignment lines k v := by
  constructor
  · intro h
    obtain ⟨before, after, hpairs, hafter⟩ := last?_eq_some_iff.1 h
    obtain ⟨front, back, rfl, -, hback⟩ := List.filterMap_eq_append_iff.1 hpairs
    obtain ⟨idle, line, below, rfl, -, hline, rfl⟩ := List.filterMap_eq_cons_iff.1 hback
    refine ⟨front ++ idle, line, below, by simp, assignment?_eq_some_iff.1 hline, ?_⟩
    exact last?_assignments_eq_none_iff.1 (last?_eq_none_iff.2 hafter)
  · rintro ⟨above, line, below, rfl, hline, hbelow⟩
    rw [List.filterMap_append, last?_append,
      List.filterMap_cons_some (assignment?_eq_some_iff.2 hline), ← List.singleton_append,
      last?_append, last?_assignments_eq_none_iff.2 hbelow]
    simp [last?]

theorem assigns_append_cons {name value : Text} (hn : '=' ∉ name) :
    Assigns (name ++ '=' :: value) k v ↔
      name.trim.head? ≠ some '#' ∧ name.trim = k ∧ value.trim = v := by
  have htrim := Text.trim_append_cons (c := '=') (by decide) name value
  have hskip : '=' ∉ name.skipBlanks := fun h => hn ((List.dropWhile_suffix _).subset h)
  have hhead : (name ++ '=' :: value).trim.head? = some '#' ↔ name.trim.head? = some '#' := by
    rw [htrim, Text.head?_trim]
    cases name.skipBlanks <;> simp
  constructor
  · rintro ⟨before, after, heq, hbefore, hcomment, rfl, rfl⟩
    have hcut := congrArg (Text.cut? '=') (htrim.symm.trans heq)
    rw [Text.cut?_append_cons hskip, Text.cut?_append_cons hbefore] at hcut
    obtain ⟨rfl, rfl⟩ := Prod.mk.inj (Option.some.inj hcut)
    refine ⟨fun h => hcomment (hhead.2 h), ?_, ?_⟩
    · exact (Text.trim_skipBlanks name).symm
    · exact (Text.trim_trimEnd value).symm
  · rintro ⟨hcomment, rfl, rfl⟩
    exact ⟨name.skipBlanks, value.trimEnd, htrim, hskip, fun h => hcomment (hhead.1 h),
      Text.trim_skipBlanks name, Text.trim_trimEnd value⟩

/-- Ways to write the lines of a file anew: with comments or other lines that assign nothing, with
assignments of different keys in another order, with other blanks around keys and values, or with
carriage returns at the line ends. -/
inductive Rewording : List Text → List Text → Prop
  | refl (lines : List Text) : Rewording lines lines
  | symm {lines lines' : List Text} (h : Rewording lines lines') : Rewording lines' lines
  | trans {lines lines' lines'' : List Text} (h : Rewording lines lines')
      (h' : Rewording lines' lines'') : Rewording lines lines''
  | comment (above below : List Text) {line : Text} (h : line.trim.head? = some '#') :
      Rewording (above ++ below) (above ++ line :: below)
  | unassigning (above below : List Text) {line : Text} (h : '=' ∉ line) :
      Rewording (above ++ below) (above ++ line :: below)
  | swap (above below : List Text) {line next : Text}
      (h : ∀ k v v', Assigns line k v → ¬ Assigns next k v') :
      Rewording (above ++ line :: next :: below) (above ++ next :: line :: below)
  | spacing (above below : List Text) {name value w₁ w₂ w₃ w₄ : Text} (h : '=' ∉ name)
      (h₁ : w₁.allBlank = true) (h₂ : w₂.allBlank = true) (h₃ : w₃.allBlank = true)
      (h₄ : w₄.allBlank = true) :
      Rewording (above ++ (name ++ '=' :: value) :: below)
        (above ++ (w₁ ++ name ++ w₂ ++ '=' :: (w₃ ++ value ++ w₄)) :: below)
  | returns (lines : List Text) : Rewording lines (Text.withReturns lines)

theorem assignment?_eq_none_of_comment (h : line.trim.head? = some '#') :
    assignment? line = none := by
  rw [assignment?_eq_none_iff]
  rintro k v ⟨_, _, -, -, hcomment, -⟩
  exact hcomment h

theorem assignment?_eq_none_of_not_mem (h : '=' ∉ line) : assignment? line = none := by
  rw [assignment?_eq_none_iff]
  rintro k v ⟨before, after, heq, -⟩
  exact h (Text.mem_of_mem_trim (by simp [heq]))

theorem assignment?_spacing {name value w₁ w₂ w₃ w₄ : Text} (h : '=' ∉ name)
    (h₁ : w₁.allBlank = true) (h₂ : w₂.allBlank = true) (h₃ : w₃.allBlank = true)
    (h₄ : w₄.allBlank = true) :
    assignment? (w₁ ++ name ++ w₂ ++ '=' :: (w₃ ++ value ++ w₄)) =
      assignment? (name ++ '=' :: value) := by
  have hname : '=' ∉ w₁ ++ name ++ w₂ := by
    simp [h, Text.not_mem_of_allBlank h₁ (c := '=') (by decide),
      Text.not_mem_of_allBlank h₂ (c := '=') (by decide)]
  apply Option.ext
  rintro ⟨k, v⟩
  rw [assignment?_eq_some_iff, assignment?_eq_some_iff, assigns_append_cons hname,
    assigns_append_cons h, Text.trim_append_right h₂, Text.trim_append_left h₁,
    Text.trim_append_right h₄, Text.trim_append_left h₃]

theorem filterMap_withReturns (lines : List Text) :
    (Text.withReturns lines).filterMap assignment? = lines.filterMap assignment? := by
  induction lines with
  | nil => rfl
  | cons line rest ih =>
      have hline : assignment? (line ++ ['\r']) = assignment? line := by
        rw [assignment?, Text.trim_append (by decide), assignment?]
      cases rest with
      | nil => rfl
      | cons next rest =>
          rw [Text.withReturns, List.filterMap_cons, hline, ih]
          exact List.filterMap_cons.symm

theorem last?_pair {k₁ k₂ v₁ v₂ : Text} (h : k₁ ≠ k₂) (k : Text) :
    last? [(k₁, v₁), (k₂, v₂)] k = last? [(k₂, v₂), (k₁, v₁)] k := by
  simp only [last?, List.reverse_cons, List.reverse_nil, List.nil_append, List.singleton_append,
    FileSystem.lookup_cons_eq, List.lookup_nil]
  by_cases h₁ : k = k₁
  · have h₂ : k ≠ k₂ := fun h₂ => h (h₁.symm.trans h₂)
    rw [if_neg h₂, if_pos h₁, if_pos h₁]
  · rw [if_neg h₁, if_neg h₁]

theorem last?_swap {next : Text} (h : ∀ k v v', Assigns line k v → ¬ Assigns next k v')
    (k : Text) :
    last? ([line, next].filterMap assignment?) k = last? ([next, line].filterMap assignment?) k := by
  cases hline : assignment? line with
  | none => simp [List.filterMap_cons, hline]
  | some p =>
      cases hnext : assignment? next with
      | none => simp [hline, hnext]
      | some q =>
          have hne : p.1 ≠ q.1 := by
            intro heq
            apply h p.1 p.2 q.2 (assignment?_eq_some_iff.1 hline)
            rw [heq]
            exact assignment?_eq_some_iff.1 hnext
          simpa [List.filterMap_cons, hline, hnext] using last?_pair hne k

/-- A file that is written anew in one of these ways gives every key the value it had. -/
theorem Rewording.last?_eq (h : Rewording lines lines') (k : Text) :
    last? (lines'.filterMap assignment?) k = last? (lines.filterMap assignment?) k := by
  induction h with
  | refl => rfl
  | symm _ ih => exact ih.symm
  | trans _ _ ih ih' => exact ih'.trans ih
  | comment above below h =>
      rw [List.filterMap_append, List.filterMap_append,
        List.filterMap_cons_none (assignment?_eq_none_of_comment h)]
  | unassigning above below h =>
      rw [List.filterMap_append, List.filterMap_append,
        List.filterMap_cons_none (assignment?_eq_none_of_not_mem h)]
  | @swap above below line next h =>
      have hsplit (x y : Text) : above ++ x :: y :: below = above ++ [x, y] ++ below := by simp
      simp only [hsplit, List.filterMap_append, last?_append, last?_swap h]
  | spacing above below h h₁ h₂ h₃ h₄ =>
      rw [List.filterMap_append, List.filterMap_append, List.filterMap_cons,
        assignment?_spacing h h₁ h₂ h₃ h₄, List.filterMap_cons]
  | returns lines => rw [filterMap_withReturns]

end SoloCall.Config
