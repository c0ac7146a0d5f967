import SoloCall.Proofs.Driver.Artifacts
import SoloCall.Proofs.Driver.Substitution

namespace SoloCall

namespace Driver

/-- The template of a driver, and what is put in its holes before the arguments, in order. -/
structure Scheme where
  template : Template
  fixed : Assignment

def Scheme.assignment (s : Scheme) (arguments : Text) : Assignment :=
  s.fixed ++ [(.arguments, arguments)]

variable {c : Context} {place : Place} {s : Scheme}

def Context.scheme? (c : Context) (place : Place) : Option Scheme :=
  match c.language with
  | .python =>
    let directory := forwardSlashes place.directory
    if isInstanceMethod c.sourceText c.function then
      (enclosingClass? c.function c.sourceText).map fun className => ⟨pythonMethod, [
        (.directory, directory), (.module, place.stem), (.className, className),
        (.function, c.function)]⟩
    else some ⟨pythonFunction, [
      (.directory, directory), (.module, place.stem), (.function, c.function)]⟩
  | .java => some ⟨javaRunner, [
      (.runner, "SentinelRunner_".toList ++ c.scratchId), (.className, place.stem),
      (.function, c.function)]⟩
  | .go => some ⟨goRunner, [(.function, c.function)]⟩
  | .c => some ⟨cRunner, [
      (.declaration, (forwardDeclaration? c.sourceText c.function).getD []),
      (.file, place.fileName), (.function, c.function)]⟩
  | .cpp => some ⟨cppRunner, [(.file, place.fileName), (.function, c.function)]⟩
  | .javascript | .typescript => some ⟨scriptRunner, [
      (.path, scriptString (forwardSlashes c.source.text)),
      (.functionLiteral, scriptString c.function)]⟩
  | .unknown => none

theorem mem_templates_of_scheme? (h : c.scheme? place = some s) :
    (s.template, s.fixed.map Prod.fst) ∈ templates := by
  rw [Context.scheme?] at h
  cases hl : c.language <;> simp only [hl, Option.some.injEq, reduceCtorEq] at h
  case python =>
    split at h
    · obtain ⟨className, -, rfl⟩ := Option.map_eq_some_iff.1 h
      simp [templates]
    · obtain rfl := Option.some.inj h
      simp [templates]
  all_goals
    subst h
    simp [templates]

def Context.withArgs (c : Context) (args : List Text) : Context := { c with args := args }

theorem argumentText_withArgs (c : Context) (args : List Text) :
    (c.withArgs args).argumentText = Text.join [',', ' '] args := rfl

theorem pythonPlan_of_scheme? (hl : c.language = .python) (h : c.scheme? place = some s) :
    c.pythonPlan place =
      .ok (c.pythonPlanOf (s.template.render (s.assignment c.argumentText))) := by
  have hcontents :
      c.pythonContents place = .ok (s.template.render (s.assignment c.argumentText)) := by
    simp only [Context.scheme?, hl] at h
    rw [Context.pythonContents]
    split at h
    · rename_i hm
      obtain ⟨className, hclass, rfl⟩ := Option.map_eq_some_iff.1 h
      rw [if_pos hm, hclass]
      rfl
    · rename_i hm
      obtain rfl := Option.some.inj h
      rw [if_neg hm]
      rfl
  rw [Context.pythonPlan, hcontents]
  rfl

theorem pythonPlan_of_scheme?_eq_none (hl : c.language = .python) (h : c.scheme? place = none) :
    c.pythonPlan place = .error (.classNotFound c.function) := by
  simp only [Context.scheme?, hl] at h
  have hcontents : c.pythonContents place = .error (.classNotFound c.function) := by
    rw [Context.pythonContents]
    split at h
    · rename_i hm
      rw [if_pos hm, Option.map_eq_none_iff.1 h]
    · cases h
  rw [Context.pythonPlan, hcontents]
  rfl

def Plan.HasContents (p : Plan) (contents : Text) : Prop := ∃ path, p.files = [⟨path, contents⟩]

theorem Plan.HasContents.unique {p : Plan} {contents contents' : Text}
    (h : p.HasContents contents) (h' : p.HasContents contents') : contents = contents' := by
  obtain ⟨path, hfiles⟩ := h
  obtain ⟨path', hfiles'⟩ := h'
  have hfile := List.cons.inj (hfiles.symm.trans hfiles')
  exact (ScratchFile.mk.inj hfile.1).2

theorem plan_of_scheme? (hp : c.source.place? = some place) (h : c.scheme? place = some s) :
    ∃ plan, c.plan = .ok plan ∧
      plan.HasContents (s.template.render (s.assignment c.argumentText)) := by
  rw [Context.plan, hp]
  cases hl : c.language
  case python => exact ⟨_, pythonPlan_of_scheme? hl h, _, rfl⟩
  case unknown => simp [Context.scheme?, hl] at h
  all_goals
    simp only [Context.scheme?, hl, Option.some.injEq] at h
    subst h
    exact ⟨_, rfl, _, rfl⟩

theorem exists_plan_iff : (∃ plan, c.plan = .ok plan) ↔
    ∃ place s, c.source.place? = some place ∧ c.scheme? place = some s := by
  constructor
  · rintro ⟨plan, h⟩
    obtain ⟨place, hp, -⟩ := plan_cases h
    cases hs : c.scheme? place with
    | some s => exact ⟨place, s, hp, hs⟩
    | none =>
        rw [Context.plan, hp] at h
        cases hl : c.language <;> simp only [Context.scheme?, hl, reduceCtorEq] at hs h
        case python =>
          have hnone : c.scheme? place = none := by simpa only [Context.scheme?, hl] using hs
          rw [pythonPlan_of_scheme?_eq_none hl hnone] at h
          cases h
  · rintro ⟨place, s, hp, hs⟩
    obtain ⟨plan, h, -⟩ := plan_of_scheme? hp hs
    exact ⟨plan, h⟩

/-- What a driver says beside its arguments does not depend on them. -/
theorem Scheme.exists_fragments (h : s.template.IsDriver (s.fixed.map Prod.fst)) :
    ∃ fragments : List Text, 2 ≤ fragments.length ∧ ∀ arguments,
      s.template.render (s.assignment arguments) = Text.join arguments fragments := by
  obtain ⟨fragments, -, hcount, hjoin⟩ :=
    Text.exists_fragments Key.arguments.placeholder_ne_nil (s.template.render s.fixed)
  have hcall := Template.call_infix_render h.arguments_notMem h.call_infix
  have harguments : Key.arguments.placeholder <:+: Template.call := ⟨['('], [')'], rfl⟩
  refine ⟨fragments, hcount (harguments.trans hcall), fun arguments => ?_⟩
  rw [Scheme.assignment, Template.render_append, hjoin]

theorem Scheme.lookup_isSome (h : s.template.IsDriver (s.fixed.map Prod.fst)) (arguments : Text) :
    ∀ k ∈ s.template.holes, ((s.assignment arguments).lookup k).isSome := by
  intro k hk
  have hkeys : (s.assignment arguments).map Prod.fst = s.fixed.map Prod.fst ++ [Key.arguments] := by
    rw [Scheme.assignment, List.map_append]
    rfl
  have hmem : k ∈ (s.assignment arguments).map Prod.fst := hkeys ▸ h.hole_mem k hk
  obtain ⟨v, hv, rfl⟩ := List.mem_map.1 hmem
  exact List.lookup_isSome_iff.2 ⟨v, hv, beq_self_eq_true v.1⟩

/-- There is a plan where there is a scheme. Its driver is the template with one value in each hole,
if no value holds the placeholder of a key that is filled later. With any arguments it is the same
fragments, and the arguments between them. -/
theorem plan_contents_filled (c : Context) :
    ((∃ plan, c.plan = .ok plan) ↔
      ∃ place s, c.source.place? = some place ∧ c.scheme? place = some s) ∧
    ∀ place s, c.source.place? = some place → c.scheme? place = some s →
      (∀ t, .text t ∈ s.template → ¬ ['\x7b', '\x7b'] <:+: t) ∧
      (∀ k ∈ s.template.holes, ((s.assignment c.argumentText).lookup k).isSome) ∧
      (Template.Independent (s.assignment c.argumentText) → ∃ plan, c.plan = .ok plan ∧
        plan.HasContents (s.template.fill (s.assignment c.argumentText))) ∧
      ∃ fragments : List Text, 2 ≤ fragments.length ∧ ∀ args, ∃ plan,
        (c.withArgs args).plan = .ok plan ∧
          plan.HasContents (Text.join (Text.join [',', ' '] args) fragments) := by
  refine ⟨exists_plan_iff, ?_⟩
  intro place s hp hs
  have hdriver := isDriver_of_mem_templates (mem_templates_of_scheme? hs)
  refine ⟨fun t => Template.not_infix_of_isSpaced hdriver.spaced,
    Scheme.lookup_isSome hdriver c.argumentText, fun hv => ?_, ?_⟩
  · obtain ⟨plan, hplan, hcontents⟩ := plan_of_scheme? hp hs
    rw [Template.render_eq_fill hdriver.spaced hv] at hcontents
    exact ⟨plan, hplan, hcontents⟩
  · obtain ⟨fragments, hcount, hjoin⟩ := Scheme.exists_fragments hdriver
    refine ⟨fragments, hcount, fun args => ?_⟩
    obtain ⟨plan, hplan, hcontents⟩ := plan_of_scheme? (c := c.withArgs args) hp hs
    rw [argumentText_withArgs, hjoin] at hcontents
    exact ⟨plan, hplan, hcontents⟩

def bracedContext : Context where
  language := .java
  function := "f\x7b\x7brunner\x7d\x7d".toList
  args := ["1".toList, "\"\x7b\x7bname\x7d\x7d\x7b\x7bargs\x7d\x7d\"".toList]
  source := ⟨"/w/A.java".toList, .exact⟩
  sourceText := []
  scratchId := scratchId 42 7 0
  scratchDirectory := "/t".toList
  toolchain := {}

theorem plan_contents_filled_braced : ∃ place s plan,
    bracedContext.source.place? = some place ∧ bracedContext.scheme? place = some s ∧
      Template.Independent (s.assignment bracedContext.argumentText) ∧
      bracedContext.plan = .ok plan ∧
      plan.HasContents (s.template.fill (s.assignment bracedContext.argumentText)) := by
  have hplace : bracedContext.source.place? = some ⟨"/w".toList, "A.java".toList, "A".toList⟩ := by
    rfl
  have hv : Template.Independent
      ([(.runner, "SentinelRunner_".toList ++ scratchId 42 7 0), (.className, "A".toList),
        (.function, bracedContext.function)] ++ [(.arguments, bracedContext.argumentText)]) := by
    decide
  obtain ⟨-, -, hfilled, -⟩ := (plan_contents_filled bracedContext).2 _ _ hplace rfl
  obtain ⟨plan, hplan, hcontents⟩ := hfilled hv
  exact ⟨_, _, plan, hplace, rfl, hv, hplan, hcontents⟩

end Driver

end SoloCall
