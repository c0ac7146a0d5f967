import Mathlib.Algebra.Group.Nat.Defs
import SoloCall.Proofs.Dispatch.Interleaving

namespace SoloCall

open FileSystem Driver

namespace Host

variable {start h h' : Host} {draws ids : Nat} {acts more : List Act} {x y : Planned} {l : Location}

def planned (h : Host) : List Planned := h.executions.map Execution.planned

/-- At the start of a run the directories for the drivers are there, and nothing is there of what
the plans will leave behind. -/
structure Prepared (start h : Host) : Prop where
  tree : start.files.IsTree
  homes : ∀ x ∈ h.planned, start.files.isDirectoryAt start.cwd x.context.home = true
  fresh : ∀ x ∈ h.planned, ∀ a ∈ x.plan.artifacts, start.files.pathExists start.cwd a = false

def ChangedByTools (start : Host) (acts : List Act) (who : Nat) (a : Path) : Prop :=
  ∃ act ∈ acts, act.who = who ∧ act.byTools = true ∧
    act.after.read start.cwd a ≠ act.before.read start.cwd a

def KindsKept (start : Host) (acts : List Act) (who : Nat) (x : Planned) : Prop :=
  ∀ act ∈ acts, act.who = who → act.byTools = true →
    (x.territory start).KeepsKinds act.before act.after

/-- What every step of a run preserves. -/
structure Consistent (start : Host) (draws : Nat) (acts : List Act) (h : Host) : Prop where
  drawn : h.drawn = start.drawn + .ofNat draws
  cwd : h.cwd = start.cwd
  tree : h.files.IsTree
  outside : ∀ l, (∀ x ∈ h.planned, ¬ (x.territory start).Holds l) →
    h.files.get? l = start.files.get? l
  numbered : ∀ x ∈ h.planned, ∃ millis pid before,
    x.context.scratchId = scratchId millis pid (start.drawn + .ofNat before).toNat ∧ before < draws
  distinct : (h.planned.map fun x => x.context.scratchId).Nodup
  progress : ∀ i (e : Execution), h.executions[i]? = some e →
    e.Progress start (ChangedByTools start acts i) h.files
  tidy : ∀ i (e : Execution), h.executions[i]? = some e → KindsKept start acts i e.planned →
    e.Tidy start h.files
  owned : ∀ act ∈ acts, ∃ x, h.planned[act.who]? = some x ∧
    Execution.Owns start x act.touches act.before act.after

theorem ChangedByTools.append {who : Nat} {a : Path} (h : ChangedByTools start acts who a)
    (more : List Act) : ChangedByTools start (acts ++ more) who a := by
  obtain ⟨act, hmem, hchanged⟩ := h
  exact ⟨act, List.mem_append_left more hmem, hchanged⟩

theorem KindsKept.before {who : Nat} (h : KindsKept start (acts ++ more) who x) :
    KindsKept start acts who x := fun act hmem => h act (List.mem_append_left more hmem)

theorem planned_of_execution {i : Nat} {e : Execution} (he : h.executions[i]? = some e) :
    h.planned[i]? = some e.planned := by
  simp [planned, he]

theorem eq_of_getElem?_append {executions : List Execution} {new e : Execution} {i : Nat}
    (he : (executions ++ [new])[i]? = some e) : executions[i]? = some e ∨ e = new := by
  rw [List.getElem?_append] at he
  split at he
  · exact .inl he
  · exact .inr (by simpa using List.mem_of_getElem? he)

theorem eq_of_getElem?_set {executions : List Execution} {new e : Execution} {i j : Nat}
    (he : (executions.set i new)[j]? = some e) :
    i = j ∧ e = new ∨ i ≠ j ∧ executions[j]? = some e := by
  by_cases hij : i = j
  · subst hij
    rw [List.getElem?_set_self'] at he
    obtain ⟨old, -, hnew⟩ := Option.map_eq_some_iff.1 he
    exact .inl ⟨rfl, hnew.symm⟩
  · exact .inr ⟨hij, by rwa [List.getElem?_set_ne hij] at he⟩

theorem planned_set {i : Nat} {e : Execution} (he : h.executions[i]? = some e)
    (files : FileSystem) (phase : Phase) :
    ({ h with files := files, executions := h.executions.set i { e with phase := phase } } :
      Host).planned = h.planned := by
  apply List.ext_getElem?
  intro j
  simp only [planned, List.getElem?_map, List.getElem?_set]
  split
  · rename_i hij
    subst hij
    obtain ⟨hlt, rfl⟩ := List.getElem?_eq_some_iff.1 he
    simp [hlt]
  · rfl

theorem Step.planned_prefix (hs : h.Step ids more h') : h.planned <+: h'.planned := by
  cases hs with
  | @launch m x shown drawn => exact ⟨[x], by simp [planned]⟩
  | draw => exact List.prefix_rfl
  | act who moves =>
      have hsame := planned_set who
      exact hsame _ _ ▸ List.prefix_rfl

theorem Prepared.before (hp : Prepared start h') (hs : h.Step ids more h') : Prepared start h := by
  have hmem {x} (hx : x ∈ h.planned) : x ∈ h'.planned := hs.planned_prefix.subset hx
  exact ⟨hp.tree, fun x hx => hp.homes x (hmem hx), fun x hx => hp.fresh x (hmem hx)⟩

theorem Prepared.housedIn (hp : Prepared start h) (hx : x ∈ h.planned)
    (hid : IsScratchId x.context.scratchId) : x.HousedIn start := by
  obtain ⟨dir, hdir⟩ := enter_of_isDirectoryAt (hp.homes x hx)
  exact ⟨dir, hp.tree, hid, plan_liesIn x.made, hdir, hp.fresh x hx⟩

theorem drawn_succ {first now : UInt64} (h : now = first + .ofNat draws) :
    now + 1 = first + .ofNat (draws + 1) := by
  rw [h, UInt64.add_assoc, UInt64.ofNat_add]
  rfl

theorem toNat_drawn_ne {first : UInt64} {before later : Nat} (h : before < later)
    (hl : later < 2 ^ 64) :
    (first + .ofNat before).toNat ≠ (first + .ofNat later).toNat := by
  have hfirst := first.toNat_lt
  rw [UInt64.toNat_add, UInt64.toNat_add, UInt64.toNat_ofNat', UInt64.toNat_ofNat']
  omega

namespace Consistent

theorem housedIn (hc : Consistent start draws acts h) (hp : Prepared start h)
    (hx : x ∈ h.planned) : x.HousedIn start := by
  obtain ⟨millis, pid, before, hid, -⟩ := hc.numbered x hx
  exact hp.housedIn hx (hid ▸ isScratchId_scratchId millis pid _)

theorem keepsDirectories (hc : Consistent start draws acts h) (hp : Prepared start h) :
    KeepsDirectories start.files h.files := by
  intro l hl
  rw [hc.outside l, hl]
  intro x hx ht
  obtain ⟨dir, hh⟩ := hc.housedIn hp hx
  simp [hh.get?_eq_none ht] at hl

theorem disjoint (hc : Consistent start draws acts h) (hp : Prepared start h) {i j : Nat}
    (hx : h.planned[i]? = some x) (hy : h.planned[j]? = some y) (hij : i ≠ j)
    (hl : (x.territory start).Holds l) : ¬ (y.territory start).Holds l := by
  obtain ⟨dir, hh⟩ := hc.housedIn hp (List.mem_of_getElem? hx)
  obtain ⟨dir', hh'⟩ := hc.housedIn hp (List.mem_of_getElem? hy)
  refine hh.disjoint hh' (fun hid => hij ?_) hl
  obtain ⟨hlt, -⟩ := List.getElem?_eq_some_iff.1 hx
  refine (List.getElem?_inj (by simpa using hlt) hc.distinct).1 ?_
  simp [hx, hy, hid]

theorem numbered_succ (hc : Consistent start draws acts h) (hx : x ∈ h.planned) :
    ∃ millis pid before, x.context.scratchId =
      scratchId millis pid (start.drawn + .ofNat before).toNat ∧ before < draws + 1 := by
  obtain ⟨millis, pid, before, hid, hlt⟩ := hc.numbered x hx
  exact ⟨millis, pid, before, hid, Nat.lt_succ_of_lt hlt⟩

theorem ne_of_number (hc : Consistent start draws acts h) (hd : draws < 2 ^ 64) {millis pid : Nat}
    (hid : x.context.scratchId = scratchId millis pid (start.drawn + .ofNat draws).toNat)
    (hy : y ∈ h.planned) : y.context.scratchId ≠ x.context.scratchId := by
  obtain ⟨_, _, before, hyid, hlt⟩ := hc.numbered y hy
  rw [hyid, hid]
  exact scratchId_ne (toNat_drawn_ne hlt hd)

theorem draw (hc : Consistent start draws acts h) :
    Consistent start (draws + 1) acts { h with drawn := h.drawn + 1 } :=
  { hc with drawn := drawn_succ hc.drawn, numbered := fun _ hx => hc.numbered_succ hx }

theorem untouched (hc : Consistent start draws acts h) (hp : Prepared start h) (hx : x.HousedIn start)
    (hid : ∀ y ∈ h.planned, y.context.scratchId ≠ x.context.scratchId)
    (hl : (x.territory start).Holds l) : h.files.get? l = start.files.get? l := by
  obtain ⟨dir, hh⟩ := hx
  refine hc.outside l fun y hy hl' => ?_
  obtain ⟨dir', hh'⟩ := hc.housedIn hp hy
  exact hh'.disjoint hh (hid y hy) hl' hl

theorem launch (hc : Consistent start draws acts h) (hd : draws < 2 ^ 64)
    (hp : Prepared start { h with
      drawn := h.drawn + 1
      executions := h.executions ++ [⟨x, .writing x.plan.writing⟩] })
    {m : Machine} (hm : h.Shows m) (hid : x.context.scratchId = (Dispatcher.drawId m).1) :
    Consistent start (draws + 1) acts { h with
      drawn := h.drawn + 1
      executions := h.executions ++ [⟨x, .writing x.plan.writing⟩] } := by
  set h' : Host := { h with
    drawn := h.drawn + 1
    executions := h.executions ++ [⟨x, .writing x.plan.writing⟩] } with hh'
  have hplanned : h'.planned = h.planned ++ [x] := by simp [hh', planned]
  have hnumber : x.context.scratchId =
      scratchId (m.epoch + m.clock / 1000000) m.pid (start.drawn + .ofNat draws).toNat := by
    rw [hid, ← hc.drawn, ← hm.drawn]
    rfl
  have hfresh : ∀ y ∈ h.planned, y.context.scratchId ≠ x.context.scratchId :=
    fun y hy => hc.ne_of_number hd hnumber hy
  have hx : x.HousedIn start :=
    hp.housedIn (by simp [hplanned]) (hnumber ▸ isScratchId_scratchId _ _ _)
  have hp₀ : Prepared start h := hp.before (.launch hm hid)
  refine ⟨drawn_succ hc.drawn, hc.cwd, hc.tree, fun l hl => ?_, fun y hy => ?_, ?_,
    fun i e he => ?_, fun i e he hkinds => ?_, fun a ha => ?_⟩
  · exact hc.outside l fun y hy => hl y (by simp [hplanned, hy])
  · rw [hplanned, List.mem_append, List.mem_singleton] at hy
    rcases hy with hy | rfl
    · exact hc.numbered_succ hy
    · exact ⟨_, _, _, hnumber, Nat.lt_succ_self _⟩
  · rw [hplanned, List.map_append, List.nodup_append]
    refine ⟨hc.distinct, by simp, ?_⟩
    simpa using hfresh
  · rcases eq_of_getElem?_append he with he | rfl
    · exact hc.progress i e he
    · exact Execution.progress_launched _ _
  · rcases eq_of_getElem?_append he with he | rfl
    · exact hc.tidy i e he hkinds
    · exact Execution.tidy_launched hx fun l hl => hc.untouched hp₀ hx hfresh hl
  · obtain ⟨y, hy, howned⟩ := hc.owned a ha
    obtain ⟨hlt, -⟩ := List.getElem?_eq_some_iff.1 hy
    exact ⟨y, by rw [hplanned, List.getElem?_append_left hlt, hy], howned⟩

theorem act (hc : Consistent start draws acts h) {i : Nat} {e : Execution} {byTools : Bool}
    {touches : Location → Prop} {phase : Phase} {files : FileSystem}
    (hp : Prepared start { h with
      files := files
      executions := h.executions.set i { e with phase := phase } })
    (he : h.executions[i]? = some e) (hm : e.Moves h.cwd h.files byTools touches phase files) :
    Consistent start draws (acts ++ [⟨i, byTools, touches, h.files, files⟩]) { h with
      files := files
      executions := h.executions.set i { e with phase := phase } } := by
  set act : Act := ⟨i, byTools, touches, h.files, files⟩ with hact
  have hplanned := planned_set he files phase
  have hp₀ : Prepared start h := hp.before (.act he hm)
  rw [hc.cwd] at hm
  have hx := planned_of_execution he
  have hhoused := hc.housedIn hp₀ (List.mem_of_getElem? hx)
  have hkeeps := hc.keepsDirectories hp₀
  obtain ⟨howns, hchange, hown⟩ := (hc.progress i e he).owned hhoused hkeeps hc.tree hm
  have hkeeps' : KeepsDirectories start.files files := by
    obtain ⟨dir, hh⟩ := hhoused
    exact hh.keepsDirectories hkeeps hchange
  -- The others see no difference: what is theirs is not of the execution that acts.
  have hsame {j : Nat} {other : Execution} (hij : i ≠ j) (hother : h.executions[j]? = some other) :
      ∀ l, (other.planned.territory start).Holds l → files.get? l = h.files.get? l :=
    fun l hl => hchange.outside l fun hl' =>
      hc.disjoint hp₀ hx (planned_of_execution hother) hij hl' hl
  refine ⟨hc.drawn, hc.cwd, hchange.tree hc.tree, fun l hl => ?_, hplanned ▸ hc.numbered,
    hplanned ▸ hc.distinct, fun j other hother => ?_, fun j other hother hkinds => ?_,
    fun a ha => ?_⟩
  · rw [hplanned] at hl
    rw [← hc.outside l hl]
    exact hchange.outside l (hl e.planned (List.mem_of_getElem? hx))
  · have htouched {a : Path} (ha : ChangedByTools start acts j a) :
        ChangedByTools start (acts ++ [act]) j a := ha.append [act]
    rcases eq_of_getElem?_set hother with ⟨rfl, rfl⟩ | ⟨hij, hother⟩
    · exact (hc.progress i e he).move hhoused hkeeps hkeeps' hm (fun _ => htouched)
        fun htools a hread => ⟨act, by simp, rfl, htools, hread⟩
    · have hy := List.mem_of_getElem? (planned_of_execution hother)
      exact (hc.progress j other hother).frame (hc.housedIn hp₀ hy) hkeeps hkeeps'
        (hsame hij hother) fun _ => htouched
  · rcases eq_of_getElem?_set hother with ⟨rfl, rfl⟩ | ⟨hij, hother⟩
    · have hkept : (e.planned.territory start).KeepsKinds h.files files := by
        cases hb : byTools with
        | false => exact hown hb
        | true => exact hkinds act (by simp) rfl hb
      exact (hc.tidy i e he hkinds.before).move (hc.progress i e he) hhoused hkeeps hc.tree hm hkept
    · exact (hc.tidy j other hother hkinds.before).frame (hsame hij hother)
  · rw [hplanned]
    rcases List.mem_append.1 ha with ha | ha
    · exact hc.owned a ha
    · obtain rfl := List.mem_singleton.1 ha
      exact ⟨e.planned, hx, howns⟩

theorem step (hc : Consistent start draws acts h) (hd : draws + ids ≤ 2 ^ 64)
    (hp : Prepared start h') (hs : h.Step ids more h') :
    Consistent start (draws + ids) (acts ++ more) h' := by
  cases hs with
  | launch shown drawn =>
      rw [List.append_nil]
      exact hc.launch hd hp shown drawn
  | draw =>
      rw [List.append_nil]
      exact hc.draw
  | act who moves => exact hc.act hp who moves

end Consistent

theorem Run.consistent (hr : start.Run draws acts h) (hd : draws ≤ 2 ^ 64)
    (hn : start.executions = []) (hp : Prepared start h) : Consistent start draws acts h := by
  induction hr with
  | start =>
      have hplanned : start.planned = [] := by simp [planned, hn]
      exact ⟨(UInt64.add_zero _).symm, rfl, hp.tree, fun _ _ => rfl, by simp [hplanned],
        by simp [hplanned], by simp [hn], by simp [hn], by simp⟩
  | step run step ih =>
      exact (ih (Nat.le_of_add_right_le hd) (hp.before step)).step hd hp step

/-- However the acts of the executions of a process alternate, as long as it draws no more ids than
there are counts: a driver that is written holds its contents until the clean-up of its execution
begins, unless the programs of that same execution change it; no act changes what it does not
touch, or touches what belongs to another execution; and an execution that has cleaned up has left
nothing, unless its programs put a directory for a file or a file for a directory. -/
theorem Run.isolated (hr : start.Run draws acts h) (hd : draws ≤ 2 ^ 64)
    (hn : start.executions = []) (hp : Prepared start h) :
    (∀ i (e : Execution), h.executions[i]? = some e → e.phase = .writing [] →
      ∀ f ∈ e.planned.plan.files,
        (∀ act ∈ acts, act.who = i → act.byTools = true →
          act.after.read start.cwd f.path = act.before.read start.cwd f.path) →
        h.files.read start.cwd f.path = .ok (Utf8.encode f.contents)) ∧
    (∀ act ∈ acts, (∀ l, ¬ act.touches l → act.after.get? l = act.before.get? l) ∧
      ∀ i (e : Execution), h.executions[i]? = some e → act.who ≠ i →
        ∀ l, (e.planned.territory start).Holds l → ¬ act.touches l) ∧
    (∀ i (e : Execution), h.executions[i]? = some e → e.phase = .removing [] →
      (∀ act ∈ acts, act.who = i → act.byTools = true →
        (e.planned.territory start).KeepsKinds act.before act.after) →
      ∀ a ∈ e.planned.plan.artifacts, h.files.pathExists start.cwd a = false) := by
  have hc := hr.consistent hd hn hp
  refine ⟨fun i e he hphase f hf huntouched => ?_, fun act hact => ?_,
    fun i e he hphase hkinds a ha => ?_⟩
  · rcases (hc.progress i e he).drivers hphase f hf with ⟨act, hact, hwho, htools, hread⟩ | hread
    · exact absurd (huntouched act hact hwho htools) hread
    · exact hread
  · obtain ⟨x, hx, howned⟩ := hc.owned act hact
    refine ⟨howned.unchanged, fun i e he hne l hl htouched => ?_⟩
    rcases howned.touched l htouched with hdir | hl'
    · obtain ⟨dir, hh⟩ := hc.housedIn hp (List.mem_of_getElem? (planned_of_execution he))
      have hnone := hh.get?_eq_none hl
      rw [hdir] at hnone
      cases hnone
    · exact hc.disjoint hp hx (planned_of_execution he) hne hl' hl
  · obtain ⟨dir, hh⟩ := hc.housedIn hp (List.mem_of_getElem? (planned_of_execution he))
    have hclear := (hc.tidy i e he hkinds).clearing [] hphase
    rw [pathExists, stat, hh.locate_eq (hc.keepsDirectories hp) ha]
    cases hl : start.files.locate start.cwd a with
    | error error => rfl
    | ok l =>
        have hnone : h.files.get? l = none := by
          simpa using hclear l (Housed.holds_of_locate ha hl)
        simp [bind, Except.bind, hnone]

def goContext (n : Nat) : Context where
  language := .go
  function := "f".toList
  args := []
  source := ⟨"/s/a.go".toList, .exact⟩
  sourceText := []
  scratchId := scratchId 0 1 n
  scratchDirectory := "/t".toList
  toolchain := {}

def goPlanned (n : Nat) : Planned :=
  ⟨goContext n, (goContext n).goPlan ⟨"/s".toList, "a.go".toList, "a".toList⟩, rfl⟩

def goContents : Text := goRunner.render [(.function, "f".toList), (.arguments, [])]

def goDriver : Entry := .file (Utf8.encode goContents) false

def goPlace (n : Nat) : Location :=
  ["s".toList, "sentinel_runner_".toList ++ scratchId 0 1 n ++ ".go".toList]

def goFiles (drivers : List (Nat × Entry)) : FileSystem :=
  ⟨[(["s".toList], .directory), (["s".toList, "a.go".toList], .file [] false)] ++
    drivers.map fun x => (goPlace x.1, x.2)⟩

def goHost (drivers : List (Nat × Entry)) (phases : List Phase) : Host where
  files := goFiles drivers
  cwd := []
  pid := 1
  drawn := .ofNat phases.length
  executions := phases.mapIdx fun n phase => ⟨goPlanned n, phase⟩

def goMachine (drivers : List (Nat × Entry)) (n : Nat) : Machine :=
  { files := goFiles drivers, clock := 0, drawn := .ofNat n }

def goWrite (n : Nat) : FileStep := .write (goPlace n).path goContents

def goRemove (n : Nat) : FileStep := .removeFile (goPlace n).path

def goWriting (n : Nat) : Phase := .writing [goWrite n]

def goRemoving (n : Nat) : Phase := .removing [goRemove n]

def goAct (who : Nat) (step : FileStep) (before after : List (Nat × Entry)) : Act :=
  ⟨who, false, step.Touches [] (goFiles before), goFiles before, goFiles after⟩

def goTools (before after : List (Nat × Entry)) : Act :=
  ⟨0, true, fun l => l = goPlace 0, goFiles before, goFiles after⟩

def goStop (drivers : List (Nat × Entry)) : Act :=
  ⟨0, false, fun _ => False, goFiles drivers, goFiles drivers⟩

theorem isTree_goFiles (drivers : List (Nat × Entry)) : (goFiles drivers).IsTree := by
  apply isTree_of_entries
  intro x hx
  have hs : (goFiles drivers).get? ["s".toList] = some .directory := rfl
  simp only [goFiles, List.cons_append, List.nil_append, List.mem_cons, List.mem_map] at hx
  rcases hx with rfl | rfl | ⟨y, -, rfl⟩
  · rfl
  · exact hs
  · exact hs

theorem territory_goPlanned (drivers : List (Nat × Entry)) :
    (goPlanned 0).plan.territory [] (goFiles drivers) = ⟨[goPlace 0], []⟩ := rfl

theorem goTools_moves (old new : Entry) (others : List (Nat × Entry)) :
    Execution.Moves ⟨goPlanned 0, .writing []⟩ [] (goFiles ((0, old) :: others)) true
      (fun l => l = goPlace 0) (.writing []) (goFiles ((0, new) :: others)) := by
  refine .tools rfl (fun l hl => ?_) (fun l hl => ?_) fun _ => isTree_goFiles _
  · rw [territory_goPlanned, hl]
    exact .inl (by simp)
  · simp only [goFiles, get?, List.cons_append, List.nil_append, lookup_cons_eq, List.map_cons, hl,
      if_false]

theorem goLaunch (drivers : List (Nat × Entry)) :
    (goHost drivers []).Step 1 [] (goHost drivers [goWriting 0]) :=
  .launch (m := goMachine drivers 0) (x := goPlanned 0) ⟨rfl, rfl, rfl, rfl⟩
    (by simp [Dispatcher.drawId, goMachine, goPlanned, goContext])

/-- Two executions are begun and write their drivers; the programs of the first empty its driver,
and the first cleans up. -/
def goActs : List Act :=
  [goAct 0 (goWrite 0) [] [(0, goDriver)],
    goAct 1 (goWrite 1) [(0, goDriver)] [(0, goDriver), (1, goDriver)],
    goTools [(0, goDriver), (1, goDriver)] [(0, .file [] false), (1, goDriver)],
    goStop [(0, .file [] false), (1, goDriver)],
    goAct 0 (goRemove 0) [(0, .file [] false), (1, goDriver)] [(1, goDriver)]]

theorem goRun :
    (goHost [] []).Run 2 goActs (goHost [(1, goDriver)] [.removing [], .writing []]) := by
  have hlaunch : (goHost [] [goWriting 0]).Step 1 [] (goHost [] [goWriting 0, goWriting 1]) :=
    .launch (m := goMachine [] 1) (x := goPlanned 1) ⟨rfl, rfl, rfl, rfl⟩ rfl
  have hwrite₀ : (goHost [] [goWriting 0, goWriting 1]).Step 0
      [goAct 0 (goWrite 0) [] [(0, goDriver)]]
      (goHost [(0, goDriver)] [.writing [], goWriting 1]) :=
    .act (i := 0) (e := ⟨goPlanned 0, goWriting 0⟩) rfl (.write none rfl rfl)
  have hwrite₁ : (goHost [(0, goDriver)] [.writing [], goWriting 1]).Step 0
      [goAct 1 (goWrite 1) [(0, goDriver)] [(0, goDriver), (1, goDriver)]]
      (goHost [(0, goDriver), (1, goDriver)] [.writing [], .writing []]) :=
    .act (i := 1) (e := ⟨goPlanned 1, goWriting 1⟩) rfl (.write none rfl rfl)
  have htools : (goHost [(0, goDriver), (1, goDriver)] [.writing [], .writing []]).Step 0
      [goTools [(0, goDriver), (1, goDriver)] [(0, .file [] false), (1, goDriver)]]
      (goHost [(0, .file [] false), (1, goDriver)] [.writing [], .writing []]) :=
    .act (i := 0) (e := ⟨goPlanned 0, .writing []⟩) rfl (goTools_moves _ _ _)
  have hstop : (goHost [(0, .file [] false), (1, goDriver)] [.writing [], .writing []]).Step 0
      [goStop [(0, .file [] false), (1, goDriver)]]
      (goHost [(0, .file [] false), (1, goDriver)] [goRemoving 0, .writing []]) :=
    .act (i := 0) (e := ⟨goPlanned 0, .writing []⟩) rfl (.stop rfl)
  have hremove : (goHost [(0, .file [] false), (1, goDriver)] [goRemoving 0, .writing []]).Step 0
      [goAct 0 (goRemove 0) [(0, .file [] false), (1, goDriver)] [(1, goDriver)]]
      (goHost [(1, goDriver)] [.removing [], .writing []]) :=
    .act (i := 0) (e := ⟨goPlanned 0, goRemoving 0⟩) rfl (.remove rfl rfl)
  have hwritten := ((Run.start.step (goLaunch [])).step hlaunch).step hwrite₀ |>.step hwrite₁
  exact ((hwritten.step htools).step hstop).step hremove

theorem goPrepared :
    Prepared (goHost [] []) (goHost [(1, goDriver)] [.removing [], .writing []]) := by
  have hplanned : (goHost [(1, goDriver)] [.removing [], .writing []]).planned =
      [goPlanned 0, goPlanned 1] := rfl
  refine ⟨isTree_goFiles [], ?_, ?_⟩ <;> rw [hplanned] <;> decide

theorem Run.isolated_go :
    (goHost [] []).Run 2 goActs (goHost [(1, goDriver)] [.removing [], .writing []]) ∧
    2 ≤ 2 ^ 64 ∧ (goHost [] []).executions = [] ∧
    Prepared (goHost [] []) (goHost [(1, goDriver)] [.removing [], .writing []]) ∧
    (goFiles [(1, goDriver)]).read [] (goPlace 1).path = .ok (Utf8.encode goContents) ∧
    (∀ act ∈ goActs, act.who ≠ 1 → ¬ act.touches (goPlace 1) ∧
      act.after.get? (goPlace 1) = act.before.get? (goPlace 1)) ∧
    (goFiles [(1, goDriver)]).pathExists [] (goPlace 0).path = false := by
  have hbound : 2 ≤ 2 ^ 64 := by decide
  obtain ⟨hdrivers, hothers, hremoved⟩ := goRun.isolated hbound rfl goPrepared
  refine ⟨goRun, hbound, rfl, goPrepared, ?_, fun act hact hwho => ?_, ?_⟩
  · refine hdrivers 1 ⟨goPlanned 1, .writing []⟩ rfl rfl ⟨(goPlace 1).path, goContents⟩
      (List.mem_singleton.2 rfl) ?_
    intro act hact hwho htools
    simp only [goActs, List.mem_cons, List.not_mem_nil, or_false] at hact
    rcases hact with rfl | rfl | rfl | rfl | rfl <;> contradiction
  · obtain ⟨hunchanged, hapart⟩ := hothers act hact
    have htouched := hapart 1 ⟨goPlanned 1, .writing []⟩ rfl hwho (goPlace 1)
      (.inl (List.mem_singleton.2 rfl))
    exact ⟨htouched, hunchanged _ htouched⟩
  · refine hremoved 0 ⟨goPlanned 0, .removing []⟩ rfl rfl ?_ _ (List.mem_singleton.2 rfl)
    intro act hact hwho htools
    simp only [goActs, List.mem_cons, List.not_mem_nil, or_false] at hact
    rcases hact with rfl | rfl | rfl | rfl | rfl <;> try contradiction
    refine ⟨fun l hl hd => ?_, fun l hl => ?_⟩
    · obtain rfl : l = goPlace 0 := List.mem_singleton.1 hl
      exact absurd hd (by decide)
    · exact absurd hl List.not_mem_nil

theorem Run.drawMany (hr : start.Run draws acts h) (n : Nat) :
    start.Run (draws + n) acts { h with drawn := h.drawn + .ofNat n } := by
  induction n with
  | zero => simpa using hr
  | succ n ih =>
      have hstep := ih.step .draw
      rw [List.append_nil] at hstep
      rwa [← drawn_succ rfl]

/-- The count has come round: a second execution is begun with the id of the first. -/
def goTwins (drivers : List (Nat × Entry)) (phase : Phase) : Host where
  files := goFiles drivers
  cwd := []
  pid := 1
  drawn := 1
  executions := [⟨goPlanned 0, goWriting 0⟩, ⟨goPlanned 0, phase⟩]

theorem goTwins_run :
    (goHost [] []).Run (2 ^ 64 + 1) [goAct 1 (goWrite 0) [] [(0, goDriver)]]
      (goTwins [(0, goDriver)] (.writing [])) := by
  have hround := (Run.start.step (goLaunch [])).drawMany (2 ^ 64 - 1)
  have hlaunch : ({ goHost [] [goWriting 0] with
      drawn := (goHost [] [goWriting 0]).drawn + .ofNat (2 ^ 64 - 1) } : Host).Step 1 []
      (goTwins [] (goWriting 0)) :=
    .launch (m := goMachine [] 0) (x := goPlanned 0) ⟨rfl, rfl, rfl, rfl⟩ rfl
  have hwrite : (goTwins [] (goWriting 0)).Step 0 [goAct 1 (goWrite 0) [] [(0, goDriver)]]
      (goTwins [(0, goDriver)] (.writing [])) :=
    .act (i := 1) (e := ⟨goPlanned 0, goWriting 0⟩) rfl (.write none rfl rfl)
  exact (hround.step hlaunch).step hwrite

/-- The conditions are needed: the programs of an execution can change its driver, and they can put
a directory in its place, which stays; it stays as well if it was there before; and with one id more
than there are counts, an execution can touch the driver of another. -/
theorem Run.not_isolated :
    (⟨(goPlace 0).path, goContents⟩ : ScratchFile) ∈ (goPlanned 0).plan.files ∧
    (∀ drivers, (goFiles drivers).IsTree ∧
      (goFiles drivers).isDirectoryAt [] (goPlanned 0).context.home = true) ∧
    (∃ acts changed, (goHost [] []).Run 1 acts (goHost [(0, changed)] [.writing []]) ∧
      (goFiles [(0, changed)]).read [] (goPlace 0).path ≠ .ok (Utf8.encode goContents)) ∧
    (∃ acts, (goHost [] []).Run 1 acts (goHost [(0, .directory)] [.removing []]) ∧
      (goFiles [(0, .directory)]).pathExists [] (goPlace 0).path = true) ∧
    (∃ acts, (goHost [(0, .directory)] []).Run 1 acts (goHost [(0, .directory)] [.removing []]) ∧
      (∀ act ∈ acts, act.byTools = false) ∧
      (goFiles [(0, .directory)]).pathExists [] (goPlace 0).path = true) ∧
    ∃ acts, (goHost [] []).Run (2 ^ 64 + 1) acts (goTwins [(0, goDriver)] (.writing [])) ∧
      ∃ act ∈ acts, act.who = 1 ∧ act.byTools = false ∧ act.touches (goPlace 0) := by
  have hwrite : (goHost [] [goWriting 0]).Step 0 [goAct 0 (goWrite 0) [] [(0, goDriver)]]
      (goHost [(0, goDriver)] [.writing []]) :=
    .act (i := 0) (e := ⟨goPlanned 0, goWriting 0⟩) rfl (.write none rfl rfl)
  have hwritten := (Run.start.step (goLaunch [])).step hwrite
  have htools (changed : Entry) : (goHost [(0, goDriver)] [.writing []]).Step 0
      [goTools [(0, goDriver)] [(0, changed)]] (goHost [(0, changed)] [.writing []]) :=
    .act (i := 0) (e := ⟨goPlanned 0, .writing []⟩) rfl (goTools_moves _ _ _)
  have hstop : (goHost [(0, .directory)] [.writing []]).Step 0 [goStop [(0, .directory)]]
      (goHost [(0, .directory)] [goRemoving 0]) :=
    .act (i := 0) (e := ⟨goPlanned 0, .writing []⟩) rfl (.stop rfl)
  have hfail : (goHost [(0, .directory)] [goWriting 0]).Step 0
      [goAct 0 (goWrite 0) [(0, .directory)] [(0, .directory)]]
      (goHost [(0, .directory)] [goRemoving 0]) :=
    .act (i := 0) (e := ⟨goPlanned 0, goWriting 0⟩) rfl (.fail none rfl rfl)
  have hremove : (goHost [(0, .directory)] [goRemoving 0]).Step 0
      [goAct 0 (goRemove 0) [(0, .directory)] [(0, .directory)]]
      (goHost [(0, .directory)] [.removing []]) :=
    .act (i := 0) (e := ⟨goPlanned 0, goRemoving 0⟩) rfl (.remove rfl rfl)
  refine ⟨List.mem_singleton.2 rfl, fun drivers => ⟨isTree_goFiles drivers, rfl⟩, ?_, ?_, ?_, ?_⟩
  · refine ⟨_, .file (0 :: Utf8.encode goContents) false, hwritten.step (htools _), ?_⟩
    have hread : (goFiles [(0, .file (0 :: Utf8.encode goContents) false)]).read []
        (goPlace 0).path = .ok (0 :: Utf8.encode goContents) := rfl
    rw [hread]
    simp
  · exact ⟨_, ((hwritten.step (htools _)).step hstop).step hremove, rfl⟩
  · refine ⟨_, ((Run.start.step (goLaunch _)).step hfail).step hremove, ?_, rfl⟩
    simp [goAct]
  · refine ⟨_, goTwins_run, _, List.mem_singleton.2 rfl, rfl, rfl, .inl (.of_locate ?_)⟩
    rfl

end Host

end SoloCall
