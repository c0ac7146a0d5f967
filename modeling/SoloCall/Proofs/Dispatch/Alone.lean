import SoloCall.Proofs.Dispatch.Interleaving
import SoloCall.Proofs.Dispatch.Restoration

namespace SoloCall

open FileSystem Driver

namespace Host

variable {start h : Host} {draws : Nat} {acts : List Act} {x : Planned} {fs : FileSystem}

def idle (m : Machine) : Host := ⟨m.files, m.cwd, m.pid, m.drawn, []⟩

def busy (m : Machine) (x : Planned) (fs : FileSystem) (phase : Phase) : Host :=
  ⟨fs, m.cwd, m.pid, m.drawn + 1, [⟨x, phase⟩]⟩

theorem busy_step {m : Machine} {fs' : FileSystem} {byTools : Bool} {touches : Location → Prop}
    {phase phase' : Phase} (hm : Execution.Moves ⟨x, phase⟩ m.cwd fs byTools touches phase' fs') :
    (busy m x fs phase).Step 0 [⟨0, byTools, touches, fs, fs'⟩] (busy m x fs' phase') :=
  .act (i := 0) (e := ⟨x, phase⟩) rfl hm

theorem Run.writeAll {m : Machine} {steps : List FileStep} (device : Device)
    (hr : start.Run draws acts (busy m x fs (.writing steps))) :
    ∃ acts', start.Run draws acts' (busy m x (FileStep.actAll device m.cwd steps fs).2
      (match (FileStep.actAll device m.cwd steps fs).1 with
        | none => .writing []
        | some _ => .removing x.plan.tracked.removal)) := by
  induction steps generalizing acts fs with
  | nil => exact ⟨acts, hr⟩
  | cons step rest ih =>
      rw [FileStep.actAll]
      cases hact : step.act m.cwd fs (device fs step.path) with
      | mk error? fs' =>
          cases error? with
          | none => exact ih (hr.step (busy_step (.write _ rfl hact)))
          | some error => exact ⟨_, hr.step (busy_step (.fail _ rfl hact))⟩

theorem Run.removeAll {m : Machine} {steps : List FileStep}
    (hr : start.Run draws acts (busy m x fs (.removing steps))) :
    ∃ acts', start.Run draws acts'
      (busy m x (FileStep.actRegardless m.cwd steps fs) (.removing [])) := by
  induction steps generalizing acts fs with
  | nil => exact ⟨acts, hr⟩
  | cons step rest ih => exact ih (hr.step (busy_step (.remove rfl rfl)))

end Host

namespace Dispatcher

open Host

variable {d : Dispatcher} {s : Surroundings} {m : Machine} {acts : List Act} {x : Planned}

theorem buildAndRun_run {dir : Location}
    (h : Housed m.files m.cwd dir x.context.home x.context.scratchId x.plan)
    (hs : s.KeepsTo x.plan m) (language : Language)
    (hr : (idle m).Run 1 acts (busy m x m.files (.writing x.plan.writing))) :
    ∃ acts', (idle m).Run 1 acts' (busy m x
      (d.buildAndRun s language x.plan (drawId m).2).2.2.files
      (.removing x.plan.tracked.removal)) := by
  have ha := h.actAll_allowed (fun _ hstep => hstep) (.refl _ m.files) s.device
  obtain ⟨acts', hwritten⟩ := hr.writeAll s.device
  simp only [buildAndRun, ScratchSet.materialize, drawId]
  cases hact : FileStep.actAll s.device m.cwd x.plan.writing m.files with
  | mk error? files =>
      rw [hact] at ha hwritten
      cases error? with
      | some error => exact ⟨acts', hwritten⟩
      | none =>
          have hk := h.keepsDirectories (fun _ hd => hd) ha.changesOnly
          have hrun := Surroundings.runSequence_admitted hs (d.limitFor language)
            (m := { m with files := files, drawn := m.drawn + 1 }) ⟨rfl, ha⟩
          have hchange := hrun.files.changesOnly
          rw [← h.territory_eq hk] at hchange
          have htools := hwritten.step (busy_step (.tools rfl (fun _ hl => hl) hchange.outside
            hchange.tree))
          have hstopped := htools.step (busy_step (.stop rfl))
          dsimp only
          split <;> rename_i heq <;> rw [heq] at hstopped <;> exact ⟨_, hstopped⟩

/-- What the dispatcher does to the files, an execution among others can do, step by step. -/
theorem execute_run (d : Dispatcher) (s : Surroundings) (r : Request) (m : Machine)
    (tree : m.files.IsTree)
    (fresh : ∀ p, d.planFor? r m = some p → ∀ a ∈ p.artifacts,
      m.files.pathExists m.cwd a = false)
    (tools : ∀ p, d.planFor? r m = some p → s.KeepsTo p m) :
    ∃ draws acts h, (idle m).Run draws acts h ∧ draws ≤ 1 ∧ (∀ e ∈ h.executions, e.phase = .removing []) ∧
      h.files = (d.execute s r m).2.files := by
  rw [execute]
  rw [planFor?] at fresh tools
  cases hv : validate r m with
  | error failure => exact ⟨0, [], idle m, .start, by simp, by simp [idle], rfl⟩
  | ok source =>
      obtain ⟨path, text⟩ := source
      simp only [hv] at fresh tools ⊢
      cases hp : (d.context r path text (drawId m).1).plan with
      | error e => exact ⟨1, _, _, Run.start.step .draw, by simp, by simp [idle], rfl⟩
      | ok p =>
          simp only [hp, Except.toOption, Option.some.injEq, forall_eq'] at fresh tools ⊢
          have hlaunch : (idle m).Step 1 [] (busy m ⟨_, p, hp⟩ m.files (.writing p.writing)) :=
            .launch (m := m) (x := ⟨_, p, hp⟩) ⟨rfl, rfl, rfl, rfl⟩ rfl
          have hlaunched := Run.start.step hlaunch
          rcases housed_or_lost tree hv hp fresh with ⟨dir, h⟩ | ⟨⟨e, hlost⟩, -⟩
          · have ha := buildAndRun_admitted (d := d) h tools r.language
              (m := (drawId m).2) ⟨rfl, .refl _ _⟩
            obtain ⟨acts, hrun⟩ := buildAndRun_run (d := d) h tools r.language hlaunched
            obtain ⟨acts', hdone⟩ := hrun.removeAll
            refine ⟨_, acts', _, hdone, by simp, by simp [busy], ?_⟩
            simp only [settle_eq_cleanup, ScratchSet.cleanup, buildAndRun_tracked, ha.cwd, busy]
          · rw [buildAndRun_lost (m := (drawId m).2) r.language hlost]
            obtain ⟨acts, hrun⟩ := hlaunched.writeAll s.device
            rw [hlost] at hrun
            obtain ⟨acts', hdone⟩ := hrun.removeAll
            refine ⟨_, acts', _, hdone, by simp, by simp [busy], ?_⟩
            rw [settle_eq_cleanup]
            rfl

end Dispatcher

end SoloCall
