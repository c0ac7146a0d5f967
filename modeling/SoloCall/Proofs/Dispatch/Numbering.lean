import Mathlib.Algebra.Group.Nat.Defs
import Mathlib.Data.List.Nodup
import Mathlib.Logic.Function.Basic
import SoloCall.Dispatch.Execute
import SoloCall.Proofs.Driver.Artifacts

namespace SoloCall

/-- The next count of every process, by the process number. A count has 64 bits: behind the last
one it starts again. -/
abbrev Counts := Nat → UInt64

namespace Counts

variable {counts : Counts} {calls : List Machine} {id : Text}

def zero : Counts := fun _ => 0

def draw (counts : Counts) (m : Machine) : Text × Counts :=
  let (id, m) := Dispatcher.drawId { m with drawn := counts m.pid }
  (id, Function.update counts m.pid m.drawn)

def drawAll (counts : Counts) : List Machine → List Text
  | [] => []
  | m :: rest => (counts.draw m).1 :: (counts.draw m).2.drawAll rest

theorem length_drawAll (counts : Counts) (calls : List Machine) :
    (counts.drawAll calls).length = calls.length := by
  induction calls generalizing counts with
  | nil => rfl
  | cons m rest ih => rw [drawAll, List.length_cons, List.length_cons, ih]

theorem draw_fst (counts : Counts) (m : Machine) :
    (counts.draw m).1 = scratchId (m.epoch + m.clock / 1000000) m.pid (counts m.pid).toNat := rfl

theorem draw_snd (counts : Counts) (m : Machine) :
    (counts.draw m).2 = Function.update counts m.pid (counts m.pid + 1) := rfl

theorem toNat_draw_self (counts : Counts) (m : Machine) :
    ((counts.draw m).2 m.pid).toNat = ((counts m.pid).toNat + 1) % 2 ^ 64 := by
  rw [draw_snd, Function.update_self, UInt64.toNat_add, UInt64.toNat_one]

theorem draw_of_ne (counts : Counts) {m : Machine} {pid : Nat} (h : pid ≠ m.pid) :
    (counts.draw m).2 pid = counts pid := by
  rw [draw_snd, Function.update_of_ne h]

/-- Every process has a count left for each of the draws. -/
def Suffice (counts : Counts) (draws : Nat) : Prop := ∀ pid, (counts pid).toNat + draws ≤ 2 ^ 64

theorem Suffice.draw {draws : Nat} (h : counts.Suffice (draws + 1)) (m : Machine) :
    (counts.draw m).2.Suffice draws := by
  intro pid
  have hleft := h pid
  by_cases hp : pid = m.pid
  · subst hp
    have hwrap := Nat.mod_le ((counts m.pid).toNat + 1) (2 ^ 64)
    rw [toNat_draw_self]
    omega
  · rw [draw_of_ne counts hp]
    omega

theorem Suffice.toNat_draw_self (h : counts.Suffice (calls.length + 1)) {later : Counts}
    (hid : id ∈ later.drawAll calls) (m : Machine) :
    ((counts.draw m).2 m.pid).toNat = (counts m.pid).toNat + 1 := by
  have hmore := List.length_pos_of_mem hid
  rw [length_drawAll] at hmore
  have hleft := h m.pid
  rw [Counts.toNat_draw_self, Nat.mod_eq_of_lt (by omega)]

theorem numbered_of_mem_drawAll (h : counts.Suffice calls.length)
    (hid : id ∈ counts.drawAll calls) :
    ∃ millis pid count, id = scratchId millis pid count ∧ (counts pid).toNat ≤ count := by
  induction calls generalizing counts with
  | nil => cases hid
  | cons m rest ih =>
      rw [drawAll, List.mem_cons] at hid
      rcases hid with rfl | hid
      · exact ⟨_, m.pid, _, draw_fst counts m, Nat.le_refl _⟩
      · obtain ⟨millis, pid, count, rfl, hcount⟩ := ih (h.draw m) hid
        refine ⟨millis, pid, count, rfl, ?_⟩
        by_cases hp : pid = m.pid
        · subst hp
          rw [h.toNat_draw_self hid] at hcount
          exact Nat.le_of_succ_le hcount
        · rwa [draw_of_ne counts hp] at hcount

theorem nodup_drawAll (h : counts.Suffice calls.length) : (counts.drawAll calls).Nodup := by
  induction calls generalizing counts with
  | nil => exact List.nodup_nil
  | cons m rest ih =>
      rw [drawAll, List.nodup_cons]
      refine ⟨fun hid => ?_, ih (h.draw m)⟩
      obtain ⟨millis, pid, count, hsame, hcount⟩ := numbered_of_mem_drawAll (h.draw m) hid
      obtain ⟨-, rfl, rfl⟩ := scratchId_injective (draw_fst counts m ▸ hsame)
      rw [h.toNat_draw_self hid] at hcount
      exact Nat.not_succ_le_self _ hcount

end Counts

namespace Driver

variable {c c' : Context} {p p' : Plan}

def Plan.NamedApart (p p' : Plan) : Prop := ∀ a ∈ p.artifacts, ∀ a' ∈ p'.artifacts,
  ∃ name name', Path.fileName? a = some name ∧ Path.fileName? a' = some name' ∧ name ≠ name'

theorem plan_namedApart (h : c.plan = .ok p) (h' : c'.plan = .ok p')
    (hid : IsScratchId c.scratchId) (hid' : IsScratchId c'.scratchId)
    (hne : c.scratchId ≠ c'.scratchId) : p.NamedApart p' := by
  intro a ha a' ha'
  obtain ⟨name, hn, hin, rfl⟩ := (plan_liesIn h).exists_idIn hid ha
  obtain ⟨name', hn', hin', rfl⟩ := (plan_liesIn h').exists_idIn hid' ha'
  refine ⟨name, name', Path.fileName?_join hn _, Path.fileName?_join hn' _, ?_⟩
  rintro rfl
  exact hne (hin.symm.trans hin')

theorem nodup_join_pair {name name' : Text} (hn : Path.IsName name) (hn' : Path.IsName name')
    (hne : name ≠ name') (home : Path) : [Path.join home name, Path.join home name'].Nodup := by
  rw [List.nodup_cons, List.mem_singleton]
  refine ⟨fun he => ?_, List.nodup_singleton _⟩
  have hnames := Path.fileName?_join hn home
  rw [he, Path.fileName?_join hn' home] at hnames
  exact hne (Option.some.inj hnames).symm

theorem nodup_javaPlan (hid : IsScratchId c.scratchId) (place : Place) :
    (c.javaPlan place).artifacts.Nodup := by
  have hfile := isFileName_runner c.scratchId ".java".toList (by decide)
  have htree : IsTreeName c.scratchId ("sentinel_classes_".toList ++ c.scratchId) := rfl
  refine nodup_join_pair (hfile.isName hid) (htree.isName hid) (fun he => ?_) place.directory
  exact hfile.not_isTreeName hid hid (he ▸ htree)

theorem nodup_nativePlan (hid : IsScratchId c.scratchId) (compiler : Tool) (flags : List Text)
    {extension : String} (contents : Text) (place : Place)
    (he : '.' :: extension.toList ∈ endings) :
    (c.nativePlan compiler flags extension contents place).artifacts.Nodup := by
  have hfile := (isFileName_driver c.scratchId _ he).isName hid
  have hprogram := (isFileName_program c.scratchId).isName hid
  exact nodup_join_pair hfile hprogram (by simp) place.directory

theorem nodup_artifacts (h : c.plan = .ok p) (hid : IsScratchId c.scratchId) :
    p.artifacts.Nodup := by
  obtain ⟨place, -, hplan⟩ := plan_cases h
  cases hplan with
  | python | go | javascript | typescript => exact List.nodup_singleton _
  | java => exact nodup_javaPlan hid place
  | c | cpp => exact nodup_nativePlan hid _ _ _ place (by decide)

end Driver

/-- Any number of processes with zero counts draw at most as many ids as there are counts, in any
order and at any time. -/
theorem drawAll_distinct (calls : List Machine) (h : calls.length ≤ 2 ^ 64) :
    (Counts.zero.drawAll calls).Nodup ∧
      (∀ id ∈ Counts.zero.drawAll calls, ∀ c ∈ id, c.isDigit = true ∨ c = '_') ∧
      (∀ c c' : Driver.Context, c.scratchId ∈ Counts.zero.drawAll calls →
        c'.scratchId ∈ Counts.zero.drawAll calls → c.scratchId ≠ c'.scratchId →
        ∀ p p', c.plan = .ok p → c'.plan = .ok p' → p.NamedApart p') ∧
      ∀ c : Driver.Context, c.scratchId ∈ Counts.zero.drawAll calls →
        ∀ p, c.plan = .ok p → p.artifacts.Nodup := by
  have hsuffice : Counts.zero.Suffice calls.length := by
    intro pid
    rwa [Counts.zero, UInt64.toNat_zero, Nat.zero_add]
  have hid : ∀ id ∈ Counts.zero.drawAll calls, IsScratchId id := by
    intro id hm
    obtain ⟨millis, pid, count, rfl, -⟩ := Counts.numbered_of_mem_drawAll hsuffice hm
    exact isScratchId_scratchId millis pid count
  refine ⟨Counts.nodup_drawAll hsuffice, fun id hm => (hid id hm).chars, ?_, ?_⟩
  · intro c c' hc hc' hne p p' hp hp'
    exact Driver.plan_namedApart hp hp' (hid _ hc) (hid _ hc') hne
  · intro c hc p hp
    exact Driver.nodup_artifacts hp (hid _ hc)

def twoProcesses : List Machine := [
  { files := ⟨[]⟩, clock := 5000000, pid := 7 }, { files := ⟨[]⟩, clock := 4000000, pid := 42 },
  { files := ⟨[]⟩, clock := 3000000, pid := 7 }]

def numberedContext (language : Language) (id : Text) : Driver.Context where
  language := language
  function := "f".toList
  args := []
  source := ⟨"/w/m.c".toList, .exact⟩
  sourceText := []
  scratchId := id
  scratchDirectory := "/t".toList
  toolchain := {}

theorem drawAll_distinct_twoProcesses : twoProcesses.length ≤ 2 ^ 64 ∧
    Counts.zero.drawAll twoProcesses = ["5_7_0".toList, "4_42_0".toList, "3_7_1".toList] ∧
    (Counts.zero.drawAll twoProcesses).Nodup ∧
    ∃ p p', (numberedContext .c "4_42_0".toList).plan = .ok p ∧
      (numberedContext .java "3_7_1".toList).plan = .ok p' ∧ p.NamedApart p' ∧
      p.artifacts.Nodup ∧ p'.artifacts.Nodup := by
  have hlength : twoProcesses.length ≤ 2 ^ 64 := by decide
  have hids : Counts.zero.drawAll twoProcesses =
      ["5_7_0".toList, "4_42_0".toList, "3_7_1".toList] := by rfl
  obtain ⟨hnodup, -, hapart, hown⟩ := drawAll_distinct twoProcesses hlength
  have hc : (numberedContext .c "4_42_0".toList).scratchId ∈
      Counts.zero.drawAll twoProcesses := by rw [hids]; decide
  have hc' : (numberedContext .java "3_7_1".toList).scratchId ∈
      Counts.zero.drawAll twoProcesses := by rw [hids]; decide
  exact ⟨hlength, hids, hnodup, _, _, rfl, rfl, hapart _ _ hc hc' (by decide) _ _ rfl rfl,
    hown _ hc _ rfl, hown _ hc' _ rfl⟩

end SoloCall
