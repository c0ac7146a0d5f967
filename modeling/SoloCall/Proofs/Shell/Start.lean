import SoloCall.Shell.Start

namespace SoloCall.Shell

variable {limit : Nanos} {m : Machine} {status : ExitStatus} {output diagnostics : Bytes}
  {after : Except Flow (ExitStatus × Bytes × Bytes) × Session}

theorem exists_seen_eq (limit : Nanos) (m : Machine)
    (after : Except Flow (ExitStatus × Bytes × Bytes) × Session) :
    ∃ s, (seen limit m after).2 = leave m s := by
  obtain ⟨result, s⟩ := after
  cases result with
  | error flow => exact ⟨_, rfl⟩
  | ok ended =>
      simp only [seen]
      split <;> exact ⟨s, rfl⟩

theorem seen_clock_le (h : (seen limit m after).1 = .finished status output diagnostics) :
    (seen limit m after).2.clock ≤ m.clock + limit := by
  obtain ⟨result, s⟩ := after
  cases result with
  | error flow => cases h
  | ok ended =>
      simp only [seen] at h ⊢
      split at h
      · rename_i hearly
        rw [if_pos hearly]
        exact Nat.max_le.2 ⟨Nat.le_add_right _ _, hearly⟩
      · cases h

theorem start_cases (inv : Invocation) (limit : Nanos) (m : Machine) :
    (∃ reason, start inv limit m = (.notStarted reason, m)) ∨
      ∃ after, start inv limit m = seen limit m after := by
  rw [start]
  cases prepare inv m with
  | error reason => exact .inl ⟨reason, rfl⟩
  | ok prepared => exact .inr ⟨_, rfl⟩

/-- A run leaves other files and a later time, and the machine is the same in all else. -/
theorem exists_start_eq (inv : Invocation) (limit : Nanos) (m : Machine) :
    ∃ files clock, m.clock ≤ clock ∧
      (start inv limit m).2 = { m with files := files, clock := clock } := by
  rcases start_cases inv limit m with ⟨reason, h⟩ | ⟨after, h⟩
  · exact ⟨m.files, m.clock, Nat.le_refl _, by rw [h]⟩
  · obtain ⟨s, hleft⟩ := exists_seen_eq limit m after
    exact ⟨s.files, max m.clock s.clock, Nat.le_max_left _ _, by rw [h, hleft, leave]⟩

theorem clock_le_start (inv : Invocation) (limit : Nanos) (m : Machine) :
    m.clock ≤ (start inv limit m).2.clock := by
  obtain ⟨files, clock, hclock, heq⟩ := exists_start_eq inv limit m
  rw [heq]
  exact hclock

theorem start_clock_le {inv : Invocation}
    (h : (start inv limit m).1 = .finished status output diagnostics) :
    (start inv limit m).2.clock ≤ m.clock + limit := by
  rcases start_cases inv limit m with ⟨reason, hstart⟩ | ⟨after, hstart⟩
  · rw [hstart] at h
    cases h
  · rw [hstart] at h ⊢
    exact seen_clock_le h

end SoloCall.Shell
