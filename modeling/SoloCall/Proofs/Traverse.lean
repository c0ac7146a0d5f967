import Mathlib.Data.List.Forall2

namespace SoloCall

variable {α β γ : Type} {f : α → Option β} {xs : List α} {ys : List β}

theorem mapM_eq_some_iff :
    xs.mapM f = some ys ↔ List.Forall₂ (fun x y => f x = some y) xs ys := by
  induction xs generalizing ys with
  | nil => cases ys <;> simp
  | cons x xs ih =>
      rw [List.mapM_cons]
      simp only [Option.bind_eq_bind, Option.bind_eq_some_iff, ih]
      constructor
      · rintro ⟨y, hy, rest, hrest, h⟩
        obtain rfl := Option.some.inj h
        exact .cons hy hrest
      · rintro (_ | ⟨hy, hrest⟩)
        exact ⟨_, hy, _, hrest, rfl⟩

theorem mapM_eq_none_iff : xs.mapM f = none ↔ ∃ x ∈ xs, f x = none := by
  induction xs with
  | nil => simp
  | cons x xs ih =>
      rw [List.mapM_cons]
      simp only [List.mem_cons, exists_eq_or_imp, ← ih]
      cases f x <;> cases xs.mapM f <;> simp

theorem mapM_id_eq_some_iff {us : List (Option α)} : us.mapM id = some xs ↔ us = xs.map some := by
  rw [mapM_eq_some_iff, ← List.forall₂_eq_eq_eq, List.forall₂_map_right_iff]
  rfl

theorem mapM_map_eq_map {write : α → β} {read? : β → Option γ} {g : α → γ}
    (h : ∀ x ∈ xs, read? (write x) = some (g x)) :
    (xs.map write).mapM read? = some (xs.map g) := by
  rw [mapM_eq_some_iff, List.forall₂_map_left_iff, List.forall₂_map_right_iff]
  exact List.forall₂_same.2 h

theorem mapM_map_eq_some {write : α → β} {read? : β → Option α}
    (h : ∀ x ∈ xs, read? (write x) = some x) : (xs.map write).mapM read? = some xs := by
  rw [mapM_map_eq_map (g := id) h, List.map_id]

end SoloCall
