import SoloCall.Proofs.Text.Replace
import SoloCall.Proofs.Text.Split

namespace SoloCall.Text

variable {sep : Char} {t part a b x y : Text}

theorem exists_mem_split_of_infix (h : sep ∉ part) (hp : part <:+: t) :
    ∃ piece ∈ split sep t, part <:+: piece := by
  induction t with
  | nil => exact ⟨[], List.mem_singleton_self [], hp⟩
  | cons c r ih =>
      obtain ⟨piece, rest, hr⟩ := List.exists_cons_of_ne_nil (split_ne_nil sep r)
      have hjoin := join_split sep r
      rw [hr] at hjoin ih
      by_cases hc : c = sep
      · subst hc
        rw [split_cons_sep, hr]
        rcases List.infix_cons_iff.1 hp with hprefix | hinfix
        · have hnil : part <+: [] := prefix_of_prefix_append_cons (a := []) h hprefix
          exact ⟨[], List.mem_cons_self, hnil.isInfix⟩
        · obtain ⟨found, hfound, hi⟩ := ih hinfix
          exact ⟨found, List.mem_cons_of_mem _ hfound, hi⟩
      · rw [split_cons_of_ne hc, hr]
        rcases List.infix_cons_iff.1 hp with hprefix | hinfix
        · refine ⟨c :: piece, List.mem_cons_self, List.IsPrefix.isInfix ?_⟩
          cases rest with
          | nil => rwa [show r = piece from hjoin.symm] at hprefix
          | cons next rest =>
              rw [join_cons_cons, List.append_assoc] at hjoin
              rw [← hjoin] at hprefix
              exact prefix_of_prefix_append_cons (a := c :: piece) h hprefix
        · obtain ⟨found, hfound, hi⟩ := ih hinfix
          rcases List.mem_cons.1 hfound with rfl | hfound
          · exact ⟨c :: found, List.mem_cons_self, List.infix_cons hi⟩
          · exact ⟨found, List.mem_cons_of_mem _ hfound, hi⟩

theorem infix_of_mem_split {piece : Text} (h : piece ∈ split sep t) : piece <:+: t := by
  obtain ⟨before, after, hs⟩ := List.append_of_mem h
  rw [← join_split sep t, hs]
  clear h hs
  induction before with
  | nil =>
      cases after with
      | nil => exact List.infix_rfl
      | cons next rest =>
          rw [List.nil_append, join_cons_cons, List.append_assoc]
          exact (List.prefix_append _ _).isInfix
  | cons first rest ih =>
      obtain ⟨second, others, hne⟩ : ∃ second others, rest ++ piece :: after = second :: others :=
        List.exists_cons_of_ne_nil (by simp)
      rw [List.cons_append, hne, join_cons_cons]
      rw [hne] at ih
      exact ih.trans (List.suffix_append _ _).isInfix

/-- An occurrence whose first `c` is not the first of the text lies behind that one. -/
theorem infix_append_cons {c : Char} (ha : c ∉ a) (hx : c ∉ x)
    (h : a ++ c :: b <:+: x ++ c :: y) : a <:+ x ∧ b <+: y ∨ a ++ c :: b <:+: y := by
  obtain ⟨p, q, hpq⟩ := h
  have hcut : (p ++ a) ++ c :: (b ++ q) = x ++ c :: y := by simpa using hpq
  rcases List.append_eq_append_iff.1 hcut with ⟨s, hleft, hright⟩ | ⟨s, hleft, hright⟩
  · cases s with
    | nil =>
        obtain ⟨-, hy⟩ := List.cons.inj (show c :: (b ++ q) = c :: y from hright)
        exact Or.inl ⟨⟨p, by simpa using hleft.symm⟩, ⟨q, hy⟩⟩
    | cons d s =>
        obtain ⟨rfl, -⟩ := List.cons.inj hright
        exact absurd (by simp [hleft]) hx
  · cases s with
    | nil =>
        obtain ⟨-, hy⟩ := List.cons.inj (show c :: y = c :: (b ++ q) from hright)
        exact Or.inl ⟨⟨p, by simpa using hleft⟩, ⟨q, hy.symm⟩⟩
    | cons d s =>
        obtain ⟨rfl, hy⟩ := List.cons.inj hright
        right
        have hsuffix : a <:+ s := by
          rcases List.suffix_or_suffix_of_suffix (List.suffix_append p a)
            (hleft ▸ List.suffix_append x (c :: s)) with hlong | hshort
          · obtain ⟨u, hu⟩ := hlong
            cases u with
            | nil => exact absurd (by simp [show a = c :: s from hu]) ha
            | cons e u =>
                obtain ⟨-, hs⟩ := List.cons.inj hu
                exact ⟨u, hs⟩
          · exact absurd (hshort.subset List.mem_cons_self) ha
        obtain ⟨u, rfl⟩ := hsuffix
        exact ⟨u, q, by simp [hy]⟩

end SoloCall.Text
