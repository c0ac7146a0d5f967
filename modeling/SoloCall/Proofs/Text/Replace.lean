import Mathlib.Data.List.Infix
import SoloCall.Text.Basic

namespace SoloCall

namespace Text

variable {old new t a b : Text} {c : Char}

theorem startsWith_iff_prefix : startsWith old t = true ↔ old <+: t := by
  rw [startsWith, Option.isSome_iff_exists]
  constructor
  · rintro ⟨r, hr⟩
    exact ⟨r, (after?_eq_some_iff.1 hr).symm⟩
  · rintro ⟨r, rfl⟩
    exact ⟨r, after?_append old r⟩

theorem hasPart_iff_infix : hasPart old t = true ↔ old <:+: t := by
  induction t with
  | nil => simp [hasPart]
  | cons c r ih => rw [hasPart, Bool.or_eq_true, startsWith_iff_prefix, ih, List.infix_cons_iff]

theorem replaceFrom_eq_drop (old new : Text) (skip : Nat) (t : Text) :
    replaceFrom old new skip t = replaceAll old new (t.drop skip) := by
  induction t generalizing skip with
  | nil => cases skip <;> simp [replaceAll, replaceFrom]
  | cons c r ih =>
      cases skip with
      | zero => rfl
      | succ skip => rw [replaceFrom, ih, List.drop_succ_cons]

theorem replaceAll_nil (old new : Text) : replaceAll old new [] = [] := rfl

theorem replaceAll_cons (h : ¬ old <+: c :: t) (new : Text) :
    replaceAll old new (c :: t) = c :: replaceAll old new t := by
  rw [← startsWith_iff_prefix] at h
  rw [replaceAll, replaceFrom, if_neg h]
  rfl

theorem replaceAll_append_self (hne : old ≠ []) (new t : Text) :
    replaceAll old new (old ++ t) = new ++ replaceAll old new t := by
  cases old with
  | nil => exact absurd rfl hne
  | cons c r =>
      have hstarts : startsWith (c :: r) (c :: (r ++ t)) = true :=
        startsWith_iff_prefix.2 (List.prefix_append (c :: r) t)
      rw [List.cons_append, replaceAll, replaceFrom, if_pos hstarts, replaceFrom_eq_drop]
      simp

theorem replaceAll_self (hne : old ≠ []) (new : Text) : replaceAll old new old = new := by
  have h := replaceAll_append_self hne new []
  rwa [List.append_nil, replaceAll_nil, List.append_nil] at h

theorem replaceAll_induction {P : Text → Prop} (hne : old ≠ []) (nil : P [])
    (occurrence : ∀ t, P t → P (old ++ t))
    (character : ∀ c t, ¬ old <+: c :: t → P t → P (c :: t)) (t : Text) : P t := by
  induction h : t.length using Nat.strong_induction_on generalizing t with
  | _ size ih =>
      have hpos := List.length_pos_of_ne_nil hne
      by_cases hp : old <+: t
      · obtain ⟨r, rfl⟩ := hp
        rw [List.length_append] at h
        exact occurrence r (ih r.length (by omega) r rfl)
      · cases t with
        | nil => exact nil
        | cons c r =>
            rw [List.length_cons] at h
            exact character c r hp (ih r.length (by omega) r rfl)

theorem replaceAll_of_not_infix (hne : old ≠ []) (h : ¬ old <:+: t) (new : Text) :
    replaceAll old new t = t := by
  induction t using replaceAll_induction hne with
  | nil => rfl
  | occurrence t ih => exact absurd (List.prefix_append old t).isInfix h
  | character c t hc ih =>
      rw [replaceAll_cons hc, ih fun hi => h (List.infix_cons hi)]

theorem prefix_of_prefix_append_cons (hc : c ∉ old) (h : old <+: a ++ c :: b) : old <+: a := by
  rcases List.prefix_or_prefix_of_prefix h (List.prefix_append a (c :: b)) with hp | ⟨s, rfl⟩
  · exact hp
  · have hs : s <+: c :: b := (List.prefix_append_right_inj a).1 h
    cases s with
    | nil => simp
    | cons d s =>
        obtain ⟨rfl, -⟩ := List.cons_prefix_cons.1 hs
        exact absurd (by simp) hc

theorem replaceAll_append_cons (hne : old ≠ []) (hc : c ∉ old) (new a b : Text) :
    replaceAll old new (a ++ c :: b) = replaceAll old new a ++ c :: replaceAll old new b := by
  -- What starts within `a` also ends there, so the search meets `c` on its own.
  induction a using replaceAll_induction hne with
  | nil =>
      have hn : ¬ old <+: c :: b := by
        intro hp
        exact hne (List.prefix_nil.1 (prefix_of_prefix_append_cons (a := []) hc hp))
      rw [List.nil_append, replaceAll_cons hn, replaceAll_nil, List.nil_append]
  | occurrence a ih =>
      rw [List.append_assoc, replaceAll_append_self hne, replaceAll_append_self hne, ih,
        List.append_assoc]
  | character d a hd ih =>
      have hn : ¬ old <+: d :: (a ++ c :: b) := by
        intro hp
        exact hd (prefix_of_prefix_append_cons (a := d :: a) hc hp)
      rw [List.cons_append, replaceAll_cons hn, replaceAll_cons hd, ih, List.cons_append]

/-- No occurrence lies across the seam of two texts: a character that is foreign to `old` stands at
the end of the first or at the start of the second. -/
def Parts (old a b : Text) : Prop :=
  (∃ c, a.getLast? = some c ∧ c ∉ old) ∨ ∃ c, b.head? = some c ∧ c ∉ old

theorem Parts.replaceAll_append (h : Parts old a b) (hne : old ≠ []) (new : Text) :
    replaceAll old new (a ++ b) = replaceAll old new a ++ replaceAll old new b := by
  rcases h with ⟨c, hl, hc⟩ | ⟨c, hh, hc⟩
  · obtain ⟨front, rfl⟩ := List.getLast?_eq_some_iff.1 hl
    rw [List.append_assoc, List.singleton_append, replaceAll_append_cons hne hc,
      replaceAll_append_cons hne hc, replaceAll_nil, List.append_assoc, List.singleton_append]
  · obtain ⟨rest, rfl⟩ := List.head?_eq_some_iff.1 hh
    have hb := replaceAll_append_cons hne hc new [] rest
    rw [replaceAll_nil, List.nil_append, List.nil_append] at hb
    rw [replaceAll_append_cons hne hc, hb]

theorem infix_replaceAll {d : Char} {part : Text} (hne : old ≠ []) (hc : c ∉ old)
    (hd : d ∉ old) (hpart : ¬ old <:+: part) (new : Text) (h : c :: (part ++ [d]) <:+: t) :
    c :: (part ++ [d]) <:+: replaceAll old new t := by
  obtain ⟨front, rest, rfl⟩ := h
  refine ⟨replaceAll old new front, replaceAll old new rest, ?_⟩
  have hshape : front ++ c :: (part ++ [d]) ++ rest = front ++ c :: (part ++ d :: rest) := by simp
  rw [hshape, replaceAll_append_cons hne hc, replaceAll_append_cons hne hd,
    replaceAll_of_not_infix hne hpart]
  simp

/-- What is not replaced does not depend on the replacement. If anything is replaced, there are at
least two fragments. -/
theorem exists_fragments (hne : old ≠ []) (t : Text) : ∃ fragments : List Text,
    fragments ≠ [] ∧ (old <:+: t → 2 ≤ fragments.length) ∧
      ∀ new, replaceAll old new t = join new fragments := by
  induction t using replaceAll_induction hne with
  | nil => exact ⟨[[]], by simp, fun h => absurd (List.infix_nil.1 h) hne, fun new => rfl⟩
  | occurrence t ih =>
      obtain ⟨fragments, hfragments, -, hjoin⟩ := ih
      obtain ⟨first, rest, rfl⟩ := List.exists_cons_of_ne_nil hfragments
      refine ⟨[] :: first :: rest, by simp, fun _ => by simp, fun new => ?_⟩
      rw [replaceAll_append_self hne, hjoin, join_cons_cons, List.nil_append]
  | character c t hc ih =>
      obtain ⟨fragments, hfragments, hcount, hjoin⟩ := ih
      obtain ⟨first, rest, rfl⟩ := List.exists_cons_of_ne_nil hfragments
      refine ⟨(c :: first) :: rest, by simp, fun h => ?_, fun new => ?_⟩
      · exact hcount ((List.infix_cons_iff.1 h).resolve_left hc)
      · rw [replaceAll_cons hc, hjoin]
        cases rest <;> rfl

end Text

end SoloCall
