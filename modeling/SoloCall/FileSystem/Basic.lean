import SoloCall.Text.Utf8

namespace SoloCall

/-- The names from the root down. The root has no name. -/
abbrev Location := List Text

inductive Entry where
  | directory
  | file (contents : Bytes) (executable : Bool)
  deriving DecidableEq, Repr

namespace Entry

def isDirectory : Entry → Bool
  | directory => true
  | file .. => false

end Entry

structure FileSystem where
  entries : List (Location × Entry) := []

namespace FileSystem

def get? (fs : FileSystem) (l : Location) : Option Entry :=
  if l = [] then some .directory else fs.entries.lookup l

def put (fs : FileSystem) (l : Location) (e : Entry) : FileSystem :=
  if (fs.entries.lookup l).isSome then
    ⟨fs.entries.map fun x => if x.1 = l then (l, e) else x⟩
  else ⟨fs.entries ++ [(l, e)]⟩

def erase (fs : FileSystem) (l : Location) : FileSystem :=
  ⟨fs.entries.filter fun x => x.1 ≠ l⟩

/-- Removes a location and everything below it. -/
def eraseTree (fs : FileSystem) (l : Location) : FileSystem :=
  ⟨fs.entries.filter fun x => !l.isPrefixOf x.1⟩

def eraseBelow (fs : FileSystem) (l : Location) : FileSystem :=
  ⟨fs.entries.filter fun x => !(l.isPrefixOf x.1 && x.1 ≠ l)⟩

def children (fs : FileSystem) (l : Location) : List Text :=
  fs.entries.filterMap fun x =>
    if x.1.length = l.length + 1 && l.isPrefixOf x.1 then x.1.getLast? else none

def below (fs : FileSystem) (l : Location) : List (Location × Entry) :=
  fs.entries.filterMap fun x =>
    if l.length < x.1.length && l.isPrefixOf x.1 then some (x.1.drop l.length, x.2) else none

section

variable {α β : Type} [BEq α] [LawfulBEq α] [DecidableEq α]

theorem lookup_cons_eq {xs : List (α × β)} {k m : α} {v : β} :
    ((k, v) :: xs).lookup m = if m = k then some v else xs.lookup m := by
  by_cases h : m = k
  · simp [h]
  · have hb : (m == k) = false := beq_false_of_ne h
    simp [List.lookup_cons, hb, h]

theorem lookup_filter {xs : List (α × β)} {p : α → Bool} {m : α} :
    (xs.filter fun x => p x.1).lookup m = if p m then xs.lookup m else none := by
  induction xs with
  | nil => simp
  | cons x xs ih =>
    obtain ⟨k, v⟩ := x
    by_cases hp : p k = true
    · rw [List.filter_cons, if_pos hp, lookup_cons_eq, lookup_cons_eq, ih]
      by_cases hm : m = k
      · simp [hm, hp]
      · simp [hm]
    · rw [List.filter_cons, if_neg hp, lookup_cons_eq, ih]
      by_cases hm : m = k
      · simp [hm, hp]
      · simp [hm]

end

theorem lookup_map_set {xs : List (Location × Entry)} {l m : Location} {e : Entry} :
    (xs.map fun x => if x.1 = l then (l, e) else x).lookup m =
      if m = l then (xs.lookup l).map fun _ => e else xs.lookup m := by
  induction xs with
  | nil => simp
  | cons x xs ih =>
    obtain ⟨k, v⟩ := x
    rw [List.map_cons]
    by_cases hk : k = l
    · subst hk
      rw [if_pos rfl, lookup_cons_eq, lookup_cons_eq, lookup_cons_eq, ih]
      by_cases hm : m = k <;> simp [hm]
    · rw [if_neg hk, lookup_cons_eq, lookup_cons_eq, lookup_cons_eq, ih, if_neg (Ne.symm hk)]
      by_cases hm : m = k
      · rw [if_pos hm, if_pos hm, if_neg (hm ▸ hk)]
      · rw [if_neg hm, if_neg hm]

theorem lookup_append_single {xs : List (Location × Entry)} {l m : Location} {e : Entry}
    (h : xs.lookup l = none) :
    (xs ++ [(l, e)]).lookup m = if m = l then some e else xs.lookup m := by
  induction xs with
  | nil => rw [List.nil_append, lookup_cons_eq]
  | cons x xs ih =>
    obtain ⟨k, v⟩ := x
    rw [lookup_cons_eq] at h
    split at h
    · simp at h
    · rename_i hk
      rw [List.cons_append, lookup_cons_eq, lookup_cons_eq, ih h]
      by_cases hm : m = k
      · have hl : m ≠ l := fun he => hk (he.symm.trans hm)
        rw [if_pos hm, if_pos hm, if_neg hl]
      · rw [if_neg hm, if_neg hm]

theorem get?_put {fs : FileSystem} {l m : Location} {e : Entry} (hl : l ≠ []) :
    (fs.put l e).get? m = if m = l then some e else fs.get? m := by
  unfold put get?
  by_cases hm : m = []
  · simp [hm, Ne.symm hl]
  · simp only [if_neg hm]
    cases h : fs.entries.lookup l with
    | none =>
      rw [if_neg (by simp)]
      exact lookup_append_single h
    | some v =>
      rw [if_pos (by simp), lookup_map_set, h]
      rfl

theorem get?_erase {fs : FileSystem} {l m : Location} (hl : l ≠ []) :
    (fs.erase l).get? m = if m = l then none else fs.get? m := by
  unfold erase get?
  by_cases hm : m = []
  · simp [hm, Ne.symm hl]
  · simp only [if_neg hm]
    rw [lookup_filter (p := fun k => decide (k ≠ l))]
    by_cases h : m = l <;> simp [h]

theorem get?_eraseBelow {fs : FileSystem} {l m : Location} :
    (fs.eraseBelow l).get? m =
      if l.isPrefixOf m && m ≠ l && m ≠ [] then none else fs.get? m := by
  unfold eraseBelow get?
  by_cases hm : m = []
  · simp [hm]
  · simp only [if_neg hm]
    rw [lookup_filter (p := fun k => !(l.isPrefixOf k && decide (k ≠ l)))]
    by_cases h : m = l <;> cases l.isPrefixOf m <;> simp [h, hm]

end FileSystem

end SoloCall
