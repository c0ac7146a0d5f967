import SoloCall.Proofs.Dispatch.Housing

namespace SoloCall

open FileSystem

namespace Territory

variable {t : Territory} {fs fs' : FileSystem} {l dir : Location} {name : Text} {e : Entry}

theorem changesOnly_put (hl : t.Holds (dir ++ [name])) (hd : fs.get? dir = some .directory)
    (hk : e = .directory ∨ fs.get? (dir ++ [name]) ≠ some .directory) :
    t.ChangesOnly fs (fs.put (dir ++ [name]) e) := by
  refine ⟨fun m hm => ?_, fun ht => ht.put hd hk⟩
  rw [get?_put (by simp), if_neg]
  rintro rfl
  exact hm hl

theorem keepsKinds_put (hne : l ≠ []) (hf : l ∈ t.files → e ≠ .directory)
    (ht : l ∈ t.trees → e = .directory) : t.KeepsKinds fs (fs.put l e) := by
  constructor
  · intro m hm hd
    rw [get?_put hne] at hd
    split at hd
    · rename_i he
      exact absurd (Option.some.inj hd) (hf (he ▸ hm))
    · exact hd
  · intro m hm contents executable hfile
    rw [get?_put hne] at hfile
    split at hfile
    · rename_i he
      have := Option.some.inj hfile
      rw [ht (he ▸ hm)] at this
      contradiction
    · exact ⟨contents, executable, hfile⟩

end Territory

def FileStep.Clears (cwd : Location) (fs : FileSystem) (l : Location) : FileStep → Prop
  | removeFile a => fs.locate cwd a = .ok l
  | removeTree a => ∃ root, fs.locate cwd a = .ok root ∧ root <+: l
  | makeDirectories _ | write .. => False

/-- A location that an act has to do with: its path leads there or through it, or the act takes away
what is there. -/
def FileStep.Touches (cwd : Location) (fs : FileSystem) (step : FileStep) (l : Location) : Prop :=
  fs.Passes cwd step.path l ∨ step.Clears cwd fs l

namespace Housed

open Driver

variable {fs₀ fs fs' : FileSystem} {cwd dir l : Location} {home a : Path} {id : Text} {p : Plan}
  {step : FileStep}

theorem mem_removal : step ∈ p.tracked.removal ↔
    (∃ a ∈ p.tracked.files, step = .removeFile a) ∨
      ∃ a ∈ p.tracked.directories, step = .removeTree a := by
  simp [ScratchSet.removal, eq_comm]

theorem mem_writing : step ∈ p.writing ↔
    (∃ a ∈ p.tracked.directories, step = .makeDirectories a) ∨
      ∃ f ∈ p.files, step = .write f.path f.contents := by
  simp [Plan.writing, Plan.tracked_directories, eq_comm]

theorem path_mem_tracked {f : ScratchFile} (hf : f ∈ p.files) : f.path ∈ p.tracked.files := by
  rw [Plan.tracked_files]
  exact List.mem_append_left _ (List.mem_map_of_mem hf)

theorem locate_cases (h : Housed fs₀ cwd dir home id p) (hk : KeepsDirectories fs₀ fs)
    {name : Text} (hn : Path.IsName name) :
    (∃ e, e ≠ .notFound ∧ fs.locate cwd (Path.join home name) = .error e) ∨
      fs.locate cwd (Path.join home name) = .ok (dir ++ [name]) ∧
      fs₀.locate cwd (Path.join home name) = .ok (dir ++ [name]) := by
  rcases locate_join_cases hn h.entered with ⟨e, hne, he⟩ | hl
  · exact .inl ⟨e, hne, he fs hk⟩
  · exact .inr ⟨hl fs hk, hl fs₀ fun _ hd => hd⟩

theorem makeDirectories_cases (h : Housed fs₀ cwd dir home id p) (hk : KeepsDirectories fs₀ fs)
    (ha : a ∈ p.tracked.directories) :
    (fs.makeDirectories cwd a).2 = fs ∨
      ∃ name, fs₀.locate cwd a = .ok (dir ++ [name]) ∧
        (fs.makeDirectories cwd a).2 = fs.put (dir ++ [name]) .directory := by
  obtain ⟨name, hn, rfl⟩ := h.exists_treeName ha
  have hname := hn.isName h.isId
  have hmake : fs.makeDirectory cwd (Path.join home name) = _ :=
    makeDirectory_eq (Path.dropEndWhile_join hname home)
  have hne := Path.join_ne_nil hname home
  rcases h.locate_cases hk hname with ⟨e, he, hlost⟩ | ⟨hl, hl₀⟩
  · rw [hlost] at hmake
    exact .inl (makeDirectories_of_error hne hmake he)
  · rw [hl] at hmake
    by_cases hsome : (fs.get? (dir ++ [name])).isSome
    · have hmake' : fs.makeDirectory cwd (Path.join home name) = .error .alreadyExists := by
        rw [hmake]
        exact if_pos hsome
      exact .inl (makeDirectories_of_error hne hmake' (by simp))
    · have hmake' : fs.makeDirectory cwd (Path.join home name) =
          .ok (fs.put (dir ++ [name]) .directory) := by
        rw [hmake]
        exact if_neg hsome
      refine .inr ⟨name, hl₀, ?_⟩
      rw [makeDirectories_of_ok hne hmake']

theorem write_cases (h : Housed fs₀ cwd dir home id p) (hk : KeepsDirectories fs₀ fs)
    (ha : a ∈ p.tracked.files) {contents : Bytes} (hw : fs.write cwd a contents = .ok fs') :
    ∃ name executable, fs₀.locate cwd a = .ok (dir ++ [name]) ∧
      fs.get? (dir ++ [name]) ≠ some .directory ∧
      fs' = fs.put (dir ++ [name]) (.file contents executable) := by
  obtain ⟨name, hn, rfl⟩ := h.exists_fileName ha
  obtain ⟨l, executable, hl, hdir, rfl⟩ := write_ok hw
  rcases h.locate_cases hk (hn.isName h.isId) with ⟨e, -, hlost⟩ | ⟨hlead, hl₀⟩
  · rw [hlost] at hl
    cases hl
  · rw [hlead] at hl
    obtain rfl := Except.ok.inj hl
    exact ⟨name, executable, hl₀, hdir, rfl⟩

/-- To write at all is to put one entry in the place of the path, whatever the device does. -/
theorem writing_cases (h : Housed fs₀ cwd dir home id p) (hk : KeepsDirectories fs₀ fs)
    (hs : step ∈ p.writing) (fault? : Option Fault) :
    (step.act cwd fs fault?).2 = fs ∨
      ∃ name e, fs₀.locate cwd step.path = .ok (dir ++ [name]) ∧
        (step.act cwd fs fault?).2 = fs.put (dir ++ [name]) e ∧
        (dir ++ [name] ∈ (p.territory cwd fs₀).trees ∧ e = .directory ∨
          dir ++ [name] ∈ (p.territory cwd fs₀).files ∧ e ≠ .directory ∧
            fs.get? (dir ++ [name]) ≠ some .directory) := by
  rcases mem_writing.1 hs with ⟨a, ha, rfl⟩ | ⟨f, hf, rfl⟩
  · cases fault? with
    | some fault => exact .inl rfl
    | none =>
        rcases h.makeDirectories_cases hk ha with hkeep | ⟨name, hl, hput⟩
        · exact .inl hkeep
        · exact .inr ⟨name, .directory, hl, hput,
            .inl ⟨Plan.mem_territory_trees.2 ⟨a, ha, hl⟩, rfl⟩⟩
  · have ha := path_mem_tracked hf
    rcases writeThrough_cases fs cwd f.path (Utf8.encode f.contents) fault? with
      hkeep | ⟨written, hw⟩
    · exact .inl hkeep
    · obtain ⟨name, executable, hl, hdir, hput⟩ := h.write_cases hk ha hw
      exact .inr ⟨name, .file written executable, hl, hput,
        .inr ⟨Plan.mem_territory_files.2 ⟨f.path, ha, hl⟩, by simp, hdir⟩⟩

theorem writing_allowed (h : Housed fs₀ cwd dir home id p) (hk : KeepsDirectories fs₀ fs)
    (hs : step ∈ p.writing) (fault? : Option Fault) :
    (p.territory cwd fs₀).Allows fs (step.act cwd fs fault?).2 := by
  rcases h.writing_cases hk hs fault? with hkeep | ⟨name, e, -, hput, hkind⟩
  · rw [hkeep]
    exact .refl _ fs
  · rw [hput]
    have hdir := hk _ (isDirectory_of_enter h.entered)
    rcases hkind with ⟨htree, rfl⟩ | ⟨hfile, he, hfree⟩
    · refine ⟨Territory.changesOnly_put (.inr ⟨_, htree, List.prefix_rfl⟩) hdir (.inl rfl),
        Territory.keepsKinds_put (by simp) (fun hf => ?_) fun _ => rfl⟩
      exact absurd htree (h.file_not_mem_trees hf)
    · refine ⟨Territory.changesOnly_put (.inl hfile) hdir (.inr hfree),
        Territory.keepsKinds_put (by simp) (fun _ => he) fun ht => ?_⟩
      exact absurd ht (h.file_not_mem_trees hfile)

def RemovalCases (p : Plan) (cwd : Location) (fs₀ fs : FileSystem) (step : FileStep) : Prop :=
  (step.act cwd fs none).2 = fs ∧
      ((p.territory cwd fs₀).Fits fs → ∀ l, step.Clears cwd fs₀ l → fs.get? l = none) ∨
    (step.act cwd fs none).2.IsTree ∧
      ∀ l, (step.Clears cwd fs₀ l → (step.act cwd fs none).2.get? l = none) ∧
        (¬ step.Clears cwd fs₀ l → (step.act cwd fs none).2.get? l = fs.get? l)

theorem removeFile_cases (h : Housed fs₀ cwd dir home id p) (hk : KeepsDirectories fs₀ fs)
    (ht : fs.IsTree) (ha : a ∈ p.tracked.files) :
    RemovalCases p cwd fs₀ fs (.removeFile a) := by
  have hlocate := h.locate_eq hk (Plan.mem_artifacts.2 (.inl ha))
  cases hl : fs₀.locate cwd a with
  | error e =>
      refine .inl ⟨?_, fun _ l hc => ?_⟩
      · simp [FileStep.act, removeFile, hlocate, hl, orKeep, bind, Except.bind]
      · simp [FileStep.Clears, hl] at hc
  | ok root =>
      have hfile : root ∈ (p.territory cwd fs₀).files := Plan.mem_territory_files.2 ⟨a, ha, hl⟩
      have hne : root ≠ [] := ne_nil_of_get?_none (h.get?_eq_none (.inl hfile))
      have hremove := removeFile_of_locate (hlocate.trans hl)
      have hclears {l : Location} : (FileStep.removeFile a).Clears cwd fs₀ l ↔ l = root := by
        simp [FileStep.Clears, hl, eq_comm]
      cases hg : fs.get? root with
      | none =>
          refine .inl ⟨by simp [FileStep.act, hremove, hg, orKeep], fun _ l hc => ?_⟩
          exact hclears.1 hc ▸ hg
      | some e =>
          cases e with
          | directory =>
              refine .inl ⟨by simp [FileStep.act, hremove, hg, orKeep], fun hf => ?_⟩
              exact absurd hg (hf.files root hfile)
          | file contents executable =>
              have hact : ((FileStep.removeFile a).act cwd fs none).2 = fs.erase root := by
                simp [FileStep.act, hremove, hg, orKeep]
              refine .inr ⟨hact ▸ ht.erase hne (by simp [hg]), fun l => ?_⟩
              rw [hact, get?_erase hne]
              exact ⟨fun hc => if_pos (hclears.1 hc), fun hc => if_neg fun hr => hc (hclears.2 hr)⟩

theorem keepsDirectories_eraseBelow (h : Housed fs₀ cwd dir home id p)
    (hk : KeepsDirectories fs₀ fs) {root : Location} (hr : root ∈ (p.territory cwd fs₀).trees) :
    KeepsDirectories fs₀ (fs.eraseBelow root) := by
  intro m hm
  have hnot : ¬ root <+: m := fun hb => by simp [h.get?_eq_none (.inr ⟨root, hr, hb⟩)] at hm
  have hp : root.isPrefixOf m = false := by
    rw [← Bool.not_eq_true, List.isPrefixOf_iff_prefix]
    exact hnot
  rw [get?_eraseBelow]
  simpa [hp] using hk m hm

theorem removeTree_cases (h : Housed fs₀ cwd dir home id p) (hk : KeepsDirectories fs₀ fs)
    (ht : fs.IsTree) (ha : a ∈ p.tracked.directories) :
    RemovalCases p cwd fs₀ fs (.removeTree a) := by
  have hlocate {fs'} (hk' : KeepsDirectories fs₀ fs') : fs'.locate cwd a = fs₀.locate cwd a :=
    h.locate_eq hk' (Plan.mem_artifacts.2 (.inr ha))
  cases hl : fs₀.locate cwd a with
  | error e =>
      refine .inl ⟨?_, fun _ l hc => ?_⟩
      · simp [FileStep.act, removeTree, hlocate hk, hl]
      · simp [FileStep.Clears, hl] at hc
  | ok root =>
      have htree : root ∈ (p.territory cwd fs₀).trees := Plan.mem_territory_trees.2 ⟨a, ha, hl⟩
      have hne : root ≠ [] :=
        ne_nil_of_get?_none (h.get?_eq_none (.inr ⟨root, htree, List.prefix_rfl⟩))
      have hclears {l : Location} : (FileStep.removeTree a).Clears cwd fs₀ l ↔ root <+: l := by
        simp [FileStep.Clears, hl]
      have hkeeps := h.keepsDirectories_eraseBelow hk htree
      have hremove : ((FileStep.removeTree a).act cwd fs none).2 =
          if fs.get? root = some .directory then (fs.eraseBelow root).erase root else fs := by
        obtain ⟨name, hn, rfl⟩ := h.exists_treeName ha
        exact removeTree_of_locate (hn.isName h.isId) ((hlocate hk).trans hl)
          ((hlocate hkeeps).trans hl)
      cases hg : fs.get? root with
      | none =>
          refine .inl ⟨by simp [hremove, hg], fun _ l hc => ?_⟩
          exact ht.none_below hg (hclears.1 hc)
      | some e =>
          cases e with
          | file contents executable =>
              refine .inl ⟨by simp [hremove, hg], fun hf => ?_⟩
              exact absurd hg (hf.trees root htree contents executable)
          | directory =>
              have hget (l : Location) : ((FileStep.removeTree a).act cwd fs none).2.get? l =
                  if root <+: l then none else fs.get? l := by
                rw [hremove, if_pos hg]
                exact get?_erase_eraseBelow hne
              refine .inr ⟨ht.without hget, fun l => ?_⟩
              rw [hget]
              exact ⟨fun hc => if_pos (hclears.1 hc), fun hc => if_neg fun hr => hc (hclears.2 hr)⟩

theorem removal_cases (h : Housed fs₀ cwd dir home id p) (hk : KeepsDirectories fs₀ fs)
    (ht : fs.IsTree) (hs : step ∈ p.tracked.removal) : RemovalCases p cwd fs₀ fs step := by
  rcases mem_removal.1 hs with ⟨a, ha, rfl⟩ | ⟨a, ha, rfl⟩
  · exact h.removeFile_cases hk ht ha
  · exact h.removeTree_cases hk ht ha

theorem holds_of_clears (hs : step ∈ p.tracked.removal) (hc : step.Clears cwd fs₀ l) :
    (p.territory cwd fs₀).Holds l := by
  rcases mem_removal.1 hs with ⟨a, ha, rfl⟩ | ⟨a, ha, rfl⟩
  · exact .inl (Plan.mem_territory_files.2 ⟨a, ha, hc⟩)
  · obtain ⟨root, hl, hb⟩ := hc
    exact .inr ⟨root, Plan.mem_territory_trees.2 ⟨a, ha, hl⟩, hb⟩

theorem exists_clears (hl : (p.territory cwd fs₀).Holds l) :
    ∃ step ∈ p.tracked.removal, step.Clears cwd fs₀ l := by
  rcases hl with hl | ⟨root, hr, hb⟩
  · obtain ⟨a, ha, hl⟩ := Plan.mem_territory_files.1 hl
    exact ⟨_, mem_removal.2 (.inl ⟨a, ha, rfl⟩), hl⟩
  · obtain ⟨a, ha, hl⟩ := Plan.mem_territory_trees.1 hr
    exact ⟨_, mem_removal.2 (.inr ⟨a, ha, rfl⟩), root, hl, hb⟩

theorem removal_allowed (h : Housed fs₀ cwd dir home id p) (hk : KeepsDirectories fs₀ fs)
    (ht : fs.IsTree) (hs : step ∈ p.tracked.removal) :
    (p.territory cwd fs₀).Allows fs (step.act cwd fs none).2 := by
  rcases h.removal_cases hk ht hs with ⟨hsame, -⟩ | ⟨htree, heffect⟩
  · rw [hsame]
    exact .refl _ fs
  · refine ⟨⟨fun l hl => (heffect l).2 fun hc => hl (holds_of_clears hs hc), fun _ => htree⟩,
      .of_none_or_eq fun l => ?_⟩
    by_cases hc : step.Clears cwd fs₀ l
    · exact .inl ((heffect l).1 hc)
    · exact .inr ((heffect l).2 hc)

theorem path_mem_artifacts (hs : step ∈ p.writing ∨ step ∈ p.tracked.removal) :
    step.path ∈ p.artifacts := by
  rw [Plan.mem_artifacts]
  rcases hs with hs | hs
  · rcases mem_writing.1 hs with ⟨a, ha, rfl⟩ | ⟨f, hf, rfl⟩
    · exact .inr ha
    · exact .inl (path_mem_tracked hf)
  · rcases mem_removal.1 hs with ⟨a, ha, rfl⟩ | ⟨a, ha, rfl⟩
    · exact .inl ha
    · exact .inr ha

theorem clears_iff (h : Housed fs₀ cwd dir home id p) (hk : KeepsDirectories fs₀ fs)
    (hs : step ∈ p.tracked.removal) : step.Clears cwd fs l ↔ step.Clears cwd fs₀ l := by
  have hlocate := h.locate_eq hk (path_mem_artifacts (.inr hs))
  rcases mem_removal.1 hs with ⟨a, ha, rfl⟩ | ⟨a, ha, rfl⟩ <;> rw [FileStep.path] at hlocate
  · rw [FileStep.Clears, FileStep.Clears, hlocate]
  · rw [FileStep.Clears, FileStep.Clears, hlocate]

/-- Beside what belongs to its execution, an act touches only directories that were there before. -/
theorem isDirectory_or_holds (h : Housed fs₀ cwd dir home id p) (hk : KeepsDirectories fs₀ fs)
    (hs : step ∈ p.writing ∨ step ∈ p.tracked.removal) (ht : step.Touches cwd fs l) :
    fs₀.get? l = some .directory ∨ (p.territory cwd fs₀).Holds l := by
  have ha := path_mem_artifacts hs
  rcases ht with hpasses | hclears
  · obtain ⟨name, hn, hpath⟩ := h.liesIn.exists_name h.isId ha
    rw [hpath] at hpasses
    refine (Passes.isDirectory_or hn h.entered hk hpasses).imp_right fun hl => ?_
    rw [← hpath, h.locate_eq hk ha] at hl
    exact holds_of_locate ha hl
  · rcases hs with hs | hs
    · rcases mem_writing.1 hs with ⟨a, -, rfl⟩ | ⟨f, -, rfl⟩ <;> cases hclears
    · exact .inr (holds_of_clears hs ((h.clears_iff hk hs).1 hclears))

theorem eq_of_not_touches_writing (h : Housed fs₀ cwd dir home id p)
    (hk : KeepsDirectories fs₀ fs) (hs : step ∈ p.writing) (fault? : Option Fault)
    (ht : ¬ step.Touches cwd fs l) : (step.act cwd fs fault?).2.get? l = fs.get? l := by
  rcases h.writing_cases hk hs fault? with hkeep | ⟨name, e, hl, hput, -⟩
  · rw [hkeep]
  · rw [← h.locate_eq hk (path_mem_artifacts (.inl hs))] at hl
    rw [hput, get?_put (by simp), if_neg]
    rintro rfl
    exact ht (.inl (.of_locate hl))

theorem eq_of_not_touches_removal (h : Housed fs₀ cwd dir home id p)
    (hk : KeepsDirectories fs₀ fs) (htree : fs.IsTree) (hs : step ∈ p.tracked.removal)
    (ht : ¬ step.Touches cwd fs l) : (step.act cwd fs none).2.get? l = fs.get? l := by
  rcases h.removal_cases hk htree hs with ⟨hsame, -⟩ | ⟨-, heffect⟩
  · rw [hsame]
  · exact (heffect l).2 fun hclears => ht (.inr ((h.clears_iff hk hs).2 hclears))

/-- What is still there of a plan is what the removals to come clear. -/
def Clearing (p : Plan) (cwd : Location) (fs₀ fs : FileSystem) (removals : List FileStep) : Prop :=
  ∀ l, (p.territory cwd fs₀).Holds l →
    fs.get? l = none ∨ ∃ step ∈ removals, step.Clears cwd fs₀ l

theorem clearing_removal (p : Plan) (cwd : Location) (fs₀ fs : FileSystem) :
    Clearing p cwd fs₀ fs p.tracked.removal := fun _ hl => .inr (exists_clears hl)

theorem Clearing.act {rest : List FileStep} (h : Housed fs₀ cwd dir home id p)
    (hk : KeepsDirectories fs₀ fs) (ht : fs.IsTree) (hf : (p.territory cwd fs₀).Fits fs)
    (hs : step ∈ p.tracked.removal) (hc : Clearing p cwd fs₀ fs (step :: rest)) :
    Clearing p cwd fs₀ (step.act cwd fs none).2 rest := by
  intro l hl
  have hleft : ¬ step.Clears cwd fs₀ l →
      fs.get? l = none ∨ ∃ other ∈ rest, other.Clears cwd fs₀ l := by
    intro hstep
    rcases hc l hl with hn | ⟨other, ho, hclears⟩
    · exact .inl hn
    · rcases List.mem_cons.1 ho with rfl | ho
      · exact absurd hclears hstep
      · exact .inr ⟨other, ho, hclears⟩
  rcases h.removal_cases hk ht hs with ⟨hsame, hnothing⟩ | ⟨-, heffect⟩
  · rw [hsame]
    by_cases hstep : step.Clears cwd fs₀ l
    · exact .inl (hnothing hf l hstep)
    · exact hleft hstep
  · by_cases hstep : step.Clears cwd fs₀ l
    · exact .inl ((heffect l).1 hstep)
    · rw [(heffect l).2 hstep]
      exact hleft hstep

theorem get?_of_written (h : Housed fs₀ cwd dir home id p) (hk : KeepsDirectories fs₀ fs)
    {f : ScratchFile} (hf : f ∈ p.files) {fault? : Option Fault}
    (hw : (FileStep.write f.path f.contents).act cwd fs fault? = (none, fs')) :
    ∃ l executable, fs₀.locate cwd f.path = .ok l ∧
      fs'.get? l = some (.file (Utf8.encode f.contents) executable) := by
  obtain ⟨name, executable, hl, -, rfl⟩ :=
    h.write_cases hk (path_mem_tracked hf) (writeThrough_eq_none hw)
  refine ⟨dir ++ [name], executable, hl, ?_⟩
  rw [get?_put (by simp), if_pos rfl]

end Housed

end SoloCall
