import SoloCall.Proofs.Dispatch.Materialization

namespace SoloCall

open FileSystem

namespace FileSystem

variable {fs fs' fs'' : FileSystem} {cwd l : Location} {a : Path}

def SameDirectories (fs fs' : FileSystem) : Prop :=
  ∀ l, fs.get? l = some .directory ↔ fs'.get? l = some .directory

theorem SameDirectories.refl (fs : FileSystem) : fs.SameDirectories fs := fun _ => Iff.rfl

theorem SameDirectories.trans (h : fs.SameDirectories fs') (h' : fs'.SameDirectories fs'') :
    fs.SameDirectories fs'' := fun l => (h l).trans (h' l)

theorem SameDirectories.locate_iff (h : fs.SameDirectories fs') :
    fs.locate cwd a = .ok l ↔ fs'.locate cwd a = .ok l :=
  ⟨locate_mono fun m => (h m).1, locate_mono fun m => (h m).2⟩

theorem ne_nil_of_get?_ne_directory (h : fs.get? l ≠ some .directory) : l ≠ [] := by
  rintro rfl
  exact h (get?_root fs)

theorem sameDirectories_put_file {contents : Bytes} {executable : Bool}
    (h : fs.get? l ≠ some .directory) :
    fs.SameDirectories (fs.put l (.file contents executable)) := by
  intro m
  rw [get?_put (ne_nil_of_get?_ne_directory h)]
  by_cases hm : m = l
  · subst hm
    simp [h]
  · rw [if_neg hm]

theorem sameDirectories_erase (h : fs.get? l ≠ some .directory) :
    fs.SameDirectories (fs.erase l) := by
  intro m
  rw [get?_erase (ne_nil_of_get?_ne_directory h)]
  by_cases hm : m = l
  · subst hm
    simp [h]
  · rw [if_neg hm]

theorem writeThrough_sameDirectories (fs : FileSystem) (cwd : Location) (a : Path)
    (contents : Bytes) (fault? : Option Fault) :
    fs.SameDirectories (fs.writeThrough cwd a contents fault?).2 := by
  rcases writeThrough_cases fs cwd a contents fault? with hkeep | ⟨written, hw⟩
  · rw [hkeep]
    exact .refl fs
  · obtain ⟨l, executable, -, hd, hput⟩ := write_ok hw
    rw [hput]
    exact sameDirectories_put_file hd

theorem removeFile_effect (fs : FileSystem) (cwd : Location) (a : Path) :
    fs.SameDirectories (fs.orKeep (fs.removeFile cwd a)).2 ∧
      (fs.orKeep (fs.removeFile cwd a)).2.Extends fs ∧
      (fs.orKeep (fs.removeFile cwd a)).2.LeadsToNoFile cwd a := by
  rcases removeFile_cases fs cwd a with ⟨l, contents, executable, hl, he, hok⟩ | ⟨hno, e, herror⟩
  · have hd : fs.get? l ≠ some .directory := by simp [he]
    have hsame := sameDirectories_erase hd
    rw [hok]
    refine ⟨hsame, erase_extends fs l, .of_locate (hsame.locate_iff.1 hl) ?_⟩
    intro contents executable
    simp [orKeep, get?_erase (ne_nil_of_get?_ne_directory hd)]
  · rw [herror]
    exact ⟨.refl fs, .refl fs, hno⟩

theorem removeDirectory_ok (h : fs.removeDirectory cwd a = .ok fs') : ∃ l, fs' = fs.erase l := by
  rw [removeDirectory] at h
  cases hl : fs.locate cwd a with
  | error e => simp [hl, bind, Except.bind] at h
  | ok l =>
      refine ⟨l, ?_⟩
      simp only [hl, bind, Except.bind] at h
      split at h
      · cases h
      · cases h
      · split_ifs at h
        exact (Except.ok.inj h).symm

theorem removeTree_extends (fs : FileSystem) (cwd : Location) (a : Path) :
    (fs.removeTree cwd a).2.Extends fs := by
  rw [removeTree]
  cases hl : fs.locate cwd a with
  | error e => exact .refl fs
  | ok l =>
      cases he : fs.get? l with
      | none => simpa only [he] using Extends.refl fs
      | some entry =>
          cases entry with
          | file contents executable => simpa only [he] using Extends.refl fs
          | directory =>
              have hemptied := eraseBelow_extends fs l
              cases hr : (fs.eraseBelow l).removeDirectory cwd a with
              | error e => simpa only [he, hr] using hemptied
              | ok left =>
                  obtain ⟨m, rfl⟩ := removeDirectory_ok hr
                  simpa only [he, hr] using (erase_extends _ m).trans hemptied

end FileSystem

namespace FileStep

theorem removeFiles_effect (cwd : Location) (files : List Path) (fs : FileSystem) :
    fs.SameDirectories (actRegardless cwd (files.map .removeFile) fs) ∧
      (actRegardless cwd (files.map .removeFile) fs).Extends fs := by
  induction files generalizing fs with
  | nil => exact ⟨.refl fs, .refl fs⟩
  | cons a files ih =>
      obtain ⟨hsame, hext, -⟩ := removeFile_effect fs cwd a
      obtain ⟨hsame', hext'⟩ := ih (fs.orKeep (fs.removeFile cwd a)).2
      exact ⟨hsame.trans hsame', hext'.trans hext⟩

theorem removeTrees_extends (cwd : Location) (dirs : List Path) (fs : FileSystem) :
    (actRegardless cwd (dirs.map .removeTree) fs).Extends fs := by
  induction dirs generalizing fs with
  | nil => exact .refl fs
  | cons a dirs ih => exact (ih (fs.removeTree cwd a).2).trans (removeTree_extends fs cwd a)

theorem writes_sameDirectories (device : Device) (cwd : Location)
    (files : List Driver.ScratchFile) (fs : FileSystem) :
    fs.SameDirectories (actAll device cwd (files.map fun f => .write f.path f.contents) fs).2 := by
  induction files generalizing fs with
  | nil => exact .refl fs
  | cons f files ih =>
      have hstep := writeThrough_sameDirectories fs cwd f.path (Utf8.encode f.contents)
        (device fs f.path)
      rw [List.map_cons, actAll]
      simp only [act, path]
      cases hw : fs.writeThrough cwd f.path (Utf8.encode f.contents) (device fs f.path) with
      | mk e? fs' =>
          rw [hw] at hstep
          cases e? with
          | none => exact hstep.trans (ih fs')
          | some e => exact hstep

end FileStep

namespace ScratchSet

variable {s : ScratchSet} {cwd l : Location} {fs : FileSystem} {a : Path}

/-- Where a tracked file or output leads to, no file is left. -/
theorem cleanup_leaves_no_file (ha : a ∈ s.files) (hl : fs.locate cwd a = .ok l)
    (contents : Bytes) (executable : Bool) :
    (s.cleanup cwd fs).2.get? l ≠ some (.file contents executable) := by
  obtain ⟨front, back, hfiles⟩ := List.append_of_mem ha
  obtain ⟨hsame, -⟩ := FileStep.removeFiles_effect cwd front fs
  obtain ⟨hsame', -, hgone⟩ :=
    removeFile_effect (FileStep.actRegardless cwd (front.map .removeFile) fs) cwd a
  have hlead := (hsame.trans hsame').locate_iff.1 hl
  rw [cleanup, removal, hfiles, List.map_append, List.map_cons, FileStep.actRegardless_append,
    FileStep.actRegardless_append]
  intro hleft
  have hback := FileStep.removeTrees_extends cwd s.directories _ l _ hleft
  have hthen := (FileStep.removeFiles_effect cwd back _).2 l _ hback
  exact hgone l contents executable hlead hthen

end ScratchSet

namespace Driver.Plan

variable {p : Plan} {device : Device} {cwd : Location} {fs : FileSystem}

theorem made_sameDirectories_written (p : Plan) (device : Device) (cwd : Location)
    (fs : FileSystem) : (p.made device cwd fs).SameDirectories (p.written device cwd fs) := by
  rw [made, written, writing, FileStep.actAll_append]
  cases FileStep.actAll device cwd (p.directories.map .makeDirectories) fs with
  | mk e? fs' =>
      cases e? with
      | none => exact FileStep.writes_sameDirectories device cwd p.files fs'
      | some e => exact .refl fs'

/-- A plan of which nothing is there yet is removed without a trace just if it keeps off the files
that are there. -/
theorem IsNew.restored_iff (h : p.IsNew cwd fs) :
    (∀ l, (p.tracked.cleanup cwd (p.written device cwd fs)).2.get? l = fs.get? l) ↔
      p.KeepsOffFiles device cwd fs := by
  refine ⟨fun hrestored a ha l contents executable hl he => ?_, h.get?_removal⟩
  have hold : fs.get? l = some (.file contents executable) := by
    rcases h.grown_made.new l _ he with hold | ⟨hdir, -⟩
    · exact hold
    · cases hdir
  have hlead := (p.made_sameDirectories_written device cwd fs).locate_iff.1 hl
  apply ScratchSet.cleanup_leaves_no_file ha hlead contents executable
  rw [hrestored, hold]

end Driver.Plan

end SoloCall
