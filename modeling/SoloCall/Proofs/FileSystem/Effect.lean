import SoloCall.Dispatch.Scratch
import SoloCall.Proofs.FileSystem.Resolve
import SoloCall.Proofs.FileSystem.Territory

namespace SoloCall

namespace FileSystem

variable {fs fs' : FileSystem} {cwd l : Location} {p : Path} {e : OsError}

theorem locateFile_eq (hp : p.getLast? ≠ some '/') : fs.locateFile cwd p = fs.locate cwd p := by
  rw [locateFile]
  cases hc : checkPath p with
  | error e => simp [locate, hc, bind, Except.bind]
  | ok u => simp [hp, bind, Except.bind]

theorem makeDirectory_eq (hp : Text.dropEndWhile (· = '/') p = p) :
    fs.makeDirectory cwd p = fs.locate cwd p >>= fun l =>
      if (fs.get? l).isSome then .error .alreadyExists else .ok (fs.put l .directory) := by
  rw [makeDirectory]
  cases hc : checkPath p with
  | error e => simp [locate, hc, bind, Except.bind]
  | ok u =>
      simp only [hp, bind, Except.bind]
      simp

theorem makeDirectories_of_ok (hp : p ≠ []) (h : fs.makeDirectory cwd p = .ok fs') :
    fs.makeDirectories cwd p = (none, fs') := by
  unfold makeDirectories makeDirectoriesUpTo
  simp [hp, h]

theorem makeDirectories_of_error (hp : p ≠ []) (h : fs.makeDirectory cwd p = .error e)
    (he : e ≠ .notFound) : (fs.makeDirectories cwd p).2 = fs := by
  unfold makeDirectories makeDirectoriesUpTo
  cases e <;> simp_all

theorem getLast?_ne_of_locateFile (h : fs.locateFile cwd p = .ok l) : p.getLast? ≠ some '/' := by
  intro hslash
  rw [locateFile] at h
  cases hc : checkPath p with
  | error e => simp [hc, bind, Except.bind] at h
  | ok u =>
      simp only [hc, hslash, bind, Except.bind, if_true] at h
      split_ifs at h
      split at h <;> cases h

theorem write_ok {contents : Bytes} (h : fs.write cwd p contents = .ok fs') :
    ∃ l executable, fs.locate cwd p = .ok l ∧ fs.get? l ≠ some .directory ∧
      fs' = fs.put l (.file contents executable) := by
  rw [write] at h
  cases hf : fs.locateFile cwd p with
  | error e => simp [hf, bind, Except.bind] at h
  | ok l =>
      have hl := hf
      rw [locateFile_eq (getLast?_ne_of_locateFile hf)] at hl
      simp only [hf, bind, Except.bind] at h
      cases he : fs.get? l with
      | none =>
          simp only [he, Except.ok.injEq] at h
          exact ⟨l, false, hl, by simp [he], h.symm⟩
      | some e =>
          cases e with
          | directory => simp [he] at h
          | file old executable =>
              simp only [he, Except.ok.injEq] at h
              exact ⟨l, executable, hl, by simp [he], h.symm⟩

/-- However much of a file is written, what is left is as if that had been all of it. -/
theorem writeThrough_cases (fs : FileSystem) (cwd : Location) (p : Path) (contents : Bytes)
    (fault? : Option Fault) :
    (fs.writeThrough cwd p contents fault?).2 = fs ∨
      ∃ written, fs.write cwd p written = .ok (fs.writeThrough cwd p contents fault?).2 := by
  match fault? with
  | none =>
      rw [writeThrough]
      cases hw : fs.write cwd p contents with
      | error e => exact .inl rfl
      | ok fs' => exact .inr ⟨contents, hw⟩
  | some ⟨e, none⟩ => exact .inl rfl
  | some ⟨e, some taken⟩ =>
      rw [writeThrough]
      cases hw : fs.write cwd p (contents.take taken) with
      | error e => exact .inl rfl
      | ok fs' => exact .inr ⟨_, hw⟩

theorem writeThrough_of_error (h : ∀ written, ∃ e, fs.write cwd p written = .error e)
    (contents : Bytes) (fault? : Option Fault) :
    ∃ e, fs.writeThrough cwd p contents fault? = (some e, fs) := by
  match fault? with
  | none =>
      obtain ⟨e, he⟩ := h contents
      exact ⟨e, by rw [writeThrough, he, orKeep]⟩
  | some ⟨e, none⟩ => exact ⟨e, rfl⟩
  | some ⟨e, some taken⟩ =>
      obtain ⟨e', he⟩ := h (contents.take taken)
      exact ⟨e', by rw [writeThrough, he]⟩

theorem writeThrough_eq_none {contents : Bytes} {fault? : Option Fault}
    (h : fs.writeThrough cwd p contents fault? = (none, fs')) :
    fs.write cwd p contents = .ok fs' := by
  match fault? with
  | none =>
      rw [writeThrough] at h
      cases hw : fs.write cwd p contents with
      | error e => simp [hw, orKeep] at h
      | ok written =>
          obtain rfl : written = fs' := by simpa [hw, orKeep] using h
          rfl
  | some ⟨e, none⟩ => cases h
  | some ⟨e, some taken⟩ =>
      rw [writeThrough] at h
      split at h <;> cases h

theorem removeFile_of_locate (h : fs.locate cwd p = .ok l) :
    fs.removeFile cwd p = match fs.get? l with
      | none => .error .notFound
      | some .directory => .error .isADirectory
      | some (.file ..) => .ok (fs.erase l) := by
  rw [removeFile]
  rw [h]
  rfl

/-- A path does not lead to a file. -/
def LeadsToNoFile (fs : FileSystem) (cwd : Location) (p : Path) : Prop :=
  ∀ l contents executable, fs.locate cwd p = .ok l →
    fs.get? l ≠ some (.file contents executable)

theorem LeadsToNoFile.of_locate (hl : fs.locate cwd p = .ok l)
    (he : ∀ contents executable, fs.get? l ≠ some (.file contents executable)) :
    fs.LeadsToNoFile cwd p := by
  intro m contents executable hm
  obtain rfl := Except.ok.inj (hl.symm.trans hm)
  exact he contents executable

theorem leadsToNoFile_iff : fs.LeadsToNoFile cwd p ↔
    ((fs.locate cwd p).toOption.bind fs.get?).all Entry.isDirectory = true := by
  cases hl : fs.locate cwd p with
  | error e =>
      refine ⟨fun _ => rfl, fun _ l contents executable h => ?_⟩
      cases hl.symm.trans h
  | ok l =>
      simp only [Except.toOption, Option.bind_some]
      cases he : fs.get? l with
      | none => exact ⟨fun _ => rfl, fun _ => .of_locate hl (by simp [he])⟩
      | some e =>
          cases e with
          | directory => exact ⟨fun _ => rfl, fun _ => .of_locate hl (by simp [he])⟩
          | file contents executable =>
              refine ⟨fun h => absurd he (h l contents executable hl), fun h => ?_⟩
              cases h

instance : Decidable (fs.LeadsToNoFile cwd p) := decidable_of_iff _ leadsToNoFile_iff.symm

theorem removeFile_cases (fs : FileSystem) (cwd : Location) (p : Path) :
    (∃ l contents executable, fs.locate cwd p = .ok l ∧
      fs.get? l = some (.file contents executable) ∧ fs.removeFile cwd p = .ok (fs.erase l)) ∨
    fs.LeadsToNoFile cwd p ∧ ∃ e, fs.removeFile cwd p = .error e := by
  cases hl : fs.locate cwd p with
  | error e =>
      right
      constructor
      · intro m contents executable hm
        cases hl.symm.trans hm
      · refine ⟨e, ?_⟩
        rw [removeFile]
        rw [hl]
        rfl
  | ok l =>
      have hremove := removeFile_of_locate hl
      cases he : fs.get? l with
      | none =>
          rw [he] at hremove
          exact .inr ⟨.of_locate hl (by simp [he]), _, hremove⟩
      | some entry =>
          rw [he] at hremove
          cases entry with
          | directory => exact .inr ⟨.of_locate hl (by simp [he]), _, hremove⟩
          | file contents executable => exact .inl ⟨l, contents, executable, rfl, he, hremove⟩

theorem children_eraseBelow (fs : FileSystem) (l : Location) : (fs.eraseBelow l).children l = [] := by
  apply List.filterMap_eq_nil_iff.2
  intro x hx
  simp only [eraseBelow, List.mem_filter, Bool.not_eq_true', Bool.and_eq_false_iff] at hx
  have hlength : x.1.length = l.length + 1 → x.1 ≠ l := by
    rintro hl rfl
    omega
  rcases hx.2 with hn | hn
  · simp [hn]
  · have he : x.1 = l := by simpa using hn
    simp [he]

theorem get?_erase_eraseBelow {m : Location} (hl : l ≠ []) :
    ((fs.eraseBelow l).erase l).get? m = if l <+: m then none else fs.get? m := by
  rw [get?_erase hl, get?_eraseBelow]
  by_cases hm : m = l
  · simp [hm]
  · by_cases hb : l <+: m
    · have hne : m ≠ [] := by
        rintro rfl
        exact hl (List.prefix_nil.1 hb)
      have hp : l.isPrefixOf m = true := List.isPrefixOf_iff_prefix.2 hb
      simp [hm, hb, hp, hne]
    · have hp : l.isPrefixOf m = false := by
        rw [← Bool.not_eq_true, List.isPrefixOf_iff_prefix]
        exact hb
      simp [hm, hb, hp]

theorem removeTree_of_locate {name : Text} (hn : Path.IsName name) {home : Path}
    (h : fs.locate cwd (Path.join home name) = .ok l)
    (hb : (fs.eraseBelow l).locate cwd (Path.join home name) = .ok l) :
    (fs.removeTree cwd (Path.join home name)).2 =
      if fs.get? l = some .directory then (fs.eraseBelow l).erase l else fs := by
  rw [removeTree]
  cases he : fs.get? l with
  | none => simp [h, he]
  | some e =>
      cases e with
      | file contents executable => simp [h, he]
      | directory =>
          have hdir : (fs.eraseBelow l).get? l = some .directory := by
            rw [get?_eraseBelow]
            simp [he]
          have hcut : (Path.cutName (Path.join home name)).2 = name := Path.cutName_join hn home
          have hremove : (fs.eraseBelow l).removeDirectory cwd (Path.join home name) =
              .ok ((fs.eraseBelow l).erase l) := by
            rw [removeDirectory]
            simp [hb, hdir, hcut, children_eraseBelow, hn.ne_dot, hn.ne_dots, bind, Except.bind]
          simp [h, he, hremove]

end FileSystem

end SoloCall
