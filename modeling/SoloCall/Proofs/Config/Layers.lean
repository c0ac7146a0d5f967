import SoloCall.Proofs.Config.Assignment
import SoloCall.Proofs.Text.Replace
import SoloCall.Proofs.Text.Utf8Lines

namespace SoloCall.Config

variable {c : Config} {fs : FileSystem} {cwd : Location} {path : Path} {env env' : Environment}
  {bytes : Bytes} {lines lines' : List Text} {contents k v : Text} {directory? : Option Path}

theorem get?_setAll (c : Config) (pairs : List (Text × Text)) (k : Text) :
    (c.setAll pairs).get? k = (last? pairs k).or (c.get? k) := by
  induction pairs generalizing c with
  | nil => rfl
  | cons p rest ih =>
      have hset : (c.set p.1 p.2).get? k = if k = p.1 then some p.2 else c.get? k :=
        FileSystem.lookup_cons_eq
      have hlast : last? [p] k = if k = p.1 then some p.2 else none := FileSystem.lookup_cons_eq
      rw [setAll, List.foldl_cons]
      rw [← setAll, ih, hset, ← List.singleton_append, last?_append, hlast]
      split <;> simp

def IsSetting (k : Text) : Prop := "SENTINEL_".toList <+: k

theorem last?_settings (env : Environment) (k : Text) :
    last? (settings env) k = if Text.startsWith (key "") k then last? env k else none := by
  rw [last?, settings, ← List.filter_reverse]
  exact FileSystem.lookup_filter

theorem startsWith_key_iff : Text.startsWith (key "") k = true ↔ IsSetting k :=
  Text.startsWith_iff_prefix

theorem last?_settings_eq_some_iff :
    last? (settings env) k = some v ↔ IsSetting k ∧ IsLast env k v := by
  rw [last?_settings, Option.ite_none_right_eq_some, startsWith_key_iff, last?_eq_some_iff]

theorem last?_settings_eq_none_iff :
    last? (settings env) k = none ↔ (IsSetting k → ∀ p ∈ env, p.1 ≠ k) := by
  rw [last?_settings, ite_eq_right_iff, startsWith_key_iff, last?_eq_none_iff]

/-- Where the value of a key comes from. -/
inductive Provides (env : Environment) (lines : List Text) (k : Text) : (v : Text) → Prop
  | environment {v : Text} (setting : IsSetting k) (set : IsLast env k v) :
      Provides env lines k v
  | file {v : Text} (unset : IsSetting k → ∀ p ∈ env, p.1 ≠ k)
      (assigned : IsLastAssignment lines k v) : Provides env lines k v
  | builtIn {v : Text} (unset : IsSetting k → ∀ p ∈ env, p.1 ≠ k)
      (unassigned : ∀ line ∈ lines, ∀ v', ¬ Assigns line k v')
      (default : defaults.lookup k = some v) : Provides env lines k v

/-- The configuration that the defaults, the lines of a file and an environment make. -/
def layered (env : Environment) (lines : List Text) (path : Path) : Config :=
  ((⟨defaults, path⟩ : Config).setAll (lines.filterMap assignment?)).setAll (settings env)

theorem get?_layered (env : Environment) (lines : List Text) (path : Path) (k : Text) :
    (layered env lines path).get? k =
      (last? (settings env) k).or
        ((last? (lines.filterMap assignment?) k).or (defaults.lookup k)) := by
  rw [layered, get?_setAll, get?_setAll]
  rfl

theorem get?_layered_eq_some_iff :
    (layered env lines path).get? k = some v ↔ Provides env lines k v := by
  rw [get?_layered, Option.or_eq_some_iff, Option.or_eq_some_iff, last?_settings_eq_some_iff,
    last?_settings_eq_none_iff, last?_assignments_eq_some_iff, last?_assignments_eq_none_iff]
  constructor
  · rintro (⟨hs, hset⟩ | ⟨hunset, hline | ⟨hnone, hdefault⟩⟩)
    · exact .environment hs hset
    · exact .file hunset hline
    · exact .builtIn hunset hnone hdefault
  · rintro (⟨hs, hset⟩ | ⟨hunset, hline⟩ | ⟨hunset, hnone, hdefault⟩)
    · exact .inl ⟨hs, hset⟩
    · exact .inr ⟨hunset, .inl hline⟩
    · exact .inr ⟨hunset, .inr ⟨hnone, hdefault⟩⟩

def Holds (fs : FileSystem) (cwd : Location) (path : Path) (bytes : Bytes) : Prop :=
  fs.read cwd path = .ok bytes ∨ fs.pathExists cwd path = false ∧ bytes = []

theorem ofFile_of_holds (h : Holds fs cwd path bytes) :
    ofFile fs cwd path =
      match Utf8.decode? bytes with
      | some contents => .ok ((⟨defaults, path⟩ : Config).setAll (assignments contents))
      | none => .error (.reading path .notUtf8) := by
  rcases h with hread | ⟨hmissing, rfl⟩
  · have hexists : fs.pathExists cwd path = true := by
      rw [FileSystem.pathExists]
      cases hstat : fs.stat cwd path with
      | ok e => rfl
      | error e => simp [FileSystem.read, hstat, bind, Except.bind] at hread
    have htext : fs.readText cwd path =
        match Utf8.decode? bytes with
        | some t => .ok t
        | none => .error .notUtf8 := by
      simp only [FileSystem.readText, hread]
      rfl
    rw [ofFile, hexists, htext]
    cases Utf8.decode? bytes <;> rfl
  · rw [ofFile, hmissing]
    rfl

theorem load_of_holds (h : Holds fs cwd (userPath directory?) bytes) :
    load directory? fs cwd env =
      match Utf8.decode? bytes with
      | some contents => .ok (layered env (contents.split '\n') (userPath directory?))
      | none => .error (.reading (userPath directory?) .notUtf8) := by
  rw [load, ofFile_of_holds h]
  cases Utf8.decode? bytes <;> rfl

/-- The lines of the user's file, all of them UTF-8. -/
def HasLines (fs : FileSystem) (cwd : Location) (directory? : Option Path) (lines : List Text) :
    Prop :=
  ∃ bytes, Holds fs cwd (userPath directory?) bytes ∧
    (bytes.splitOn 10).mapM Utf8.decode? = some lines

theorem HasLines.load_eq (h : HasLines fs cwd directory? lines) :
    load directory? fs cwd env = .ok (layered env lines (userPath directory?)) := by
  obtain ⟨bytes, hbytes, hlines⟩ := h
  rw [Utf8.mapM_decode?_splitOn] at hlines
  obtain ⟨contents, hdecode, rfl⟩ := Option.map_eq_some_iff.1 hlines
  rw [load_of_holds hbytes, hdecode]

/-- Environments that agree on every setting. -/
def SameSettings (env env' : Environment) : Prop :=
  ∀ k v, IsSetting k → (IsLast env k v ↔ IsLast env' k v)

theorem SameSettings.last?_eq (h : SameSettings env env') (k : Text) :
    last? (settings env') k = last? (settings env) k := by
  apply Option.ext
  intro v
  rw [last?_settings_eq_some_iff, last?_settings_eq_some_iff]
  exact and_congr_right fun hs => (h k v hs).symm

theorem SameSettings.of_settings (h : settings env = settings env') : SameSettings env env' := by
  intro k v hs
  have hlast : last? (settings env) k = some v ↔ last? (settings env') k = some v := by rw [h]
  simpa [last?_settings_eq_some_iff, hs] using hlast

/-- A configuration is not loaded from a file with a line that is not UTF-8. From any other, the
value of each key is that of the first layer to have one, and that does not change with anything
else in the file or the environment. -/
theorem load_layered (h : Holds fs cwd (userPath directory?) bytes) :
    ((∃ line ∈ bytes.splitOn 10, Utf8.decode? line = none) →
      load directory? fs cwd env = .error (.reading (userPath directory?) .notUtf8)) ∧
    ((∀ line ∈ bytes.splitOn 10, Utf8.decode? line ≠ none) →
      ∃ lines c, (bytes.splitOn 10).mapM Utf8.decode? = some lines ∧
        load directory? fs cwd env = .ok c ∧
        (∀ k v, c.get? k = some v ↔ Provides env lines k v) ∧
        ∀ other? fs' cwd' env' lines', HasLines fs' cwd' other? lines' → Rewording lines lines' →
          SameSettings env env' →
          ∃ c', load other? fs' cwd' env' = .ok c' ∧ ∀ k, c'.get? k = c.get? k) := by
  constructor
  · intro hline
    rw [load_of_holds h, Utf8.decode?_eq_none_iff.2 hline]
  · intro hall
    have hdecode : (bytes.splitOn 10).mapM Utf8.decode? ≠ none := by
      rw [ne_eq, mapM_eq_none_iff]
      rintro ⟨line, hl, hnone⟩
      exact hall line hl hnone
    obtain ⟨lines, hlines⟩ := Option.ne_none_iff_exists'.1 hdecode
    have hload : load directory? fs cwd env = .ok (layered env lines (userPath directory?)) :=
      HasLines.load_eq ⟨bytes, h, hlines⟩
    refine ⟨lines, _, hlines, hload, fun k v => get?_layered_eq_some_iff, ?_⟩
    intro other? fs' cwd' env' lines' h' hwords hsettings
    refine ⟨_, h'.load_eq, fun k => ?_⟩
    rw [get?_layered, get?_layered, hsettings.last?_eq, hwords.last?_eq]

def toolLines : List Text :=
  ["SENTINEL_CC = clang", "SENTINEL_GO=go1.22", "SENTINEL_CC=gcc -DX=1\r"].map String.toList

def toolHome (lines : List Text) : FileSystem :=
  ⟨[(["h".toList], .directory), (["h".toList, ".config".toList], .directory),
    (["h".toList, ".config".toList, "sentinel".toList], .directory),
    (["h".toList, ".config".toList, "sentinel".toList, ".sentinelrc".toList],
      .file (Utf8.encode (Text.join ['\n'] lines)) false)]⟩

def toolDirectory? : Option Path := some "/h/.config".toList

def toolEnvironment : Environment := [(key "GO", [])]

theorem load_layered_tools :
    Holds (toolHome toolLines) [] (userPath toolDirectory?)
      (Utf8.encode (Text.join ['\n'] toolLines)) ∧
    ∃ c c', load toolDirectory? (toolHome toolLines) [] toolEnvironment = .ok c ∧
      c.get? (key "CC") = some "gcc -DX=1".toList ∧ c.get? (key "GO") = some [] ∧
      c.get? (key "NODE") = some "node".toList ∧
      load toolDirectory? (toolHome ("# tools".toList :: toolLines)) []
        (("EDITOR".toList, "ed".toList) :: toolEnvironment) = .ok c' ∧
      ∀ k, c'.get? k = c.get? k := by
  have hholds : Holds (toolHome toolLines) [] (userPath toolDirectory?)
      (Utf8.encode (Text.join ['\n'] toolLines)) := .inl rfl
  have hread : ((Utf8.encode (Text.join ['\n'] toolLines)).splitOn 10).mapM Utf8.decode? =
      some toolLines := by
    rfl
  have hall : ∀ line ∈ (Utf8.encode (Text.join ['\n'] toolLines)).splitOn 10,
      Utf8.decode? line ≠ none := by
    decide
  obtain ⟨lines, c, hlines, hload, hvalues, hsame⟩ := (load_layered hholds).2 hall
  obtain rfl := Option.some.inj (hread.symm.trans hlines)
  have hother : HasLines (toolHome ("# tools".toList :: toolLines)) [] toolDirectory?
      ("# tools".toList :: toolLines) :=
    ⟨_, .inl rfl, by rfl⟩
  obtain ⟨c', hload', hget⟩ := hsame _ _ _ _ _ hother
    (.comment [] toolLines (by decide)) (.of_settings rfl)
  refine ⟨hholds, c, c', hload, ?_, ?_, ?_, hload', hget⟩
  · exact (hvalues _ _).2 (.file (fun _ => by decide)
      (last?_assignments_eq_some_iff.1 (by rfl)))
  · exact (hvalues _ _).2 (.environment ⟨_, rfl⟩ (last?_eq_some_iff.1 (by rfl)))
  · exact (hvalues _ _).2 (.builtIn (fun _ => by decide)
      (last?_assignments_eq_none_iff.1 (by rfl)) (by rfl))

end SoloCall.Config
