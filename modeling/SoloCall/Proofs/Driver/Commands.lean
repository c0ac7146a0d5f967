import SoloCall.Proofs.Driver.Artifacts
import SoloCall.Proofs.Driver.SourceDirectory

namespace SoloCall.Driver

variable {c : Context} {p : Plan} {place : Place} {home a : Path} {name : Text}

structure Word where
  dir : Path
  text : Text

namespace Word

def StandsFor (w : Word) (a : Path) : Prop := (Path.cutName w.text).2 = (Path.cutName a).2

/-- Seen from any directory, the word where it is read and the path are one path, and lead to one
place in any file system. -/
structure Reaches (w : Word) (a : Path) : Prop where
  path : ∀ cwd, Path.join (Path.join cwd w.dir) w.text = Path.join cwd a
  location : ∀ (fs : FileSystem) (cwd dir l : Location), fs.locate cwd w.dir = .ok dir →
    fs.get? dir = some .directory → fs.locate cwd a = .ok l → fs.locate dir w.text = .ok l

end Word

/-- The words of an invocation beyond those of its tool; all of them where there is no tool, as for
a program that was built. -/
def wordsBeyond (tool? : Option Tool) (inv : Invocation) : List Word :=
  let words := match tool? with
    | some tool => inv.args.drop tool.args.length
    | none => inv.program :: inv.args
  words.map fun t => ⟨inv.cwd, t⟩

def Context.buildTool? (c : Context) : Option Tool :=
  match c.language with
  | .java => some c.toolchain.javac
  | .c => some c.toolchain.cc
  | .cpp => some c.toolchain.cxx
  | .python | .go | .javascript | .typescript | .unknown => none

def Context.runTool? (c : Context) : Option Tool :=
  match c.language with
  | .python => some c.toolchain.python
  | .java => some c.toolchain.java
  | .go => some c.toolchain.go
  | .javascript => some c.toolchain.node
  | .typescript => some c.toolchain.tsRuntime
  | .c | .cpp | .unknown => none

def Plan.words (c : Context) (p : Plan) : List Word :=
  p.compile?.toList.flatMap (wordsBeyond c.buildTool?) ++ wordsBeyond c.runTool? p.run

theorem wordsBeyond_withArgs (t : Tool) (cwd : Path) (args : List Text) :
    wordsBeyond (some t) ((t.invoke cwd).withArgs args) = args.map fun t => ⟨cwd, t⟩ := by
  rw [wordsBeyond, Invocation.withArgs]
  exact congrArg _ List.drop_left

/-- The two ways in which a word refers to a directory: by the path of a name in it, or by a bare
name that is read in it. -/
inductive Word.Refers (home : Path) : Word → Prop
  | path (dir : Path) {name : Text} (h : Path.IsName name) : Refers home ⟨dir, Path.join home name⟩
  | bare {name : Text} (h : '/' ∉ name) : Refers home ⟨home, name⟩

theorem Word.Refers.reaches {w : Word} (h : w.Refers home) (habsolute : Path.isAbsolute home = true)
    (hn : Path.IsName name) (hs : w.StandsFor (Path.join home name)) :
    w.Reaches (Path.join home name) := by
  have habs : Path.isAbsolute (Path.join home name) = true := by rwa [Path.isAbsolute_join hn]
  rw [StandsFor, Path.cutName_join hn] at hs
  cases h with
  | path dir hword =>
      rw [Path.cutName_join hword] at hs
      subst hs
      constructor
      · intro cwd
        rw [Path.join_of_isAbsolute habs, Path.join_of_isAbsolute habs]
      · intro fs cwd dir l _ _ hl
        rw [FileSystem.locate_of_isAbsolute habs fs dir cwd]
        exact hl
  | bare hword =>
      rw [Path.cutName_of_not_mem hword] at hs
      subst hs
      constructor
      · intro cwd
        rw [Path.join_of_isAbsolute habsolute, Path.join_of_isAbsolute habs]
      · intro fs cwd dir l hdir hkind hl
        exact FileSystem.locate_name_of_join hn (FileSystem.enter_of_locate hdir hkind) hl

theorem isAbsolute_home (h : c.plan = .ok p) (source : Path.isAbsolute c.source.text = true)
    (scratch : c.language.isCompiled = false → Path.isAbsolute c.scratchDirectory = true) :
    Path.isAbsolute c.home = true := by
  obtain ⟨place, hp, hplan⟩ := plan_cases h
  have hplace := SourcePath.isAbsolute_directory hp source
  rw [Context.home, hp]
  cases hplan with
  | python hl | javascript hl | typescript hl =>
      rw [hl] at scratch ⊢
      exact scratch rfl
  | java hl | go hl | c hl | cpp hl =>
      rw [hl]
      exact hplace

/-- How the words of a plan and its artifacts fit together: the words refer to the one directory,
and each artifact is named by one of them. -/
structure Plan.Mentions (c : Context) (p : Plan) (home : Path) : Prop where
  refers : ∀ w ∈ p.words c, w.Refers home
  named : ∀ a ∈ p.artifacts, ∃ w ∈ p.words c, w.StandsFor a

theorem standsFor_join (dir : Path) (hn : Path.IsName name) (home : Path) :
    Word.StandsFor ⟨dir, name⟩ (Path.join home name) := by
  rw [Word.StandsFor, Path.cutName_join hn, Path.cutName_of_not_mem hn.not_mem]

theorem scriptPath_isName (hid : IsScratchId c.scratchId) {extension : String}
    (he : '.' :: extension.toList ∈ endings) : ∃ name, Path.IsName name ∧
      c.scriptPath extension = Path.join c.scratchDirectory name := by
  exact ⟨_, (isFileName_script c.scratchId _ he).isName hid, rfl⟩

theorem mentions_of_script (hid : IsScratchId c.scratchId) (extension : String) (dir : Path)
    (he : '.' :: extension.toList ∈ endings)
    (hwords : p.words c = [⟨dir, c.scriptPath extension⟩])
    (hartifacts : p.artifacts = [c.scriptPath extension]) : p.Mentions c c.scratchDirectory := by
  obtain ⟨name, hn, hpath⟩ := scriptPath_isName hid he
  rw [hpath] at hwords hartifacts
  constructor
  · intro w hw
    rw [hwords, List.mem_singleton] at hw
    subst hw
    exact .path dir hn
  · intro a ha
    rw [hartifacts, List.mem_singleton] at ha
    subst ha
    exact ⟨⟨dir, Path.join c.scratchDirectory name⟩, by rw [hwords]; exact .head _, rfl⟩

theorem pythonPlan_mentions (hid : IsScratchId c.scratchId) (hl : c.language = .python)
    (contents : Text) : (c.pythonPlanOf contents).Mentions c c.scratchDirectory := by
  apply mentions_of_script hid "py" c.scratchDirectory (by decide) _ rfl
  rw [Plan.words, Context.runTool?, hl]
  exact wordsBeyond_withArgs _ _ _

theorem scriptPlan_mentions (hid : IsScratchId c.scratchId) {tool : Tool}
    (hrun : c.runTool? = some tool) (place : Place) :
    (c.scriptPlan tool place).Mentions c c.scratchDirectory := by
  apply mentions_of_script hid "js" place.directory (by decide) _ rfl
  rw [Plan.words, hrun]
  exact wordsBeyond_withArgs _ _ _

def Context.runnerName (c : Context) : Text := "SentinelRunner_".toList ++ c.scratchId

def Context.classesName (c : Context) : Text := "sentinel_classes_".toList ++ c.scratchId

def Context.programName (c : Context) : Text := "sentinel_runner_".toList ++ c.scratchId

def Context.driverName (c : Context) (ending : Text) : Text := c.programName ++ ending

theorem driverName_isName (hid : IsScratchId c.scratchId) {ending : Text} (he : ending ∈ endings) :
    Path.IsName (c.driverName ending) :=
  (isFileName_driver c.scratchId _ he).isName hid

theorem programName_isName (hid : IsScratchId c.scratchId) : Path.IsName c.programName :=
  (isFileName_program c.scratchId).isName hid

theorem goPlan_mentions (hid : IsScratchId c.scratchId) (hl : c.language = .go)
    (hfile : '/' ∉ place.fileName) : (c.goPlan place).Mentions c place.directory := by
  have hn : Path.IsName (c.driverName ".go".toList) := driverName_isName hid (by decide)
  have hwords : (c.goPlan place).words c =
      [⟨place.directory, "run".toList⟩, ⟨place.directory, place.fileName⟩,
        ⟨place.directory, c.driverName ".go".toList⟩] := by
    rw [Plan.words, Context.runTool?, hl]
    exact wordsBeyond_withArgs _ _ _
  have hartifacts : (c.goPlan place).artifacts =
      [Path.join place.directory (c.driverName ".go".toList)] := rfl
  constructor
  · intro w hw
    simp only [hwords, List.mem_cons, List.not_mem_nil, or_false] at hw
    rcases hw with rfl | rfl | rfl
    · exact .bare (by decide)
    · exact .bare hfile
    · exact .bare hn.not_mem
  · intro a ha
    rw [hartifacts, List.mem_singleton] at ha
    subst ha
    exact ⟨⟨place.directory, _⟩, by simp only [hwords, List.mem_cons, true_or, or_true],
      standsFor_join _ hn _⟩

theorem javaPlan_mentions (hid : IsScratchId c.scratchId) (hl : c.language = .java)
    (hfile : '/' ∉ place.fileName) : (c.javaPlan place).Mentions c place.directory := by
  have hsource : Path.IsName (c.runnerName ++ ".java".toList) :=
    (isFileName_runner c.scratchId _ (by decide)).isName hid
  have hclasses : Path.IsName c.classesName := IsTreeName.isName hid rfl
  have hrunner : '/' ∉ c.runnerName := fun h => hsource.not_mem (List.mem_append_left _ h)
  have hwords : (c.javaPlan place).words c =
      [⟨place.directory, "-d".toList⟩, ⟨place.directory, Path.join place.directory c.classesName⟩,
        ⟨place.directory, place.fileName⟩, ⟨place.directory, c.runnerName ++ ".java".toList⟩,
        ⟨place.directory, "-cp".toList⟩, ⟨place.directory, Path.join place.directory c.classesName⟩,
        ⟨place.directory, c.runnerName⟩] := by
    have hbuild := wordsBeyond_withArgs c.toolchain.javac place.directory
      ["-d".toList, Path.join place.directory c.classesName, place.fileName,
        c.runnerName ++ ".java".toList]
    have hrun := wordsBeyond_withArgs c.toolchain.java place.directory
      ["-cp".toList, Path.join place.directory c.classesName, c.runnerName]
    rw [Plan.words, Context.buildTool?, Context.runTool?, hl]
    exact congrArg₂ (· ++ ·) ((List.append_nil _).trans hbuild) hrun
  have hartifacts : (c.javaPlan place).artifacts =
      [Path.join place.directory (c.runnerName ++ ".java".toList),
        Path.join place.directory c.classesName] := rfl
  constructor
  · intro w hw
    simp only [hwords, List.mem_cons, List.not_mem_nil, or_false] at hw
    rcases hw with rfl | rfl | rfl | rfl | rfl | rfl | rfl
    · exact .bare (by decide)
    · exact .path _ hclasses
    · exact .bare hfile
    · exact .bare hsource.not_mem
    · exact .bare (by decide)
    · exact .path _ hclasses
    · exact .bare hrunner
  · intro a ha
    simp only [hartifacts, List.mem_cons, List.not_mem_nil, or_false] at ha
    rcases ha with rfl | rfl
    · exact ⟨⟨place.directory, _⟩, by simp only [hwords, List.mem_cons, true_or, or_true],
        standsFor_join _ hsource _⟩
    · exact ⟨⟨place.directory, Path.join place.directory c.classesName⟩,
        by simp only [hwords, List.mem_cons, true_or, or_true], rfl⟩

theorem nativePlan_eq (c : Context) (compiler : Tool) (flags : List Text) (extension : String)
    (contents : Text) (place : Place) :
    c.nativePlan compiler flags extension contents place =
      { files := [⟨Path.join place.directory (c.driverName ('.' :: extension.toList)), contents⟩]
        outputs := [Path.join place.directory c.programName]
        compile? := some ((compiler.invoke place.directory).withArgs (flags ++ ["-o".toList,
          Path.join place.directory c.programName,
          Path.join place.directory (c.driverName ('.' :: extension.toList))]))
        run := ⟨Path.join place.directory c.programName, [], place.directory⟩ } :=
  rfl

theorem nativePlan_mentions (hid : IsScratchId c.scratchId) {compiler : Tool} {flags : List Text}
    {extension : String} (contents : Text) (hbuild : c.buildTool? = some compiler)
    (hrun : c.runTool? = none) (hflags : ∀ flag ∈ flags, '/' ∉ flag)
    (he : '.' :: extension.toList ∈ endings) (place : Place) :
    (c.nativePlan compiler flags extension contents place).Mentions c place.directory := by
  have hprogram := programName_isName hid
  have hdriver := driverName_isName hid he
  have hwords : (c.nativePlan compiler flags extension contents place).words c =
      flags.map (⟨place.directory, ·⟩) ++ [⟨place.directory, "-o".toList⟩,
        ⟨place.directory, Path.join place.directory c.programName⟩,
        ⟨place.directory, Path.join place.directory (c.driverName ('.' :: extension.toList))⟩,
        ⟨place.directory, Path.join place.directory c.programName⟩] := by
    rw [nativePlan_eq, Plan.words, hbuild, hrun]
    simp only [Option.toList_some, List.flatMap_singleton, wordsBeyond_withArgs]
    simp only [wordsBeyond, List.map_append, List.map_cons, List.map_nil, List.append_assoc,
      List.cons_append, List.nil_append]
  have hartifacts : (c.nativePlan compiler flags extension contents place).artifacts =
      [Path.join place.directory (c.driverName ('.' :: extension.toList)),
        Path.join place.directory c.programName] := by
    rw [nativePlan_eq]
    rfl
  constructor
  · intro w hw
    simp only [hwords, List.mem_append, List.mem_map, List.mem_cons, List.not_mem_nil,
      or_false] at hw
    rcases hw with ⟨flag, hflag, rfl⟩ | rfl | rfl | rfl | rfl
    · exact .bare (hflags flag hflag)
    · exact .bare (by decide)
    · exact .path _ hprogram
    · exact .path _ hdriver
    · exact .path _ hprogram
  · intro a ha
    simp only [hartifacts, List.mem_cons, List.not_mem_nil, or_false] at ha
    have hnamed : ⟨place.directory, a⟩ ∈
        (c.nativePlan compiler flags extension contents place).words c := by
      rw [hwords]
      apply List.mem_append_right
      rcases ha with rfl | rfl <;> simp only [List.mem_cons, true_or, or_true]
    exact ⟨⟨place.directory, a⟩, hnamed, rfl⟩

theorem plan_mentions (h : c.plan = .ok p) (hid : IsScratchId c.scratchId) :
    p.Mentions c c.home := by
  obtain ⟨place, hp, hplan⟩ := plan_cases h
  have hfile := SourcePath.slash_not_mem_fileName hp
  rw [Context.home, hp]
  cases hplan with
  | python hl contents =>
      rw [hl]
      exact pythonPlan_mentions hid hl contents
  | java hl =>
      rw [hl]
      exact javaPlan_mentions hid hl hfile
  | go hl =>
      rw [hl]
      exact goPlan_mentions hid hl hfile
  | c hl | cpp hl =>
      rw [hl]
      exact nativePlan_mentions hid _ (by rw [Context.buildTool?, hl])
        (by rw [Context.runTool?, hl]) (by decide) (by decide) place
  | javascript hl | typescript hl =>
      rw [hl]
      exact scriptPlan_mentions hid (by rw [Context.runTool?, hl]) place

/-- For a source with an absolute path that is text, and an absolute scratch directory where the
driver is interpreted: every word of the plan that stands for an artifact leads from where it is read
to that artifact, and every artifact has such a word. -/
theorem plan_words_reach {path : Path} (h : c.plan = .ok p) (hid : IsScratchId c.scratchId)
    (source : c.source = ⟨path, .exact⟩) (absolute : Path.isAbsolute path = true)
    (scratch : c.language.isCompiled = false → Path.isAbsolute c.scratchDirectory = true) :
    (∀ w ∈ p.words c, ∀ a ∈ p.artifacts, w.StandsFor a → w.Reaches a) ∧
      ∀ a ∈ p.artifacts, ∃ w ∈ p.words c, w.StandsFor a := by
  have hmentions := plan_mentions h hid
  have habsolute : Path.isAbsolute c.source.text = true := by rwa [source]
  refine ⟨?_, hmentions.named⟩
  intro w hw a ha hs
  obtain ⟨name, hn, rfl⟩ := (plan_liesIn h).exists_name hid ha
  exact (hmentions.refers w hw).reaches (isAbsolute_home h habsolute scratch) hn hs

def scriptContext (scratch : Text) : Context where
  language := .python
  function := "f".toList
  args := []
  source := ⟨"/w/m.py".toList, .exact⟩
  sourceText := []
  scratchId := scratchId 42 7 0
  scratchDirectory := Config.scratchDirectory ⟨[(Config.key "SCRATCH_DIR", scratch)], []⟩ []
  toolchain := {}

theorem plan_words_reach_script : IsScratchId (scriptContext "/tmp".toList).scratchId ∧
    (scriptContext "/tmp".toList).source = ⟨"/w/m.py".toList, .exact⟩ ∧
    Path.isAbsolute "/w/m.py".toList = true ∧
    Path.isAbsolute (scriptContext "/tmp".toList).scratchDirectory = true ∧
    ∃ p, (scriptContext "/tmp".toList).plan = .ok p ∧
      (∀ w ∈ p.words (scriptContext "/tmp".toList), ∀ a ∈ p.artifacts,
        w.StandsFor a → w.Reaches a) ∧
      ∀ a ∈ p.artifacts, ∃ w ∈ p.words (scriptContext "/tmp".toList), w.StandsFor a := by
  have hid : IsScratchId (scriptContext "/tmp".toList).scratchId := isScratchId_scratchId 42 7 0
  have hscratch : Path.isAbsolute (scriptContext "/tmp".toList).scratchDirectory = true := rfl
  have hplan : ∃ p, (scriptContext "/tmp".toList).plan = .ok p := ⟨_, rfl⟩
  obtain ⟨p, hp⟩ := hplan
  exact ⟨hid, rfl, rfl, hscratch, p, hp, plan_words_reach hp hid rfl rfl fun _ => hscratch⟩

def oneScratch : FileSystem :=
  ⟨[(["w".toList], .directory), (["w".toList, "t".toList], .directory)]⟩

/-- With the scratch directory read from `/w`, the driver is written below `/w/t`, and looked for
below `/w/t/t`. -/
theorem relativeScratch_misses : Path.isAbsolute (scriptContext "t".toList).source.text = true ∧
    ∃ p, (scriptContext "t".toList).plan = .ok p ∧
      ∃ w ∈ p.words (scriptContext "t".toList), ∃ a ∈ p.artifacts, w.StandsFor a ∧
        ∃ (fs : FileSystem) (cwd dir l : Location), fs.locate cwd w.dir = .ok dir ∧
          fs.get? dir = some .directory ∧ fs.locate cwd a = .ok l ∧ fs.locate dir w.text ≠ .ok l := by
  refine ⟨rfl, _, rfl, _, .head _, _, .head _, rfl, oneScratch, ["w".toList],
    ["w".toList, "t".toList], ["w".toList, "t".toList, "sentinel_exec_42_7_0.py".toList], ?_⟩
  decide

end SoloCall.Driver
