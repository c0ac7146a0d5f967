import SoloCall.Dispatch.Scratch
import SoloCall.Proofs.Path.Join
import SoloCall.Proofs.Text.Decimal

namespace SoloCall

structure IsScratchId (id : Text) : Prop where
  digit : ∃ c r, id = c :: r ∧ c.isDigit = true
  chars : ∀ c ∈ id, c.isDigit = true ∨ c = '_'

theorem isScratchId_scratchId (millis pid count : Nat) :
    IsScratchId (scratchId millis pid count) := by
  constructor
  · cases hd : decimal millis with
    | nil => exact absurd hd (decimal_ne_nil millis)
    | cons c r =>
        refine ⟨c, _, by rw [scratchId, hd]; rfl, ?_⟩
        exact isDigit_of_mem_decimal (n := millis) (by simp [hd])
  · intro c hc
    simp only [scratchId, List.append_assoc, List.mem_append, List.mem_cons,
      List.cons_append] at hc
    rcases hc with hc | rfl | hc | rfl | hc
    · exact .inl (isDigit_of_mem_decimal hc)
    · exact .inr rfl
    · exact .inl (isDigit_of_mem_decimal hc)
    · exact .inr rfl
    · exact .inl (isDigit_of_mem_decimal hc)

theorem split_scratchId (millis pid count : Nat) :
    Text.split '_' (scratchId millis pid count) = [decimal millis, decimal pid, decimal count] := by
  have hn (n : Nat) : '_' ∉ decimal n := fun hm => absurd (isDigit_of_mem_decimal hm) (by decide)
  rw [scratchId, List.append_assoc, List.cons_append, Text.split_append_sep (hn millis),
    Text.split_append_sep (hn pid), Text.split_of_not_mem (hn count)]

theorem scratchId_injective {millis millis' pid pid' count count' : Nat}
    (h : scratchId millis pid count = scratchId millis' pid' count') :
    millis = millis' ∧ pid = pid' ∧ count = count' := by
  have hs := split_scratchId millis pid count
  rw [h, split_scratchId] at hs
  simp only [List.cons.injEq, and_true] at hs
  exact ⟨decimal_injective hs.1.symm, decimal_injective hs.2.1.symm, decimal_injective hs.2.2.symm⟩

theorem scratchId_ne {millis millis' pid pid' count count' : Nat} (h : count ≠ count') :
    scratchId millis pid count ≠ scratchId millis' pid' count' :=
  fun he => h (scratchId_injective he).2.2

namespace Driver

def fileFronts : List Text :=
  ["sentinel_exec_".toList, "SentinelRunner_".toList, "sentinel_runner_".toList]

def treeFront : Text := "sentinel_classes_".toList

def endings : List Text :=
  [[], ".py".toList, ".js".toList, ".java".toList, ".go".toList, ".c".toList, ".cpp".toList]

def IsFileName (id name : Text) : Prop :=
  ∃ front ∈ fileFronts, ∃ ending ∈ endings, name = front ++ id ++ ending

def IsTreeName (id name : Text) : Prop := name = treeFront ++ id

theorem isFileName_script (id ending : Text) (he : ending ∈ endings) :
    IsFileName id ("sentinel_exec_".toList ++ id ++ ending) :=
  ⟨_, by decide, ending, he, rfl⟩

theorem isFileName_runner (id ending : Text) (he : ending ∈ endings) :
    IsFileName id ("SentinelRunner_".toList ++ id ++ ending) :=
  ⟨_, by decide, ending, he, rfl⟩

theorem isFileName_driver (id ending : Text) (he : ending ∈ endings) :
    IsFileName id ("sentinel_runner_".toList ++ id ++ ending) :=
  ⟨_, by decide, ending, he, rfl⟩

theorem isFileName_program (id : Text) : IsFileName id ("sentinel_runner_".toList ++ id) := by
  have hn := isFileName_driver id [] (by decide)
  rwa [List.append_nil] at hn

def idIn (name : Text) : Text :=
  (name.takeWhile (· ≠ '.')).dropWhile fun c => !c.isDigit

def frontIn (name : Text) : Text := name.takeWhile fun c => !c.isDigit

variable {id name front ending : Text}

theorem frontIn_eq (hid : IsScratchId id) (hf : ∀ c ∈ front, c.isDigit = false) :
    frontIn (front ++ id ++ ending) = front := by
  obtain ⟨c, r, rfl, hc⟩ := hid.digit
  have hfront : ∀ c ∈ front, (!c.isDigit) = true := fun c hm => by simp [hf c hm]
  rw [frontIn, List.append_assoc, List.takeWhile_append_of_pos hfront]
  simp [hc]

theorem idIn_eq (hid : IsScratchId id) (hf : ∀ c ∈ front, c.isDigit = false ∧ c ≠ '.')
    (he : ending = [] ∨ ending.head? = some '.') : idIn (front ++ id ++ ending) = id := by
  have hbefore : ∀ c ∈ front ++ id, decide (c ≠ '.') = true := by
    intro c hc
    rcases List.mem_append.1 hc with hc | hc
    · simpa using (hf c hc).2
    · rcases hid.chars c hc with hd | rfl
      · simpa using fun he : c = '.' => absurd (he ▸ hd) (by decide)
      · decide
  have hstop : ending.takeWhile (fun c => decide (c ≠ '.')) = [] := by
    rcases he with rfl | he
    · rfl
    · cases ending with
      | nil => rfl
      | cons c r => obtain rfl : c = '.' := by simpa using he
                    simp
  have hfront : ∀ c ∈ front, (!c.isDigit) = true := fun c hm => by simp [(hf c hm).1]
  obtain ⟨c, r, rfl, hc⟩ := hid.digit
  rw [idIn, List.takeWhile_append_of_pos hbefore, hstop, List.append_nil,
    List.dropWhile_append_of_pos hfront]
  simp [hc]

def isFrontChar (c : Char) : Bool := !c.isDigit && c != '.'

theorem fileFronts_chars : ∀ front ∈ fileFronts, ∀ c ∈ front, c.isDigit = false ∧ c ≠ '.' := by
  have hall : fileFronts.all (·.all isFrontChar) = true := by decide
  intro front hf c hc
  have hfront := List.all_eq_true.1 hall front hf
  simpa [isFrontChar] using List.all_eq_true.1 hfront c hc

theorem treeFront_chars : ∀ c ∈ treeFront, c.isDigit = false ∧ c ≠ '.' := by
  have hall : treeFront.all isFrontChar = true := by decide
  intro c hc
  simpa [isFrontChar] using List.all_eq_true.1 hall c hc

theorem endings_head : ∀ ending ∈ endings, ending = [] ∨ ending.head? = some '.' := by decide

theorem IsFileName.idIn (hid : IsScratchId id) (h : IsFileName id name) : idIn name = id := by
  obtain ⟨front, hf, ending, he, rfl⟩ := h
  exact idIn_eq hid (fileFronts_chars front hf) (endings_head ending he)

theorem IsTreeName.idIn (hid : IsScratchId id) (h : IsTreeName id name) : Driver.idIn name = id := by
  have he : Driver.idIn (treeFront ++ id ++ []) = id := idIn_eq hid treeFront_chars (.inl rfl)
  rwa [List.append_nil, ← h] at he

theorem IsFileName.not_isTreeName {id' : Text} (hid : IsScratchId id) (hid' : IsScratchId id')
    (h : IsFileName id name) : ¬ IsTreeName id' name := by
  obtain ⟨front, hf, ending, -, rfl⟩ := h
  intro ht
  have hfile : frontIn (front ++ id ++ ending) = front :=
    frontIn_eq hid fun c hc => (fileFronts_chars front hf c hc).1
  have htree : frontIn (treeFront ++ id' ++ []) = treeFront :=
    frontIn_eq hid' fun c hc => (treeFront_chars c hc).1
  rw [List.append_nil, ← ht, hfile] at htree
  revert hf
  rw [htree]
  decide

theorem isName_of_idIn (hid : IsScratchId id) (hs : '/' ∉ name) (h : Driver.idIn name = id) :
    Path.IsName name := by
  obtain ⟨c, r, rfl, hc⟩ := hid.digit
  refine ⟨?_, hs, ?_, ?_⟩ <;> rintro rfl <;> simp [Driver.idIn] at h

theorem slash_not_mem (hid : IsScratchId id) (hf : '/' ∉ front) (he : '/' ∉ ending) :
    '/' ∉ front ++ id ++ ending := by
  have hi : '/' ∉ id := fun hm => absurd (hid.chars _ hm) (by decide)
  simp [hf, hi, he]

theorem IsFileName.isName (hid : IsScratchId id) (h : IsFileName id name) : Path.IsName name := by
  refine isName_of_idIn hid ?_ (h.idIn hid)
  obtain ⟨front, hf, ending, he, rfl⟩ := h
  have hfronts : ∀ front ∈ fileFronts, '/' ∉ front := by decide
  have hendings : ∀ ending ∈ endings, '/' ∉ ending := by decide
  exact slash_not_mem hid (hfronts front hf) (hendings ending he)

theorem IsTreeName.isName (hid : IsScratchId id) (h : IsTreeName id name) : Path.IsName name := by
  refine isName_of_idIn hid ?_ (h.idIn hid)
  have hs : '/' ∉ treeFront ++ id ++ [] := slash_not_mem hid (by decide) (by decide)
  rw [h]
  simpa using hs

/-- The directory that holds what a plan leaves behind: that of the scratch files where the
driver is only interpreted, that of the source otherwise. -/
def Context.home (c : Context) : Path :=
  match c.language with
  | .python | .javascript | .typescript => c.scratchDirectory
  | .java | .go | .c | .cpp | .unknown => (c.source.place?.map Place.directory).getD []

/-- Everything a plan leaves behind is a name in one directory. -/
structure Plan.LiesIn (p : Plan) (home : Path) (id : Text) : Prop where
  file : ∃ name contents, IsFileName id name ∧ p.files = [⟨Path.join home name, contents⟩]
  outputs : ∀ a ∈ p.outputs, ∃ name, IsFileName id name ∧ a = Path.join home name
  directories : ∀ a ∈ p.directories, ∃ name, IsTreeName id name ∧ a = Path.join home name

variable {c : Context} {p : Plan} {place : Place}

def Context.pythonPlanOf (c : Context) (contents : Text) : Plan where
  files := [⟨c.scriptPath "py", contents⟩]
  run := (c.toolchain.python.invoke c.scratchDirectory).withArgs [c.scriptPath "py"]

theorem pythonPlan_eq_ok (h : c.pythonPlan place = .ok p) :
    ∃ contents, p = c.pythonPlanOf contents := by
  rw [Context.pythonPlan] at h
  cases hc : c.pythonContents place with
  | error e => simp [hc, bind, Except.bind] at h
  | ok contents =>
      simp only [hc, bind, Except.bind, pure, Except.pure, Except.ok.injEq] at h
      exact ⟨contents, h.symm⟩

theorem pythonPlan_liesIn (c : Context) (contents : Text) :
    (c.pythonPlanOf contents).LiesIn c.scratchDirectory c.scratchId := by
  have hn := isFileName_script c.scratchId ".py".toList (by decide)
  exact ⟨⟨_, contents, hn, rfl⟩, by simp [Context.pythonPlanOf], by simp [Context.pythonPlanOf]⟩

theorem scriptPlan_liesIn (c : Context) (tool : Tool) (place : Place) :
    (c.scriptPlan tool place).LiesIn c.scratchDirectory c.scratchId := by
  have hn := isFileName_script c.scratchId ".js".toList (by decide)
  exact ⟨⟨_, _, hn, rfl⟩, by simp [Context.scriptPlan], by simp [Context.scriptPlan]⟩

theorem javaPlan_liesIn (c : Context) (place : Place) :
    (c.javaPlan place).LiesIn place.directory c.scratchId := by
  have hn := isFileName_runner c.scratchId ".java".toList (by decide)
  exact ⟨⟨_, _, hn, rfl⟩, by simp [Context.javaPlan],
    fun a ha => ⟨_, rfl, List.mem_singleton.1 ha⟩⟩

theorem goPlan_liesIn (c : Context) (place : Place) :
    (c.goPlan place).LiesIn place.directory c.scratchId := by
  have hn := isFileName_driver c.scratchId ".go".toList (by decide)
  exact ⟨⟨_, _, hn, rfl⟩, by simp [Context.goPlan], by simp [Context.goPlan]⟩

theorem nativePlan_liesIn (c : Context) (compiler : Tool) (flags : List Text) {extension : String}
    (contents : Text) (place : Place) (he : '.' :: extension.toList ∈ endings) :
    (c.nativePlan compiler flags extension contents place).LiesIn place.directory c.scratchId := by
  exact ⟨⟨_, contents, isFileName_driver c.scratchId _ he, rfl⟩,
    fun a ha => ⟨_, isFileName_program c.scratchId, List.mem_singleton.1 ha⟩,
    by simp [Context.nativePlan]⟩

inductive Context.Plans (c : Context) (place : Place) : Plan → Prop
  | python (hl : c.language = .python) (contents : Text) : Plans c place (c.pythonPlanOf contents)
  | java (hl : c.language = .java) : Plans c place (c.javaPlan place)
  | go (hl : c.language = .go) : Plans c place (c.goPlan place)
  | c (hl : c.language = .c) : Plans c place (c.cPlan place)
  | cpp (hl : c.language = .cpp) : Plans c place (c.cppPlan place)
  | javascript (hl : c.language = .javascript) :
      Plans c place (c.scriptPlan c.toolchain.node place)
  | typescript (hl : c.language = .typescript) :
      Plans c place (c.scriptPlan c.toolchain.tsRuntime place)

theorem plan_cases (h : c.plan = .ok p) :
    ∃ place, c.source.place? = some place ∧ c.Plans place p := by
  rw [Context.plan] at h
  cases hp : c.source.place? with
  | none => simp [hp] at h
  | some place =>
      refine ⟨place, rfl, ?_⟩
      cases hl : c.language <;> simp only [hp, hl, Except.ok.injEq, reduceCtorEq] at h
      case python =>
        obtain ⟨contents, rfl⟩ := pythonPlan_eq_ok h
        exact .python hl contents
      case java => exact h ▸ .java hl
      case go => exact h ▸ .go hl
      case c => exact h ▸ .c hl
      case cpp => exact h ▸ .cpp hl
      case javascript => exact h ▸ .javascript hl
      case typescript => exact h ▸ .typescript hl

theorem plan_liesIn (h : c.plan = .ok p) : p.LiesIn c.home c.scratchId := by
  obtain ⟨place, hp, hplan⟩ := plan_cases h
  rw [Context.home, hp]
  cases hplan with
  | python hl contents => rw [hl]; exact pythonPlan_liesIn c contents
  | java hl => rw [hl]; exact javaPlan_liesIn c place
  | go hl => rw [hl]; exact goPlan_liesIn c place
  | c hl | cpp hl => rw [hl]; exact nativePlan_liesIn c _ _ _ place (by decide)
  | javascript hl | typescript hl => rw [hl]; exact scriptPlan_liesIn c _ place

/-- The last name of an artifact tells the execution that it belongs to. -/
theorem Plan.LiesIn.exists_idIn {home a : Path} (hl : p.LiesIn home id) (hid : IsScratchId id)
    (ha : a ∈ p.artifacts) :
    ∃ name, Path.IsName name ∧ idIn name = id ∧ a = Path.join home name := by
  obtain ⟨file, contents, hfile, hfiles⟩ := hl.file
  simp only [Plan.artifacts, hfiles, List.map_cons, List.map_nil, List.mem_append,
    List.mem_singleton] at ha
  rcases ha with (rfl | ha) | ha
  · exact ⟨file, hfile.isName hid, hfile.idIn hid, rfl⟩
  · obtain ⟨name, hname, rfl⟩ := hl.outputs a ha
    exact ⟨name, hname.isName hid, hname.idIn hid, rfl⟩
  · obtain ⟨name, hname, rfl⟩ := hl.directories a ha
    exact ⟨name, hname.isName hid, hname.idIn hid, rfl⟩

theorem Plan.LiesIn.exists_name {home a : Path} (hl : p.LiesIn home id) (hid : IsScratchId id)
    (ha : a ∈ p.artifacts) : ∃ name, Path.IsName name ∧ a = Path.join home name := by
  obtain ⟨name, hn, -, ha⟩ := hl.exists_idIn hid ha
  exact ⟨name, hn, ha⟩

/-- A plan that makes directories makes them beside the source. -/
theorem plan_directories (h : c.plan = .ok p) :
    p.directories = [] ∨ ∃ place, c.source.place? = some place ∧ c.home = place.directory := by
  obtain ⟨place, hp, hplan⟩ := plan_cases h
  cases hplan with
  | python | javascript | typescript => exact .inl rfl
  | java hl | go hl | c hl | cpp hl => exact .inr ⟨place, hp, by rw [Context.home, hl, hp]; rfl⟩

end Driver

end SoloCall
