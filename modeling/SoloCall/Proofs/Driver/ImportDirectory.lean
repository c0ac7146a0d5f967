import SoloCall.Proofs.Driver.MethodRoute
import SoloCall.Proofs.Driver.SourceDirectory

namespace SoloCall

namespace Driver

variable {c : Context} {place : Place} {s : Scheme} {plan : Plan} {t r value rest : Text}

/-- What a raw literal stands for from behind its opening quote, and what follows its closing quote.
A backslash stands for itself and keeps the character behind it, even a quote, in the literal. The
literal ends on its line. -/
def rawBody? : Text → Option (Text × Text)
  | [] => none
  | '\'' :: r => some ([], r)
  | '\\' :: e :: r =>
    if e = '\n' || e = '\r' then none
    else (rawBody? r).map fun p => ('\\' :: e :: p.1, p.2)
  | c :: r =>
    if c = '\\' || c = '\n' || c = '\r' then none
    else (rawBody? r).map fun p => (c :: p.1, p.2)

def rawLiteral? (t : Text) : Option (Text × Text) := do
  let body ← Text.after? ['r', '\''] t
  guard !Text.startsWith ['\'', '\''] body
  rawBody? body

def rawMarks : List Char := ['\'', '\\', '\n', '\r']

theorem rawBody?_plain {d : Char} (hd : d ∉ rawMarks) (r : Text) :
    rawBody? (d :: r) = (rawBody? r).map fun p => (d :: p.1, p.2) := by
  simp only [rawMarks, List.mem_cons, List.not_mem_nil, or_false, not_or] at hd
  obtain ⟨hquote, hslash, hfeed, hreturn⟩ := hd
  rw [rawBody?]
  · simp [hslash, hfeed, hreturn]
  · exact hquote
  · exact fun _ _ h => absurd h hslash

theorem rawBody?_append (ht : ∀ d ∈ t, d ∉ rawMarks) (r : Text) :
    rawBody? (t ++ '\'' :: r) = some (t, r) := by
  induction t with
  | nil => rfl
  | cons d t ih =>
      rw [List.cons_append, rawBody?_plain (ht d List.mem_cons_self),
        ih fun e he => ht e (List.mem_cons_of_mem _ he)]
      rfl

theorem rawBody?_eq_some (h : rawBody? t = some (value, rest)) :
    t = value ++ '\'' :: rest ∧ ('\\' ∉ value → ∀ d ∈ value, d ∉ rawMarks) := by
  induction t using rawBody?.induct generalizing value with
  | case1 => simp [rawBody?] at h
  | case2 r =>
      obtain ⟨rfl, rfl⟩ : [] = value ∧ r = rest := by simpa [rawBody?] using h
      simp
  | case3 e r hbreak => simp [rawBody?, hbreak] at h
  | case4 e r hbreak ih =>
      rw [rawBody?, if_neg hbreak] at h
      obtain ⟨⟨value, rest'⟩, hr, heq⟩ := Option.map_eq_some_iff.1 h
      obtain ⟨rfl, rfl⟩ := Prod.mk.inj heq
      exact ⟨by simp [(ih hr).1], fun hslash => absurd List.mem_cons_self hslash⟩
  | case5 d r hquote hslash hbreak => simp_all [rawBody?]
  | case6 d r hquote hslash hbreak ih =>
      have hd : d ∉ rawMarks := by
        simp only [Bool.or_eq_true, decide_eq_true_eq, not_or] at hbreak
        simpa [rawMarks] using ⟨hquote, hbreak.1.1, hbreak.1.2, hbreak.2⟩
      rw [rawBody?_plain hd] at h
      obtain ⟨⟨value, rest'⟩, hr, heq⟩ := Option.map_eq_some_iff.1 h
      obtain ⟨rfl, rfl⟩ := Prod.mk.inj heq
      obtain ⟨hcut, hplain⟩ := ih hr
      refine ⟨by simp [hcut], fun hno => List.forall_mem_cons.2 ⟨hd, hplain ?_⟩⟩
      exact fun hm => hno (List.mem_cons_of_mem _ hm)

theorem forwardSlashes_eq_self (h : '\\' ∉ t) : forwardSlashes t = t := by
  have hchar : ∀ d ∈ t, (if d = '\\' then '/' else d) = id d := by
    intro d hd
    rw [if_neg fun heq : d = '\\' => h (heq ▸ hd)]
    rfl
  rw [forwardSlashes, List.map_congr_left hchar, List.map_id]

theorem not_mem_forwardSlashes (t : Text) : '\\' ∉ forwardSlashes t := by
  rw [forwardSlashes, List.mem_map]
  rintro ⟨d, -, hd⟩
  split at hd
  · cases hd
  · contradiction

theorem infix_of_infix_forwardSlashes {part : Text} (hs : '/' ∉ part)
    (h : part <:+: forwardSlashes t) : part <:+: t := by
  obtain ⟨front, rest, hcut⟩ := h
  obtain ⟨left, rest', rfl, hleft, -⟩ := List.map_eq_append_iff.1 hcut.symm
  obtain ⟨front', part', rfl, -, hpart⟩ := List.map_eq_append_iff.1 hleft
  have hslash : '\\' ∉ part' := by
    intro hm
    apply hs
    rw [← hpart]
    exact List.mem_map.2 ⟨_, hm, rfl⟩
  have hsame : part' = part := (forwardSlashes_eq_self hslash).symm.trans hpart
  exact ⟨front', rest', by rw [hsame]⟩

theorem rawLiteral?_of_head (hne : t ≠ []) (hquote : t.head? ≠ some '\'') (r : Text) :
    rawLiteral? ('r' :: '\'' :: (t ++ r)) = rawBody? (t ++ r) := by
  obtain ⟨d, t, rfl⟩ := List.exists_cons_of_ne_nil hne
  have hd : ¬ '\'' = d := fun heq => hquote (by rw [heq]; rfl)
  simp [rawLiteral?, Text.after?, Text.startsWith, hd]

theorem rawLiteral?_forwardSlashes_iff {path : Path} (ha : Path.isAbsolute path = true) (r : Text) :
    (∃ behind, rawLiteral? ('r' :: '\'' :: (forwardSlashes path ++ '\'' :: r)) =
      some (path, behind)) ↔ ∀ d ∈ path, d ∉ rawMarks := by
  obtain ⟨q, rfl⟩ : ∃ q, path = '/' :: q := by
    rw [Path.isAbsolute, decide_eq_true_eq] at ha
    exact List.head?_eq_some_iff.1 ha
  have hread : rawLiteral? ('r' :: '\'' :: (forwardSlashes ('/' :: q) ++ '\'' :: r)) =
      rawBody? (forwardSlashes ('/' :: q) ++ '\'' :: r) :=
    rawLiteral?_of_head (by simp [forwardSlashes]) (by simp [forwardSlashes]) _
  rw [hread]
  constructor
  · rintro ⟨behind, h⟩
    obtain ⟨hcut, hplain⟩ := rawBody?_eq_some h
    have hsame : forwardSlashes ('/' :: q) = '/' :: q :=
      (List.append_inj hcut (by simp [forwardSlashes])).1
    exact hplain (hsame ▸ not_mem_forwardSlashes ('/' :: q))
  · intro h
    have hslash : '\\' ∉ '/' :: q := fun hm => h _ hm (by decide)
    rw [forwardSlashes_eq_self hslash]
    exact ⟨r, rawBody?_append h r⟩

def importHead : Text :=
  "import sys, json\nsys.dont_write_bytecode = True\nsys.path.insert(0, ".toList

/-- The driver looks for modules in the directory first, which it names by a raw literal. -/
def ImportsFrom (driver : Text) (directory : Path) : Prop :=
  ∃ literal behind, driver = importHead ++ literal ∧
    rawLiteral? literal = some (directory, behind)

theorem exists_text_behind_directory {template : Template}
    (h : template ∈ [pythonFunction, pythonMethod]) : ∃ behind, template.text =
      importHead ++ ['r'] ++ '\'' :: (Key.directory.placeholder ++ '\'' :: behind) := by
  refine ⟨(Template.text (template.drop 6)).tail, ?_⟩
  simp only [List.mem_cons, List.not_mem_nil, or_false] at h
  rcases h with rfl | rfl
  · unfold importHead pythonFunction
    repeat rw [lit_ofList]
    rfl
  · unfold importHead pythonMethod
    repeat rw [lit_ofList]
    rfl

namespace Template

variable {values : Assignment}

theorem substitute_of_not_infix (h : ∀ v ∈ values, ¬ v.1.placeholder <:+: t) :
    substitute values t = t := by
  induction values with
  | nil => rfl
  | cons v rest ih =>
      have hv := h v List.mem_cons_self
      rw [substitute, List.foldl_cons, Text.replaceAll_of_not_infix v.1.placeholder_ne_nil hv]
      exact ih fun w hw => h w (List.mem_cons_of_mem _ hw)

theorem substitute_importHead (values : Assignment) :
    substitute values (importHead ++ ['r']) = importHead ++ ['r'] := by
  have hbraces : Text.hasPart ['\x7b', '\x7b'] (importHead ++ ['r']) = false := by rfl
  apply substitute_of_not_infix
  intro v _ hv
  have hpart := Text.hasPart_iff_infix.2 (v.1.braces_prefix_placeholder.isInfix.trans hv)
  rw [hbraces] at hpart
  cases hpart

end Template

/-- What a Python driver has in the place of its directory: the path with forward slashes, in which
the values that are filled in later have replaced their placeholders. -/
def Scheme.written (s : Scheme) (arguments : Text) (directory : Path) : Text :=
  Template.substitute (s.assignment arguments).tail (forwardSlashes directory)

theorem exists_render_behind_directory (hl : c.language = .python)
    (h : c.scheme? place = some s) (arguments : Text) :
    ∃ behind, s.template.render (s.assignment arguments) =
      importHead ++ 'r' :: '\'' :: (s.written arguments place.directory ++ '\'' :: behind) := by
  have hs : s.template ∈ [pythonFunction, pythonMethod] ∧
      ∃ later, s.fixed = (.directory, forwardSlashes place.directory) :: later := by
    simp only [Context.scheme?, hl] at h
    split at h
    · obtain ⟨className, -, rfl⟩ := Option.map_eq_some_iff.1 h
      exact ⟨by simp, _, rfl⟩
    · obtain rfl := Option.some.inj h
      exact ⟨by simp, _, rfl⟩
  obtain ⟨htemplate, later, hfixed⟩ := hs
  obtain ⟨behind, htext⟩ := exists_text_behind_directory htemplate
  have hvalues : s.assignment arguments = (.directory, forwardSlashes place.directory) ::
      (s.assignment arguments).tail := by
    rw [Scheme.assignment, hfixed]
    rfl
  have hhole : Template.substitute (s.assignment arguments) Key.directory.placeholder =
      s.written arguments place.directory := by
    rw [hvalues, Template.substitute, List.foldl_cons,
      Text.replaceAll_self Key.directory.placeholder_ne_nil]
    rfl
  refine ⟨Template.substitute (s.assignment arguments) behind, ?_⟩
  show Template.substitute (s.assignment arguments) s.template.text = _
  have hseam (a b : Text) := Template.substitute_append_cons (d := '\'') rfl
    (s.assignment arguments) a b
  rw [htext, hseam, hseam, Template.substitute_importHead, hhole, List.append_assoc]
  rfl

theorem Scheme.written_eq {arguments : Text} {directory : Path}
    (h : ∀ v ∈ (s.assignment arguments).tail, ¬ v.1.placeholder <:+: directory) :
    s.written arguments directory = forwardSlashes directory := by
  apply Template.substitute_of_not_infix
  intro v hv hinfix
  exact h v hv (infix_of_infix_forwardSlashes (v.1.not_mem_placeholder rfl) hinfix)

theorem exists_driver (hl : c.language = .python) (h : c.plan = .ok plan) :
    ∃ place s behind, c.source.place? = some place ∧ c.scheme? place = some s ∧
      plan.HasContents (importHead ++ 'r' :: '\'' ::
        (s.written c.argumentText place.directory ++ '\'' :: behind)) := by
  obtain ⟨place, s, hp, hs⟩ := exists_plan_iff.1 ⟨plan, h⟩
  obtain ⟨plan', hplan, hcontents⟩ := plan_of_scheme? hp hs
  obtain rfl := Except.ok.inj (h.symm.trans hplan)
  obtain ⟨behind, hrender⟩ := exists_render_behind_directory hl hs c.argumentText
  exact ⟨place, s, behind, hp, hs, hrender ▸ hcontents⟩

theorem importsFrom_iff {directory : Path} (ha : Path.isAbsolute directory = true) (r : Text) :
    ImportsFrom (importHead ++ 'r' :: '\'' :: (forwardSlashes directory ++ '\'' :: r)) directory ↔
      ∀ d ∈ directory, d ∉ rawMarks := by
  rw [← rawLiteral?_forwardSlashes_iff ha r]
  constructor
  · rintro ⟨literal, behind, hcut, hread⟩
    rw [← List.append_cancel_left hcut] at hread
    exact ⟨behind, hread⟩
  · rintro ⟨behind, hread⟩
    exact ⟨_, behind, rfl, hread⟩

/-- The driver of a source with an absolute path names the directory above it between quotes. If no
value filled in later has its placeholder in the path, the driver imports from that directory if and
only if no quote, backslash or line break is in its path. -/
theorem plan_importsFrom (hl : c.language = .python) (ha : Path.isAbsolute c.source.text = true)
    (h : c.plan = .ok plan) :
    ∃ place s behind driver, c.source.place? = some place ∧ c.scheme? place = some s ∧
      Path.parent? c.source.text = some place.directory ∧ plan.HasContents driver ∧
      driver = importHead ++ 'r' :: '\'' ::
        (s.written c.argumentText place.directory ++ '\'' :: behind) ∧
      ((∀ v ∈ (s.assignment c.argumentText).tail, ¬ v.1.placeholder <:+: place.directory) →
        (ImportsFrom driver place.directory ↔ ∀ d ∈ place.directory, d ∉ rawMarks)) := by
  obtain ⟨place, s, behind, hp, hs, hcontents⟩ := exists_driver hl h
  obtain ⟨hparent, habsolute⟩ := SourcePath.parent?_of_isAbsolute hp ha
  refine ⟨place, s, behind, _, hp, hs, hparent, hcontents, rfl, fun hfree => ?_⟩
  rw [Scheme.written_eq hfree]
  exact importsFrom_iff habsolute behind

def contextAt (path : String) : Context :=
  { areaContext "def area(r):\n    return r\n" with source := ⟨path.toList, .exact⟩ }

def spacedContext : Context := contextAt "/w/a \"b\" \x7b\x7bc\x7d\x7d/shape.py"

theorem plan_importsFrom_spaced : ∃ plan driver,
    spacedContext.language = .python ∧ Path.isAbsolute spacedContext.source.text = true ∧
      spacedContext.plan = .ok plan ∧ plan.HasContents driver ∧
      ImportsFrom driver "/w/a \"b\" \x7b\x7bc\x7d\x7d".toList := by
  have hplace : spacedContext.source.place? =
      some ⟨"/w/a \"b\" \x7b\x7bc\x7d\x7d".toList, "shape.py".toList, "shape".toList⟩ := by
    rfl
  obtain ⟨plan, hplan⟩ := exists_plan_iff.2 ⟨_, _, hplace, rfl⟩
  obtain ⟨place, s, behind, driver, hp, hs, -, hcontents, -, hiff⟩ :=
    plan_importsFrom (c := spacedContext) rfl rfl hplan
  obtain rfl := Option.some.inj (hp.symm.trans hplace)
  obtain rfl := Option.some.inj (hs.symm.trans rfl)
  have hplain : "/w/a \"b\" \x7b\x7bc\x7d\x7d".toList.all (fun d => !rawMarks.contains d) =
      true := by rfl
  exact ⟨plan, driver, rfl, rfl, hplan, hcontents,
    (hiff (by decide)).2 fun d hd => by simpa using List.all_eq_true.1 hplain d hd⟩

def quotedContext : Context := contextAt "/w/it's/shape.py"

theorem plan_importsFrom_quote : ¬ ∀ (c : Context) (plan : Plan) (directory : Path),
    c.language = .python → Path.isAbsolute c.source.text = true → c.plan = .ok plan →
    Path.parent? c.source.text = some directory →
    ∃ driver, plan.HasContents driver ∧ ImportsFrom driver directory := by
  intro hall
  have hplace : quotedContext.source.place? =
      some ⟨"/w/it's".toList, "shape.py".toList, "shape".toList⟩ := by rfl
  obtain ⟨plan, hplan⟩ := exists_plan_iff.2 ⟨_, _, hplace, rfl⟩
  obtain ⟨driver, hdriver, himports⟩ :=
    hall quotedContext plan "/w/it's".toList rfl rfl hplan (by rfl)
  obtain ⟨place, s, behind, hp, hs, hcontents⟩ := exists_driver rfl hplan
  obtain rfl := Option.some.inj (hp.symm.trans hplace)
  obtain rfl := Option.some.inj (hs.symm.trans rfl)
  rw [hdriver.unique hcontents, Scheme.written_eq (by decide)] at himports
  have hplain := (importsFrom_iff rfl behind).1 himports
  exact hplain '\'' (by decide) (by decide)

end Driver

end SoloCall
