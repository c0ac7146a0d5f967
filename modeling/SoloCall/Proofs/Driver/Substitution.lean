import SoloCall.Driver.Plan
import SoloCall.Proofs.Text.Replace

namespace SoloCall

namespace Driver

variable {template : Template} {values : Assignment} {j k : Key} {p q : Piece}

def isPlaceholderChar (c : Char) : Bool := c = '\x7b' || c = '\x7d' || c = '_' || c.isLower

theorem Key.isPlaceholderChar_of_mem (k : Key) :
    ∀ c ∈ k.placeholder, isPlaceholderChar c = true := by
  have hall : k.placeholder.all isPlaceholderChar = true := by cases k <;> decide
  exact List.all_eq_true.1 hall

theorem Key.not_mem_placeholder (k : Key) {c : Char} (h : isPlaceholderChar c = false) :
    c ∉ k.placeholder := by
  intro hc
  rw [k.isPlaceholderChar_of_mem c hc] at h
  cases h

theorem Key.placeholder_ne_nil (k : Key) : k.placeholder ≠ [] := by simp [placeholder]

theorem Key.braces_prefix_placeholder (k : Key) : ['\x7b', '\x7b'] <+: k.placeholder := by
  rw [placeholder, List.append_assoc]
  exact List.prefix_append _ _

theorem Key.placeholder_not_infix (h : j ≠ k) : ¬ k.placeholder <:+: j.placeholder := by
  rw [← Text.hasPart_iff_infix]
  cases j <;> cases k <;> first | exact absurd rfl h | decide

namespace Piece

def filled (values : Assignment) : Piece → Text
  | text t => t
  | hole k => (values.lookup k).getD k.placeholder

def isPlain : Piece → Bool
  | text t => !Text.hasPart ['\x7b', '\x7b'] t
  | hole _ => true

def startsForeign : Piece → Bool
  | text t => t.head?.any fun c => !isPlaceholderChar c
  | hole _ => false

def endsForeign : Piece → Bool
  | text t => t.getLast?.any fun c => !isPlaceholderChar c
  | hole _ => false

theorem replaceAll_filled (hp : p.isPlain = true)
    (hv : ∀ v ∈ values, ¬ k.placeholder <:+: v.2) (value : Text) :
    Text.replaceAll k.placeholder value (p.filled values) = p.filled (values ++ [(k, value)]) := by
  cases p with
  | text t =>
      apply Text.replaceAll_of_not_infix k.placeholder_ne_nil
      intro hk
      have hbraces : Text.hasPart ['\x7b', '\x7b'] t = true :=
        Text.hasPart_iff_infix.2 (k.braces_prefix_placeholder.isInfix.trans hk)
      simp [isPlain, hbraces] at hp
  | hole j =>
      rw [filled, filled, List.lookup_append]
      cases hj : values.lookup j with
      | some w =>
          have hw : (j, w) ∈ values := by
            obtain ⟨front, rest, rfl, -⟩ := List.lookup_eq_some_iff.1 hj
            simp
          exact Text.replaceAll_of_not_infix k.placeholder_ne_nil (hv _ hw) value
      | none =>
          by_cases hjk : j = k
          · subst hjk
            simpa using Text.replaceAll_self j.placeholder_ne_nil value
          · have hsame := Text.replaceAll_of_not_infix k.placeholder_ne_nil
              (Key.placeholder_not_infix hjk) value
            have hbeq : (j == k) = false := beq_false_of_ne hjk
            simpa [List.lookup_cons, hbeq] using hsame

end Piece

namespace Template

theorem fill_cons (p : Piece) (rest : Template) (values : Assignment) :
    fill (p :: rest) values = p.filled values ++ fill rest values := by
  cases p <;> rfl

theorem text_eq_fill (template : Template) : template.text = template.fill [] := by
  rfl

/-- Whether placeholders stand only in the holes, and a character that is foreign to them stands
between any two pieces. -/
def isSpaced : Template → Bool
  | [] => true
  | [p] => p.isPlain
  | p :: q :: rest => p.isPlain && (p.endsForeign || q.startsForeign) && isSpaced (q :: rest)

theorem isPlain_of_isSpaced (hs : template.isSpaced = true) : ∀ p ∈ template, p.isPlain = true := by
  induction template with
  | nil => simp
  | cons p rest ih =>
      cases rest with
      | nil => simpa [isSpaced] using hs
      | cons q rest =>
          simp only [isSpaced, Bool.and_eq_true] at hs
          exact List.forall_mem_cons.2 ⟨hs.1.1, ih hs.2⟩

theorem not_infix_of_isSpaced {t : Text} (hs : template.isSpaced = true)
    (ht : .text t ∈ template) : ¬ ['\x7b', '\x7b'] <:+: t := by
  have hplain := isPlain_of_isSpaced hs _ ht
  rw [← Text.hasPart_iff_infix]
  simpa [Piece.isPlain] using hplain

theorem parts_of_foreign (h : (p.endsForeign || q.startsForeign) = true) (k : Key)
    (values : Assignment) (rest : Template) :
    Text.Parts k.placeholder (p.filled values) (fill (q :: rest) values) := by
  rcases Bool.or_eq_true_iff.1 h with hp | hq
  · cases p with
    | hole j => cases hp
    | text t =>
        obtain ⟨c, hl, hc⟩ := (Option.any_eq_true _ _).1 hp
        exact Or.inl ⟨c, hl, k.not_mem_placeholder (by simpa using hc)⟩
  · cases q with
    | hole j => cases hq
    | text t =>
        obtain ⟨c, hh, hc⟩ := (Option.any_eq_true _ _).1 hq
        refine Or.inr ⟨c, ?_, k.not_mem_placeholder (by simpa using hc)⟩
        rw [fill_cons, List.head?_append, Piece.filled, hh]
        rfl

theorem replaceAll_fill (hs : template.isSpaced = true)
    (hv : ∀ v ∈ values, ¬ k.placeholder <:+: v.2) (value : Text) :
    Text.replaceAll k.placeholder value (template.fill values) =
      template.fill (values ++ [(k, value)]) := by
  induction template with
  | nil => rfl
  | cons p rest ih =>
      cases rest with
      | nil =>
          simp only [isSpaced] at hs
          rw [fill_cons, fill_cons]
          simpa [fill] using Piece.replaceAll_filled hs hv value
      | cons q rest =>
          simp only [isSpaced, Bool.and_eq_true] at hs
          obtain ⟨⟨hp, hforeign⟩, hrest⟩ := hs
          rw [fill_cons, fill_cons p, (parts_of_foreign hforeign k values rest).replaceAll_append
            k.placeholder_ne_nil, Piece.replaceAll_filled hp hv, ih hrest]

/-- No value holds the placeholder of a key that is filled after it. -/
def Independent (values : Assignment) : Prop :=
  values.Pairwise fun v w => ¬ w.1.placeholder <:+: v.2

instance (values : Assignment) : Decidable (Independent values) :=
  inferInstanceAs (Decidable (List.Pairwise _ _))

theorem render_eq_fill (hs : template.isSpaced = true) (hv : Independent values) :
    template.render values = template.fill values := by
  -- By induction on what is left to fill: the text so far is the template with `done` filled in.
  have hrun (done rest : Assignment) (hrest : Independent (done ++ rest)) :
      rest.foldl (fun t v => Text.replaceAll v.1.placeholder v.2 t) (template.fill done) =
        template.fill (done ++ rest) := by
    induction rest generalizing done with
    | nil => rw [List.append_nil]; rfl
    | cons v rest ih =>
        have hdone : ∀ w ∈ done, ¬ v.1.placeholder <:+: w.2 := by
          intro w hw
          exact (List.pairwise_append.1 hrest).2.2 w hw v List.mem_cons_self
        have hshape : done ++ v :: rest = done ++ [v] ++ rest := by simp
        rw [List.foldl_cons, replaceAll_fill hs hdone, hshape]
        exact ih (done ++ [v]) (hshape ▸ hrest)
  rw [render, text_eq_fill]
  exact hrun [] values hv

def holes (template : Template) : List Key :=
  template.filterMap fun
    | .text _ => none
    | .hole k => some k

def call : Text := '(' :: (Key.arguments.placeholder ++ [')'])

/-- A template of a driver: its holes stand apart, they are for these keys and the arguments, and
the arguments stand in a call. -/
def isDriver (template : Template) (fixed : List Key) : Bool :=
  template.isSpaced && template.holes.all (fixed ++ [Key.arguments]).contains &&
    !fixed.contains Key.arguments && Text.hasPart call template.text

structure IsDriver (template : Template) (fixed : List Key) : Prop where
  spaced : template.isSpaced = true
  hole_mem : ∀ k ∈ template.holes, k ∈ fixed ++ [Key.arguments]
  arguments_notMem : Key.arguments ∉ fixed
  call_infix : call <:+: template.text

theorem isDriver_iff {fixed : List Key} :
    template.isDriver fixed = true ↔ template.IsDriver fixed := by
  simp only [isDriver, Bool.and_eq_true, Bool.not_eq_true', List.all_eq_true,
    Bool.eq_false_iff, ne_eq, List.contains_iff_mem, Text.hasPart_iff_infix]
  constructor
  · rintro ⟨⟨⟨spaced, holes⟩, arguments⟩, call⟩
    exact ⟨spaced, holes, arguments, call⟩
  · rintro ⟨spaced, holes, arguments, call⟩
    exact ⟨⟨⟨spaced, holes⟩, arguments⟩, call⟩

theorem call_infix_replaceAll {t : Text} (hk : k ≠ .arguments) (value : Text) (h : call <:+: t) :
    call <:+: Text.replaceAll k.placeholder value t :=
  Text.infix_replaceAll k.placeholder_ne_nil (k.not_mem_placeholder rfl)
    (k.not_mem_placeholder rfl) (Key.placeholder_not_infix hk.symm) value h

theorem call_infix_render (hv : .arguments ∉ values.map Prod.fst) (h : call <:+: template.text) :
    call <:+: template.render values := by
  have hrun (t : Text) (ht : call <:+: t) :
      call <:+: values.foldl (fun t v => Text.replaceAll v.1.placeholder v.2 t) t := by
    induction values generalizing t with
    | nil => exact ht
    | cons v rest ih =>
        rw [List.map_cons, List.mem_cons, not_or] at hv
        exact ih hv.2 _ (call_infix_replaceAll (Ne.symm hv.1) v.2 ht)
  exact hrun template.text h

theorem render_append (template : Template) (values : Assignment) (k : Key) (value : Text) :
    template.render (values ++ [(k, value)]) =
      Text.replaceAll k.placeholder value (template.render values) := by
  rw [render, List.foldl_append]
  rfl

end Template

/-- Evaluation is slow at the characters of a literal; this shows them without it. -/
theorem lit_ofList (t : Text) : lit (String.ofList t) = .text t := by
  rw [lit, String.toList_ofList]

def templates : List (Template × List Key) := [
  (pythonFunction, [.directory, .module, .function]),
  (pythonMethod, [.directory, .module, .className, .function]),
  (javaRunner, [.runner, .className, .function]),
  (goRunner, [.function]),
  (cRunner, [.declaration, .file, .function]),
  (cppRunner, [.file, .function]),
  (scriptRunner, [.path, .functionLiteral])]

theorem isDriver_of_mem_templates {fixed : List Key} (h : (template, fixed) ∈ templates) :
    template.IsDriver fixed := by
  have hall : templates.all (fun t => t.1.isDriver t.2) = true := by
    unfold templates pythonFunction pythonMethod javaRunner goRunner cRunner cppRunner scriptRunner
    repeat rw [lit_ofList]
    decide +kernel
  exact Template.isDriver_iff.1 (List.all_eq_true.1 hall _ h)

end Driver

end SoloCall
