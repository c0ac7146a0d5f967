import Mathlib.Tactic.Tauto
import SoloCall.Json.Tree
import SoloCall.Proofs.Json.Token

namespace SoloCall.Json

variable {s s' : State} {k : Token} {tokens : List Token}

inductive Begins (stack : List Frame) : Token → State → Prop
  | scalar (token tree) (hne : ∀ fields, tree ≠ .object fields)
      (h : ∀ stack, begin? stack token = some (.after tree stack)) :
      Begins stack token (.after tree stack)
  | array : Begins stack .arrayStart (.firstItem stack)
  | object : Begins stack .objectStart (.firstKey stack)

inductive Step : State → Token → State → Prop
  | value (stack token next) (h : Begins stack token next) : Step (.value stack) token next
  | firstItem (stack token next) (h : Begins (.array [] :: stack) token next) :
      Step (.firstItem stack) token next
  | emptyArray (stack) : Step (.firstItem stack) .arrayEnd (.after (.array []) stack)
  | nextItem (done items stack) :
      Step (.after done (.array items :: stack)) .comma (.value (.array (done :: items) :: stack))
  | endArray (done items stack) :
      Step (.after done (.array items :: stack)) .arrayEnd
        (.after (.array (done :: items).reverse) stack)
  | emptyObject (stack) : Step (.firstKey stack) .objectEnd (.after (.object []) stack)
  | firstKey (key stack) : Step (.firstKey stack) (.string key) (.colon [] key stack)
  | key (fields key stack) : Step (.key fields stack) (.string key) (.colon fields key stack)
  | colon (fields key stack) :
      Step (.colon fields key stack) .colon (.value (.object fields key :: stack))
  | nextField (done fields key stack) :
      Step (.after done (.object fields key :: stack)) .comma (.key ((key, done) :: fields) stack)
  | endObject (done fields key stack) :
      Step (.after done (.object fields key :: stack)) .objectEnd
        (.after (.object ((key, done) :: fields).reverse) stack)

variable {stack : List Frame}

theorem begins_of_begin? (h : begin? stack k = some s) : Begins stack k s := by
  cases k with
  | arrayStart => obtain rfl := Option.some.inj h; exact .array
  | objectStart => obtain rfl := Option.some.inj h; exact .object
  | objectEnd | arrayEnd | comma | colon => cases h
  | null | true | false | number | string =>
      obtain rfl := Option.some.inj h
      exact .scalar _ _ (fun fields hf => by cases hf) fun stack => rfl

theorem step_of_step? (h : step? s k = some s') : Step s k s' := by
  unfold step? at h
  split at h
  · exact .value _ _ _ (begins_of_begin? h)
  · obtain rfl := Option.some.inj h; exact .emptyArray _
  · exact .firstItem _ _ _ (begins_of_begin? h)
  · obtain rfl := Option.some.inj h; exact .emptyObject _
  · obtain rfl := Option.some.inj h; exact .firstKey _ _
  · obtain rfl := Option.some.inj h; exact .key _ _ _
  · obtain rfl := Option.some.inj h; exact .colon _ _ _
  · obtain rfl := Option.some.inj h; exact .nextItem _ _ _
  · obtain rfl := Option.some.inj h; exact .endArray _ _ _
  · obtain rfl := Option.some.inj h; exact .nextField _ _ _ _
  · obtain rfl := Option.some.inj h; exact .endObject _ _ _ _
  · cases h

/-- What every step by one of the tokens keeps holds after the run. -/
theorem run?_preserves {P : State → Prop}
    (step : ∀ k ∈ tokens, ∀ s s', Step s k s' → P s → P s') (hs : P s)
    (h : run? s tokens = some s') : P s' := by
  induction tokens generalizing s with
  | nil =>
      obtain rfl := Option.some.inj h
      exact hs
  | cons k rest ih =>
      rw [run?_cons] at h
      obtain ⟨next, hnext, hrest⟩ := Option.bind_eq_some_iff.1 h
      have hstep := step k List.mem_cons_self s next (step_of_step? hnext) hs
      exact ih (fun k hk => step k (List.mem_cons_of_mem _ hk)) hstep hrest

def State.over (base : List Frame) : State → State
  | .value stack => .value (stack ++ base)
  | .firstItem stack => .firstItem (stack ++ base)
  | .firstKey stack => .firstKey (stack ++ base)
  | .key fields stack => .key fields (stack ++ base)
  | .colon fields name stack => .colon fields name (stack ++ base)
  | .after done stack => .after done (stack ++ base)

theorem Step.over (h : Step s k s') (base : List Frame) :
    step? (s.over base) k = some (s'.over base) := by
  cases h with
  | value stack k s h =>
      cases h with
      | scalar _ tree hne h => exact h (stack ++ base)
      | array | object => rfl
  | firstItem stack k s h =>
      cases h with
      | scalar _ tree hne h =>
          have hbegin := h (.array [] :: (stack ++ base))
          cases k with
          | arrayEnd => cases hbegin
          | _ => exact hbegin
      | array | object => rfl
  | _ => rfl

theorem run?_over (h : run? s tokens = some s') (base : List Frame) :
    run? (s.over base) tokens = some (s'.over base) := by
  induction tokens generalizing s with
  | nil =>
      obtain rfl := Option.some.inj h
      rfl
  | cons k rest ih =>
      rw [run?_cons] at h
      obtain ⟨next, hnext, hrest⟩ := Option.bind_eq_some_iff.1 h
      rw [run?_cons, (step_of_step? hnext).over base]
      exact ih hrest

theorem ne_value_nil_of_run? (hne : tokens ≠ []) (h : run? s tokens = some s') :
    s' ≠ .value [] := by
  cases tokens with
  | nil => exact absurd rfl hne
  | cons k rest =>
      rw [run?_cons] at h
      obtain ⟨next, hnext, hrest⟩ := Option.bind_eq_some_iff.1 h
      have hkeeps (t : State) (k : Token) (t' : State) (hstep : Step t k t') : t' ≠ .value [] := by
        cases hstep with
        | value _ _ _ hb | firstItem _ _ _ hb => cases hb <;> simp
        | _ => simp
      exact run?_preserves (P := (· ≠ .value [])) (fun k _ t t' hstep _ => hkeeps t k t' hstep)
        (hkeeps s k next (step_of_step? hnext)) hrest

def EndsInObject (stack : List Frame) : Prop :=
  ∃ fields key, stack.getLast? = some (.object fields key)

def State.IsInObject : State → Prop
  | .value stack => EndsInObject stack
  | .firstItem stack => EndsInObject stack
  | .firstKey stack => stack = [] ∨ EndsInObject stack
  | .key _ stack => stack = [] ∨ EndsInObject stack
  | .colon _ _ stack => stack = [] ∨ EndsInObject stack
  | .after done stack => (stack = [] ∧ ∃ fields, done = .object fields) ∨ EndsInObject stack

theorem EndsInObject.cons (h : EndsInObject stack) (f : Frame) : EndsInObject (f :: stack) := by
  obtain ⟨fields, key, hlast⟩ := h
  exact ⟨fields, key, by rw [List.getLast?_cons, hlast]; rfl⟩

theorem endsInObject_cons_array {items : List Tree} (h : EndsInObject (.array items :: stack)) :
    EndsInObject stack := by
  obtain ⟨fields, key, hlast⟩ := h
  cases stack with
  | nil => cases hlast
  | cons f stack => exact ⟨fields, key, by rwa [List.getLast?_cons_cons] at hlast⟩

theorem endsInObject_cons_object {fields : List (Key × Tree)} {key : Key} :
    EndsInObject (.object fields key :: stack) ↔ stack = [] ∨ EndsInObject stack := by
  constructor
  · rintro ⟨fields', key', hlast⟩
    cases stack with
    | nil => exact Or.inl rfl
    | cons f stack => exact Or.inr ⟨fields', key', by rwa [List.getLast?_cons_cons] at hlast⟩
  · rintro (rfl | h)
    · exact ⟨fields, key, rfl⟩
    · exact h.cons _

theorem Begins.isInObject (h : Begins stack k s) (hs : EndsInObject stack) : s.IsInObject := by
  cases h with
  | scalar => exact Or.inr hs
  | array => exact hs
  | object => exact Or.inr hs

theorem Step.isInObject (h : Step s k s') (hs : s.IsInObject) : s'.IsInObject := by
  cases h with
  | value stack k s h => exact h.isInObject hs
  | firstItem stack k s h => exact h.isInObject (EndsInObject.cons hs _)
  | emptyArray => exact Or.inr hs
  | nextItem done items stack =>
      obtain ⟨hnil, -⟩ | hs := hs
      · cases hnil
      · exact (endsInObject_cons_array hs).cons _
  | endArray done items stack =>
      obtain ⟨hnil, -⟩ | hs := hs
      · cases hnil
      · exact Or.inr (endsInObject_cons_array hs)
  | emptyObject => exact hs.imp_left fun hnil => ⟨hnil, [], rfl⟩
  | firstKey => exact hs
  | key => exact hs
  | colon => exact endsInObject_cons_object.2 hs
  | nextField done fields key stack =>
      obtain ⟨hnil, -⟩ | hs := hs
      · cases hnil
      · exact endsInObject_cons_object.1 hs
  | endObject done fields key stack =>
      obtain ⟨hnil, -⟩ | hs := hs
      · cases hnil
      · exact (endsInObject_cons_object.1 hs).imp_left fun hnil => ⟨hnil, _, rfl⟩

def Frame.keys : Frame → List Key
  | .array _ => []
  | .object fields key => key :: fields.map Prod.fst

def Tree.keys : Tree → List Key
  | .object fields => fields.map Prod.fst
  | _ => []

def State.keys : State → List Key
  | .value stack => stack.flatMap Frame.keys
  | .firstItem stack => stack.flatMap Frame.keys
  | .firstKey stack => stack.flatMap Frame.keys
  | .key fields stack => fields.map Prod.fst ++ stack.flatMap Frame.keys
  | .colon fields name stack => name :: fields.map Prod.fst ++ stack.flatMap Frame.keys
  | .after done stack => done.keys ++ stack.flatMap Frame.keys

theorem Step.keys (h : Step s k s') {key : Key} (hk : key ∈ s'.keys) :
    key ∈ s.keys ∨ k = .string key := by
  cases h with
  | value stack k s h | firstItem stack k s h =>
      left
      cases h with
      | scalar _ tree hne h =>
          have hnone : tree.keys = [] := by
            cases tree with
            | object fields => exact absurd rfl (hne fields)
            | _ => rfl
          simpa [State.keys, Frame.keys, hnone] using hk
      | array | object => simpa [State.keys, Frame.keys] using hk
  | firstKey | key | colon | emptyArray | nextItem | endArray | emptyObject | nextField | endObject =>
      simp only [State.keys, Frame.keys, Tree.keys, List.flatMap_cons, List.map_cons, List.map_reverse,
        List.map_nil, List.mem_append, List.mem_cons, List.mem_reverse, List.not_mem_nil,
        Token.string.injEq, reduceCtorEq] at hk ⊢
      tauto

theorem parse?_eq_some {t : Text} {tree : Tree} (h : parse? t = some tree) :
    ∃ tokens, lex? t = some tokens ∧ run? (.value []) tokens = some (.after tree []) := by
  simp only [parse?, Option.bind_eq_bind, Option.bind_eq_some_iff] at h
  obtain ⟨tokens, hlex, state, hrun, hdone⟩ := h
  split at hdone
  · obtain rfl := Option.some.inj hdone
    exact ⟨tokens, hlex, hrun⟩
  · cases hdone

/-- A text that starts with an object's bracket can only be read as an object. -/
theorem exists_object_of_parse? {t : Text} {tree : Tree} (h : parse? ('\x7b' :: t) = some tree) :
    ∃ fields, tree = .object fields := by
  obtain ⟨tokens, hlex, hrun⟩ := parse?_eq_some h
  rw [lex?_mark _ .objectStart rfl fun _ => rfl] at hlex
  obtain ⟨rest, -, rfl⟩ := Option.map_eq_some_iff.1 hlex
  have hopen : (State.firstKey []).IsInObject := Or.inl rfl
  have hdone := run?_preserves (fun k _ s s' hstep hs => hstep.isInObject hs) hopen hrun
  obtain ⟨-, hobject⟩ | ⟨fields, key, hlast⟩ := hdone
  · exact hobject
  · cases hlast

/-- The keys of a read object are among the strings of its text. -/
theorem string_mem_of_parse? {tokens : List Token} {fields : List (Key × Tree)} {key : Key}
    (h : run? (.value []) tokens = some (.after (.object fields) [])) {tree : Tree}
    (hk : (key, tree) ∈ fields) : .string key ∈ tokens := by
  have hnone : ∀ key ∈ (State.value []).keys, Token.string key ∈ tokens := by simp [State.keys]
  refine run?_preserves (P := fun s => ∀ key ∈ s.keys, Token.string key ∈ tokens) ?_ hnone h key ?_
  · intro k hk s s' hstep hs key hkey
    obtain hold | rfl := hstep.keys hkey
    · exact hs key hold
    · exact hk
  · simpa [State.keys, Tree.keys] using ⟨tree, hk⟩

end SoloCall.Json
