import Mathlib.Data.List.Forall2
import Mathlib.Tactic.ByContra
import SoloCall.Proofs.Json.Layout
import SoloCall.Proofs.Text.Split
import SoloCall.Json.Tree

namespace SoloCall.Json

theorem token?_of_isDigit {c : Char} (hc : isDigit c = true) (t : Text) :
    token? (c :: t) = (number? (c :: t)).map fun p => (.number p.1, p.2) := by
  rw [token?]
  · exact List.cons_ne_nil c t
  all_goals
    intro r h
    obtain ⟨rfl, -⟩ := List.cons.inj h
    cases hc

theorem number?_of_isDigit {c : Char} (hc : isDigit c = true) (t : Text) :
    number? (c :: t) = unsigned? .false (c :: t) := by
  rw [number?]
  intro r h
  obtain ⟨rfl, -⟩ := List.cons.inj h
  cases hc

theorem Boundary.not_isDigit {r : Text} (hr : Boundary r) {c : Char} (hc : r.head? = some c) :
    isDigit c = false := by
  have hmarks : ∀ c ∈ ['\x7b', '\x7d', '[', ']', ',', ':'], isDigit c = false := by simp [isDigit]
  rcases hr c hc with h | h
  · simp only [isSpace, Bool.or_eq_true, decide_eq_true_eq] at h
    rcases h with ((rfl | rfl) | rfl) | rfl <;> rfl
  · exact hmarks c h

theorem Boundary.fraction?_eq {r : Text} (hr : Boundary r) : fraction? r = some (none, r) := by
  rw [fraction?]
  rintro s rfl
  have hnot : ¬(isSpace '.' = true ∨ '.' ∈ ['\x7b', '\x7d', '[', ']', ',', ':']) := by decide
  exact hnot (hr '.' rfl)

theorem Boundary.exponent?_eq {r : Text} (hr : Boundary r) : exponent? r = some (none, r) := by
  cases r with
  | nil => rfl
  | cons c r =>
      have hnot : ∀ c ∈ ['e', 'E'],
          ¬(isSpace c = true ∨ c ∈ ['\x7b', '\x7d', '[', ']', ',', ':']) := by simp [isSpace]
      have hc : ¬(c = 'e' || c = 'E') = true := by
        intro h
        exact hnot c (by simpa using h) (hr c rfl)
      simp only [exponent?]
      rw [if_neg hc]

theorem whole?_decimal (n : Nat) {r : Text} (hr : Boundary r) :
    whole? (decimal n ++ r) = some (decimal n, r) := by
  obtain ⟨htake, hdrop⟩ := Text.takeWhile_dropWhile_append (p := isDigit) (t := decimal n)
    (fun c hc => isDigit_of_mem_decimal hc) fun c => hr.not_isDigit
  cases hd : decimal n with
  | nil => exact absurd hd (decimal_ne_nil n)
  | cons c ds =>
      by_cases hc : c = '0'
      · subst hc
        obtain rfl := decimal_zero_cons hd
        obtain rfl : ds = [] := (List.cons.inj hd).2.symm
        rfl
      · rw [whole?]
        · rw [← hd, digits?, htake, hdrop, hd]
        · intro s h
          exact hc (List.cons.inj h).1

theorem isToken_decimal (n : Nat) :
    IsToken (decimal n) (.number ⟨.false, decimal n, none, none⟩) := by
  cases hd : decimal n with
  | nil => exact absurd hd (decimal_ne_nil n)
  | cons c ds =>
      have hc : isDigit c = true := isDigit_of_mem_decimal (n := n) (by simp [hd])
      refine ⟨⟨c, ds, rfl, ?_⟩, ?_⟩
      · by_contra hspace
        simp only [isSpace, Bool.not_eq_false, Bool.or_eq_true, decide_eq_true_eq] at hspace
        rcases hspace with ((rfl | rfl) | rfl) | rfl <;> cases hc
      · intro r hr
        have hwhole := whole?_decimal n hr
        rw [hd] at hwhole
        rw [List.cons_append] at hwhole ⊢
        rw [token?_of_isDigit hc, number?_of_isDigit hc, unsigned?, hwhole]
        simp only [Option.bind_eq_bind, Option.bind_some, hr.fraction?_eq, hr.exponent?_eq]
        rfl

/-- The pieces of the value give tokens that build the tree on top of any open brackets. -/
def Value.ReadsAs (v : Value) (tree : Tree) : Prop :=
  ∃ tokens, Written v.pieces tokens ∧
    ∀ stack, run? (.value stack) tokens = some (.after tree stack)

namespace Value

theorem readsAs_string (t : Text) : (string t).ReadsAs (.string (units t)) := by
  refine ⟨[.string (units t)], .atom (isToken_quote t) startsMarked_nil .nil, ?_⟩
  intro stack
  rfl

theorem readsAs_nat (n : Nat) :
    (int n).ReadsAs (.number ⟨.false, decimal n, none, none⟩) := by
  refine ⟨[.number ⟨.false, decimal n, none, none⟩], ?_, ?_⟩
  · exact .atom (isToken_decimal n) startsMarked_nil .nil
  · intro stack
    rfl

/-- The first item of an array may be read where the array may also end. -/
theorem run?_firstItem {stack : List Frame} {tokens : List Token} {state : State}
    (hne : tokens ≠ []) (h : run? (.value (.array [] :: stack)) tokens = some state) :
    run? (.firstItem stack) tokens = some state := by
  cases tokens with
  | nil => exact absurd rfl hne
  | cons token rest =>
      rw [run?_cons] at h ⊢
      cases token with
      | arrayEnd => cases h
      | _ => exact h

theorem readsAs_items {items : List Value} {trees : List Tree}
    (h : List.Forall₂ ReadsAs items trees) (hne : items ≠ []) :
    ∃ tokens, Written (itemPieces items ++ [.arrayEnd]) tokens ∧ tokens ≠ [] ∧
      ∀ done stack, run? (.value (.array done :: stack)) tokens =
        some (.after (.array (done.reverse ++ trees)) stack) := by
  induction h with
  | nil => exact absurd rfl hne
  | @cons v tree items trees hv hitems ih =>
      obtain ⟨tokens, hw, hrun⟩ := hv
      cases hitems with
      | nil =>
          refine ⟨tokens ++ [.arrayEnd], ?_, by simp, ?_⟩
          · exact hw.append (.mark rfl .nil) (startsMarked_cons rfl)
          · intro done stack
            rw [run?_append, hrun]
            simp [run?_cons, run?_nil, step?]
      | @cons next nextTree rest restTrees hnext hrest =>
          obtain ⟨more, hmore, -, hrunMore⟩ := ih (by simp)
          refine ⟨tokens ++ .comma :: more, ?_, by simp, ?_⟩
          · have hpieces : itemPieces (v :: next :: rest) ++ [.arrayEnd] =
                v.pieces ++ .comma :: (itemPieces (next :: rest) ++ [.arrayEnd]) := by
              simp [itemPieces]
            rw [hpieces]
            exact hw.append (.mark rfl hmore) (startsMarked_cons rfl)
          · intro done stack
            rw [run?_append, hrun, Option.bind_some, run?_cons]
            show run? (.value (.array (tree :: done) :: stack)) more = _
            rw [hrunMore]
            simp

theorem readsAs_array {items : List Value} {trees : List Tree}
    (h : List.Forall₂ ReadsAs items trees) : (array items).ReadsAs (.array trees) := by
  cases h with
  | nil =>
      refine ⟨[.arrayStart, .arrayEnd], .mark rfl (.mark rfl .nil), ?_⟩
      intro stack
      rfl
  | cons hv hitems =>
      obtain ⟨tokens, hw, hne, hrun⟩ := readsAs_items (.cons hv hitems) (by simp)
      refine ⟨.arrayStart :: tokens, .mark rfl hw, ?_⟩
      intro stack
      rw [run?_cons]
      exact run?_firstItem hne (hrun [] stack)

def FieldReadsAs (field : Text × Value) (read : Key × Tree) : Prop :=
  read.1 = units field.1 ∧ field.2.ReadsAs read.2

theorem readsAs_fields {fields : List (Text × Value)} {reads : List (Key × Tree)}
    (h : List.Forall₂ FieldReadsAs fields reads) (hne : fields ≠ []) :
    ∃ key tokens, Written (fieldPieces fields ++ [.objectEnd]) (.string key :: tokens) ∧
      ∀ done stack, run? (.colon done key stack) tokens =
        some (.after (.object (done.reverse ++ reads)) stack) := by
  induction h with
  | nil => exact absurd rfl hne
  | @cons field read fields reads hfield hfields ih =>
      obtain ⟨key, v⟩ := field
      obtain ⟨units', tree⟩ := read
      obtain ⟨rfl, tokens, hw, hrun⟩ := hfield
      cases hfields with
      | nil =>
          refine ⟨units key, .colon :: (tokens ++ [.objectEnd]), ?_, ?_⟩
          · refine .atom (isToken_quote key) (startsMarked_cons rfl) (.mark rfl ?_)
            exact hw.append (.mark rfl .nil) (startsMarked_cons rfl)
          · intro done stack
            rw [run?_cons]
            show run? (.value (.object done (units key) :: stack)) (tokens ++ [.objectEnd]) = _
            rw [run?_append, hrun]
            simp [run?_cons, run?_nil, step?]
      | @cons next nextRead rest restReads hnext hrest =>
          obtain ⟨nextKey, more, hmore, hrunMore⟩ := ih (by simp)
          refine ⟨units key, .colon :: (tokens ++ .comma :: .string nextKey :: more), ?_, ?_⟩
          · have hpieces : fieldPieces ((key, v) :: next :: rest) ++ [.objectEnd] =
                .atom (quote key) :: .colon ::
                  (v.pieces ++ .comma :: (fieldPieces (next :: rest) ++ [.objectEnd])) := by
              simp [fieldPieces]
            rw [hpieces]
            refine .atom (isToken_quote key) (startsMarked_cons rfl) (.mark rfl ?_)
            exact hw.append (.mark rfl hmore) (startsMarked_cons rfl)
          · intro done stack
            rw [run?_cons]
            show run? (.value (.object done (units key) :: stack)) _ = _
            rw [run?_append, hrun, Option.bind_some, run?_cons]
            show run? (.key ((units key, tree) :: done) stack) (.string nextKey :: more) = _
            rw [run?_cons]
            show run? (.colon ((units key, tree) :: done) nextKey stack) more = _
            rw [hrunMore]
            simp

theorem readsAs_object {fields : List (Text × Value)} {reads : List (Key × Tree)}
    (h : List.Forall₂ FieldReadsAs fields reads) : (object fields).ReadsAs (.object reads) := by
  cases h with
  | nil =>
      refine ⟨[.objectStart, .objectEnd], .mark rfl (.mark rfl .nil), ?_⟩
      intro stack
      rfl
  | cons hfield hfields =>
      obtain ⟨key, tokens, hw, hrun⟩ := readsAs_fields (.cons hfield hfields) (by simp)
      refine ⟨.objectStart :: .string key :: tokens, .mark rfl hw, ?_⟩
      intro stack
      rw [run?_cons]
      show run? (.firstKey stack) (.string key :: tokens) = _
      rw [run?_cons]
      exact hrun [] stack

variable {v : Value} {tree : Tree}

theorem ReadsAs.parse?_of_layout {t : Text} (h : v.ReadsAs tree) (hl : Layout v.pieces t) :
    parse? t = some tree := by
  obtain ⟨tokens, hw, hrun⟩ := h
  rw [parse?, hw.lex?_eq hl]
  simp only [Option.bind_eq_bind, Option.bind_some, hrun]

theorem ReadsAs.parse?_pretty (h : v.ReadsAs tree) {s : Text} (hs : s.all isSpace = true) :
    parse? (v.pretty ++ s) = some tree :=
  h.parse?_of_layout ((layout_layOut 0 v.pieces).append_space hs)

end Value

end SoloCall.Json
