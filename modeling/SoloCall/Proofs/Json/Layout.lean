import SoloCall.Proofs.Json.Token
import SoloCall.Proofs.Text.Decimal

namespace SoloCall.Json

inductive Layout : List Piece → Text → Prop where
  | nil {s : Text} (hs : s.all isSpace = true) : Layout [] s
  | cons {s t : Text} {ps : List Piece} (p : Piece) (hs : s.all isSpace = true)
      (h : Layout ps t) : Layout (p :: ps) (s ++ (p.text ++ t))

/-- What ends a number: a space, a mark or the end of the text. -/
def Boundary (t : Text) : Prop :=
  ∀ c, t.head? = some c → isSpace c = true ∨ c ∈ ['\x7b', '\x7d', '[', ']', ',', ':']

/-- A text that is one token wherever it ends at a boundary. -/
structure IsToken (t : Text) (token : Token) : Prop where
  not_space : ∃ c r, t = c :: r ∧ isSpace c = false
  reads : ∀ r, Boundary r → token? (t ++ r) = some (token, r)

def Piece.mark? : Piece → Option Token
  | .objectStart => some .objectStart
  | .objectEnd => some .objectEnd
  | .arrayStart => some .arrayStart
  | .arrayEnd => some .arrayEnd
  | .comma => some .comma
  | .colon => some .colon
  | .atom _ => none

def StartsMarked (ps : List Piece) : Prop := ∀ p, ps.head? = some p → p.mark?.isSome = true

inductive Written : List Piece → List Token → Prop where
  | nil : Written [] []
  | mark {p : Piece} {token : Token} {ps : List Piece} {ts : List Token}
      (hp : p.mark? = some token) (h : Written ps ts) : Written (p :: ps) (token :: ts)
  | atom {t : Text} {token : Token} {ps : List Piece} {ts : List Token} (ht : IsToken t token)
      (hps : StartsMarked ps) (h : Written ps ts) : Written (.atom t :: ps) (token :: ts)

variable {ps qs : List Piece} {ts us : List Token} {t s : Text}

namespace Layout

theorem space_append (hs : s.all isSpace = true) (h : Layout ps t) : Layout ps (s ++ t) := by
  cases h with
  | nil hr => exact .nil (by rw [List.all_append, hs, hr]; rfl)
  | cons p hr h =>
      rw [← List.append_assoc]
      exact .cons p (by rw [List.all_append, hs, hr]; rfl) h

theorem append_space (h : Layout ps t) (hs : s.all isSpace = true) : Layout ps (t ++ s) := by
  induction h with
  | nil hr => exact .nil (by rw [List.all_append, hr, hs]; rfl)
  | cons p hr h ih =>
      rw [List.append_assoc, List.append_assoc]
      exact .cons p hr ih

theorem piece (p : Piece) (h : Layout ps t) : Layout (p :: ps) (p.text ++ t) :=
  .cons (s := []) p rfl h

end Layout

theorem layout_flatMap_text (ps : List Piece) : Layout ps (ps.flatMap Piece.text) := by
  induction ps with
  | nil => exact .nil rfl
  | cons p ps ih =>
      rw [List.flatMap_cons]
      exact ih.piece p

theorem lineBreak_all_isSpace (depth : Nat) : (lineBreak depth).all isSpace = true := by
  simp [lineBreak, show isSpace '\n' = true from rfl, show isSpace ' ' = true from rfl]

theorem layout_layOut (depth : Nat) (ps : List Piece) : Layout ps (layOut depth ps) := by
  induction depth, ps using layOut.induct with
  | case1 depth => exact .nil rfl
  | case2 depth rest ih => exact (ih.piece .arrayEnd).piece .arrayStart
  | case3 depth rest ih => exact (ih.piece .objectEnd).piece .objectStart
  | case4 depth rest hrest ih =>
      rw [layOut]
      · exact (ih.space_append (lineBreak_all_isSpace _)).piece .arrayStart
      · exact hrest
  | case5 depth rest hrest ih =>
      rw [layOut]
      · exact (ih.space_append (lineBreak_all_isSpace _)).piece .objectStart
      · exact hrest
  | case6 depth rest ih => exact .cons .arrayEnd (lineBreak_all_isSpace _) ih
  | case7 depth rest ih => exact .cons .objectEnd (lineBreak_all_isSpace _) ih
  | case8 depth rest ih => exact (ih.space_append (lineBreak_all_isSpace _)).piece .comma
  | case9 depth rest ih => exact (ih.space_append (s := [' ']) rfl).piece .colon
  | case10 depth t rest ih => exact ih.piece (.atom t)

theorem startsMarked_nil : StartsMarked [] := by
  intro p hp
  cases hp

theorem startsMarked_cons {p : Piece} (hp : p.mark?.isSome = true) : StartsMarked (p :: ps) := by
  intro q hq
  obtain rfl := Option.some.inj hq
  exact hp

theorem StartsMarked.append (h : StartsMarked ps) (hq : StartsMarked qs) :
    StartsMarked (ps ++ qs) := by
  cases ps with
  | nil => exact hq
  | cons p ps => exact startsMarked_cons (h p rfl)

theorem Written.append (h : Written ps ts) (hq : Written qs us) (hm : StartsMarked qs) :
    Written (ps ++ qs) (ts ++ us) := by
  induction h with
  | nil => exact hq
  | mark hp h ih => exact .mark hp ih
  | atom ht hps h ih => exact .atom ht (hps.append hm) ih

theorem Piece.text_of_mark? {p : Piece} {token : Token} (hp : p.mark? = some token) :
    ∃ c ∈ ['\x7b', '\x7d', '[', ']', ',', ':'], p.text = [c] ∧
      ∀ r, token? (c :: r) = some (token, r) := by
  cases p with
  | atom t => cases hp
  | objectStart | objectEnd | arrayStart | arrayEnd | comma | colon =>
      obtain rfl := Option.some.inj hp
      exact ⟨_, by decide, rfl, fun r => rfl⟩

theorem Layout.boundary (h : Layout ps t) (hw : Written ps ts) (hm : StartsMarked ps) :
    Boundary t := by
  intro c hc
  cases h with
  | nil hs => exact Or.inl (List.all_eq_true.1 hs c (List.mem_of_head? hc))
  | @cons s t ps p hs h =>
      cases s with
      | cons d s =>
          obtain rfl : d = c := Option.some.inj hc
          exact Or.inl (List.all_eq_true.1 hs d List.mem_cons_self)
      | nil =>
          right
          cases hw with
          | mark hp _ =>
              obtain ⟨d, hd, htext, -⟩ := Piece.text_of_mark? hp
              rw [htext] at hc
              obtain rfl : d = c := Option.some.inj hc
              exact hd
          | atom _ _ _ => cases hm _ rfl

theorem lex?_space_append (hs : s.all isSpace = true) (t : Text) : lex? (s ++ t) = lex? t := by
  induction s with
  | nil => rfl
  | cons c s ih =>
      obtain ⟨hc, hs⟩ : isSpace c = true ∧ s.all isSpace = true := by simpa using hs
      rw [List.cons_append, lex?, if_pos hc]
      exact ih hs

/-- The tokens of written pieces are read in whatever layout. -/
theorem Written.lex?_eq (h : Written ps ts) (hl : Layout ps t) : lex? t = some ts := by
  induction h generalizing t with
  | nil =>
      cases hl with
      | nil hs =>
          rw [← List.append_nil t, lex?_space_append hs, lex?]
  | mark hp h ih =>
      cases hl with
      | cons p hs hl =>
          obtain ⟨c, hc, htext, hread⟩ := Piece.text_of_mark? hp
          have hspace : ∀ c ∈ ['\x7b', '\x7d', '[', ']', ',', ':'], isSpace c = false := by
            simp [isSpace]
          rw [lex?_space_append hs, htext, List.singleton_append,
            lex?_of_token? (hspace c hc) (hread _), ih hl]
          rfl
  | atom ht hps h ih =>
      cases hl with
      | cons p hs hl =>
          have hread := ht.reads _ (hl.boundary h hps)
          obtain ⟨c, r, rfl, hc⟩ := ht.not_space
          rw [List.cons_append] at hread
          rw [lex?_space_append hs, Piece.text, List.cons_append, lex?_of_token? hc hread, ih hl]
          rfl

theorem isToken_quote (t : Text) : IsToken (quote t) (.string (units t)) :=
  ⟨⟨'"', t.flatMap escape ++ ['"'], rfl, rfl⟩, fun r _ => token?_quote t r⟩

end SoloCall.Json
