import Mathlib.Data.Option.Basic
import SoloCall.Header.Recognise
import SoloCall.Proofs.Text.Blank

namespace SoloCall

namespace Header

variable {c : Char}

theorem cut?_append (hc : isBlank c = true) (line : Text) :
    cut? (line ++ [c]) = (cut? line).map fun k => { k with rest := k.rest ++ [c] } := by
  have hopen : c ≠ '(' := by rintro rfl; cases hc
  have hclose : c ≠ ')' := by rintro rfl; cases hc
  simp only [cut?, Text.cut?_append hopen]
  cases Text.cut? '(' line with
  | none => rfl
  | some p =>
      simp only [Option.map_some, Option.bind_eq_bind, Option.bind_some, Text.cut?_append hclose]
      cases Text.cut? ')' p.2 <;> rfl

theorem opensOrEnds_append (hc : isBlank c = true) (rest : Text) :
    opensOrEnds (rest ++ [c]) = opensOrEnds rest := by
  rw [opensOrEnds, opensOrEnds]
  rcases Text.skipBlanks_append hc rest with ⟨h, h'⟩ | ⟨d, r, h, h'⟩
  · rw [h, h']
  · rw [h, h']
    by_cases hd : d = '{'
    · subst hd
      exact Text.allBlank_append hc r
    · split <;> simp_all

theorem opensSuite_append (hc : isBlank c = true) (rest : Text) :
    opensSuite (rest ++ [c]) = opensSuite rest := by
  have hcolon : c ≠ ':' := by rintro rfl; cases hc
  have harrow : c ≠ '>' := by rintro rfl; cases hc
  have htake : ∀ r : Text, ((r ++ [c]).takeWhile (· ≠ '\n')).contains ':' =
      (r.takeWhile (· ≠ '\n')).contains ':' := by
    intro r
    induction r with
    | nil => by_cases hn : c = '\n' <;> simp [hn, Ne.symm hcolon]
    | cons d r ih => by_cases hn : d = '\n' <;> simp_all
  rw [opensSuite, opensSuite]
  rcases Text.skipBlanks_append hc rest with ⟨h, h'⟩ | ⟨d, r, h, h'⟩
  · rw [h, h']
  · rw [h, h']
    by_cases hd : d = ':'
    · subst hd
      rfl
    · cases r with
      | nil => split <;> simp_all
      | cons e r =>
          by_cases he : d = '-' ∧ e = '>'
          · obtain ⟨rfl, rfl⟩ := he
            exact htake r
          · split <;> simp_all

theorem opensBlock_append (hc : isBlank c = true) (hw : isWord c = false) (rest : Text) :
    opensBlock (rest ++ [c]) = opensBlock rest := by
  have hbrace : c ∉ ['{'] := by
    rw [List.mem_singleton]
    rintro rfl
    cases hc
  rw [opensBlock, opensBlock]
  rcases Text.skipBlanks_append hc rest with ⟨h, h'⟩ | ⟨d, r, h, h'⟩
  · rw [h, h']
  · rw [h, h']
    by_cases hd : d = '{'
    · subst hd
      rfl
    · by_cases hcolon : d = ':'
      · subst hcolon
        simp only
        rcases Text.skipBlanks_append hc r with ⟨hr, hr'⟩ | ⟨e, w, hr, hr'⟩
        · rw [hr, hr']
        · rw [hr, hr', ← List.cons_append, Text.word?_append hw]
          cases Text.word? (e :: w) with
          | none => rfl
          | some p => exact Text.startsWith_skipBlanks_append hc hbrace p.2
      · split <;> simp_all

theorem suite?_append (hc : isBlank c = true) (line : Text) :
    suite? (line ++ [c]) = suite? line := by
  rw [suite?, suite?, cut?_append hc]
  cases hk : cut? line with
  | none => rfl
  | some k =>
      have hblank : line.allBlank = false := by
        obtain ⟨hl, -, -⟩ := cut?_eq_some hk
        rw [hl]
        simp [Text.allBlank, show isBlank '(' = false from rfl]
      simp only [Option.map_some, Option.bind_eq_bind, Option.bind_some]
      rw [opensSuite_append hc, Text.indent_append hblank]

theorem member?_append (hc : isBlank c = true) (line : Text) :
    member? (line ++ [c]) = member? line := by
  rw [member?, member?, cut?_append hc]
  cases cut? line with
  | none => rfl
  | some k =>
      simp only [Option.map_some, Option.bind_eq_bind, Option.bind_some]
      rw [opensOrEnds_append hc]

theorem func?_append (hc : isBlank c = true) (line : Text) :
    func? (line ++ [c]) = func? line := by
  rw [func?, func?, cut?_append hc]
  cases cut? line with
  | none => rfl
  | some k =>
      simp only [Option.map_some, Option.bind_eq_bind, Option.bind_some, cut?_append hc]
      cases hm : cut? k.rest with
      | none => simp only [Option.map_none, Option.bind_none, Option.bind_fun_none]
      | some m =>
          have hhead : (k.rest ++ [c]).head? = k.rest.head? := by
            cases hr : k.rest with
            | nil =>
                rw [hr] at hm
                cases hm
            | cons d r => rfl
          simp only [Option.map_some, Option.bind_some]
          rw [hhead]

theorem declarator?_append (hc : isBlank c = true) (line : Text) :
    declarator? (line ++ [c]) = declarator? line := by
  rw [declarator?, declarator?, cut?_append hc]
  cases cut? line with
  | none => rfl
  | some k =>
      simp only [Option.map_some, Option.bind_eq_bind, Option.bind_some]
      rw [opensOrEnds_append hc]

theorem named?_append (hc : isBlank c = true) (line : Text) :
    named? (line ++ [c]) = named? line := by
  rw [named?, named?, cut?_append hc]
  cases cut? line <;> rfl

theorem binding?_append (hc : isBlank c = true) (line : Text) :
    binding? (line ++ [c]) = binding? line := by
  have harrow : c ∉ kw "=>" := by
    intro hmem
    rcases List.mem_cons.1 hmem with rfl | hmem
    · cases hc
    · rw [List.mem_singleton.1 hmem] at hc
      cases hc
  rw [binding?, binding?, cut?_append hc]
  cases cut? line with
  | none => rfl
  | some k =>
      simp only [Option.map_some, Option.bind_eq_bind, Option.bind_some]
      rw [Text.startsWith_skipBlanks_append hc harrow]

theorem shorthand?_append (hc : isBlank c = true) (hw : isWord c = false) (line : Text) :
    shorthand? (line ++ [c]) = shorthand? line := by
  rw [shorthand?, shorthand?, cut?_append hc]
  cases cut? line with
  | none => rfl
  | some k =>
      simp only [Option.map_some, Option.bind_eq_bind, Option.bind_some]
      rw [opensBlock_append hc hw]

theorem recognise?_append (hc : isBlank c = true) (hw : isWord c = false) (language : Language)
    (line : Text) : recognise? language (line ++ [c]) = recognise? language line := by
  cases language with
  | python => exact suite?_append hc line
  | unknown => exact suite?_append hc line
  | java => exact member?_append hc line
  | go => exact func?_append hc line
  | c => exact declarator?_append hc line
  | cpp => exact declarator?_append hc line
  | javascript =>
      simp only [recognise?, script?, named?_append hc, binding?_append hc, shorthand?_append hc hw]
  | typescript =>
      simp only [recognise?, script?, named?_append hc, binding?_append hc, shorthand?_append hc hw]

end Header

end SoloCall
