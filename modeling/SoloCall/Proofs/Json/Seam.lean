import Mathlib.Data.List.TakeWhile
import SoloCall.Proofs.Json.Layout
import SoloCall.Proofs.Json.Nesting
import SoloCall.Proofs.Text.Replace

namespace SoloCall.Json

variable {t rest : Text}

/-- The rest of a text behind characters that neither delimit a string nor open an object. -/
def Leaves (t rest : Text) : Prop :=
  ∃ w, t = w ++ rest ∧ ∀ c ∈ w, c ≠ '"' ∧ c ≠ '\\' ∧ c ≠ '\x7b'

theorem Leaves.refl (t : Text) : Leaves t t := ⟨[], rfl, by simp⟩

theorem Leaves.trans {t₁ t₂ t₃ : Text} (h : Leaves t₁ t₂) (h' : Leaves t₂ t₃) : Leaves t₁ t₃ := by
  obtain ⟨w, rfl, hw⟩ := h
  obtain ⟨w', rfl, hw'⟩ := h'
  refine ⟨w ++ w', (List.append_assoc w w' t₃).symm, ?_⟩
  intro c hc
  exact (List.mem_append.1 hc).elim (hw c) (hw' c)

theorem Leaves.cons {c : Char} (hquote : c ≠ '"') (hslash : c ≠ '\\') (hopen : c ≠ '\x7b')
    (h : Leaves t rest) : Leaves (c :: t) rest :=
  Leaves.trans ⟨[c], rfl, by simp [hquote, hslash, hopen]⟩ h

theorem leaves_of_digits? {ds : Text} (h : digits? t = some (ds, rest)) : Leaves t rest := by
  unfold digits? at h
  split at h
  · cases h
  · obtain ⟨-, rfl⟩ := Prod.mk.inj (Option.some.inj h)
    refine ⟨t.takeWhile isDigit, List.takeWhile_append_dropWhile.symm, ?_⟩
    intro c hc
    have hd : isDigit c = true := List.mem_takeWhile_imp hc
    refine ⟨?_, ?_, ?_⟩ <;> rintro rfl <;> cases hd

theorem leaves_of_whole? {ds : Text} (h : whole? t = some (ds, rest)) : Leaves t rest := by
  unfold whole? at h
  split at h
  · obtain ⟨-, rfl⟩ := Prod.mk.inj (Option.some.inj h)
    exact (Leaves.refl _).cons (by decide) (by decide) (by decide)
  · exact leaves_of_digits? h

theorem leaves_of_fraction? {f : Option Text} (h : fraction? t = some (f, rest)) :
    Leaves t rest := by
  unfold fraction? at h
  split at h
  · obtain ⟨⟨ds, r⟩, hd, he⟩ := Option.map_eq_some_iff.1 h
    obtain ⟨-, rfl⟩ := Prod.mk.inj he
    exact (leaves_of_digits? hd).cons (by decide) (by decide) (by decide)
  · obtain ⟨-, rfl⟩ := Prod.mk.inj (Option.some.inj h)
    exact .refl _

theorem leaves_of_exponentDigits? {sign : Option Char} {e : Option (Option Char × Text)}
    (h : exponentDigits? sign t = some (e, rest)) : Leaves t rest := by
  obtain ⟨⟨ds, r⟩, hd, he⟩ := Option.map_eq_some_iff.1 h
  obtain ⟨-, rfl⟩ := Prod.mk.inj he
  exact leaves_of_digits? hd

theorem leaves_of_exponent? {e : Option (Option Char × Text)} (h : exponent? t = some (e, rest)) :
    Leaves t rest := by
  unfold exponent? at h
  split at h
  · rename_i c r
    split at h
    · rename_i hc
      have hmark : c ≠ '"' ∧ c ≠ '\\' ∧ c ≠ '\x7b' := by
        simp only [Bool.or_eq_true, decide_eq_true_eq] at hc
        rcases hc with rfl | rfl <;> decide
      refine Leaves.cons hmark.1 hmark.2.1 hmark.2.2 ?_
      split at h
      · exact (leaves_of_exponentDigits? h).cons (by decide) (by decide) (by decide)
      · exact (leaves_of_exponentDigits? h).cons (by decide) (by decide) (by decide)
      · exact leaves_of_exponentDigits? h
    · obtain ⟨-, rfl⟩ := Prod.mk.inj (Option.some.inj h)
      exact .refl _
  · obtain ⟨-, rfl⟩ := Prod.mk.inj (Option.some.inj h)
    exact .refl _

theorem leaves_of_unsigned? {b : Bool} {n : NumberText} (h : unsigned? b t = some (n, rest)) :
    Leaves t rest := by
  simp only [unsigned?, Option.bind_eq_bind, Option.bind_eq_some_iff] at h
  obtain ⟨⟨w, t₁⟩, hw, ⟨f, t₂⟩, hf, ⟨e, t₃⟩, he, hn⟩ := h
  obtain ⟨-, rfl⟩ := Prod.mk.inj (Option.some.inj hn)
  exact (leaves_of_whole? hw).trans ((leaves_of_fraction? hf).trans (leaves_of_exponent? he))

theorem leaves_of_number? {n : NumberText} (h : number? t = some (n, rest)) : Leaves t rest := by
  unfold number? at h
  split at h
  · exact (leaves_of_unsigned? h).cons (by decide) (by decide) (by decide)
  · exact leaves_of_unsigned? h

theorem leaves_of_word? {w : Text} {token k : Token}
    (hw : ∀ c ∈ w, c ≠ '"' ∧ c ≠ '\\' ∧ c ≠ '\x7b') (h : word? w token t = some (k, rest)) :
    Leaves t rest ∧ k = token := by
  obtain ⟨r, hr, he⟩ := Option.map_eq_some_iff.1 h
  obtain ⟨rfl, rfl⟩ := Prod.mk.inj he
  exact ⟨⟨w, Text.after?_eq_some_iff.1 hr, hw⟩, rfl⟩

/-- A token is a string, or a character and others that delimit no string. -/
inductive Reads (c : Char) (t : Text) : Token → Text → Prop
  | string (units rest) (hc : c = '"') (h : stringBody? t = some (units, rest)) :
      Reads c t (.string units) rest
  | plain (k rest) (hk : ∀ units, k ≠ .string units) (hquote : c ≠ '"') (hslash : c ≠ '\\')
      (h : Leaves t rest) : Reads c t k rest

theorem reads_of_leaves {c : Char} {k : Token} (hk : ∀ units, k ≠ .string units)
    (hl : rest.length < (c :: t).length) (h : Leaves (c :: t) rest) : Reads c t k rest := by
  obtain ⟨w, hw, hplain⟩ := h
  cases w with
  | nil =>
      rw [hw] at hl
      exact absurd hl (Nat.lt_irrefl _)
  | cons d w =>
      obtain ⟨rfl, rfl⟩ := List.cons.inj hw
      obtain ⟨hc, hw⟩ := List.forall_mem_cons.1 hplain
      exact .plain k rest hk hc.1 hc.2.1 ⟨w, rfl, hw⟩

theorem reads_of_token? {c : Char} {k : Token} (h : token? (c :: t) = some (k, rest)) :
    Reads c t k rest := by
  have hl := token?_length h
  rw [token?.eq_def] at h
  split at h
  · cases h
  iterate 6
    obtain ⟨rfl, rfl⟩ := List.cons.inj ‹_›
    obtain ⟨rfl, rfl⟩ := Prod.mk.inj (Option.some.inj h)
    exact .plain _ _ (by simp) (by decide) (by decide) (.refl _)
  · rename_i hcons
    obtain ⟨rfl, rfl⟩ := List.cons.inj hcons
    obtain ⟨⟨units, r⟩, hs, he⟩ := Option.map_eq_some_iff.1 h
    obtain ⟨rfl, rfl⟩ := Prod.mk.inj he
    exact .string units r rfl hs
  iterate 3
    obtain ⟨hleaves, rfl⟩ := leaves_of_word? (by simp) h
    exact reads_of_leaves (by simp) hl hleaves
  · obtain ⟨⟨n, r⟩, hn, he⟩ := Option.map_eq_some_iff.1 h
    obtain ⟨rfl, rfl⟩ := Prod.mk.inj he
    exact reads_of_leaves (by simp) hl (leaves_of_number? hn)

inductive Lexes : Text → List Token → Prop
  | nil : Lexes [] []
  | space (c t ks) (hc : isSpace c = true) (h : lex? t = some ks) (rest : Lexes t ks) :
      Lexes (c :: t) ks
  | token (c t k r ks) (hc : isSpace c = false) (hk : Reads c t k r) (h : lex? r = some ks)
      (rest : Lexes r ks) : Lexes (c :: t) (k :: ks)

theorem lexes_of_lex? {ks : List Token} (h : lex? t = some ks) : Lexes t ks := by
  induction t using lex?.induct generalizing ks with
  | case1 =>
      rw [lex?] at h
      obtain rfl := Option.some.inj h
      exact .nil
  | case2 c t hc ih =>
      rw [lex?, if_pos hc] at h
      exact .space c t ks hc h (ih h)
  | case3 c t hc hk =>
      rw [lex?, if_neg hc] at h
      split at h
      · cases h
      · rename_i heq
        cases hk.symm.trans heq
  | case4 c t hc k r hk hl ih =>
      rw [Bool.not_eq_true] at hc
      rw [lex?_of_token? hc hk] at h
      obtain ⟨rest, hrest, rfl⟩ := Option.map_eq_some_iff.1 h
      exact .token c t k r rest hc (reads_of_token? hk) hrest (ih hrest)

theorem exists_stringBody?_of_cons {c : Char} {us : List CodeUnit} (hquote : c ≠ '"')
    (hslash : c ≠ '\\') (h : stringBody? (c :: t) = some (us, rest)) :
    ∃ us, stringBody? t = some (us, rest) := by
  rw [stringBody?] at h
  · split at h
    · obtain ⟨⟨us', r'⟩, hr, he⟩ := Option.map_eq_some_iff.1 h
      obtain ⟨-, rfl⟩ := Prod.mk.inj he
      exact ⟨us', hr⟩
    · cases h
  · exact hquote
  · exact fun _ _ _ _ _ hc => absurd hc hslash
  · exact fun _ _ hc => absurd hc hslash

theorem Leaves.exists_stringBody? {us : List CodeUnit} {r : Text} (h : Leaves t r)
    (hs : stringBody? t = some (us, rest)) : ∃ us, stringBody? r = some (us, rest) := by
  obtain ⟨w, rfl, hw⟩ := h
  induction w generalizing us with
  | nil => exact ⟨us, hs⟩
  | cons c w ih =>
      obtain ⟨⟨hquote, hslash, -⟩, hw⟩ := List.forall_mem_cons.1 hw
      obtain ⟨us', hs⟩ := exists_stringBody?_of_cons hquote hslash hs
      exact ih hw hs

theorem not_mem_of_hexWord? {a b c d : Char} {n : Nat} (h : hexWord? a b c d = some n) :
    '\x7b' ∉ ['u', a, b, c, d] := by
  have hnone : hexValue? '\x7b' = none := by decide
  simp only [hexWord?, Option.bind_eq_bind, Option.bind_eq_some_iff] at h
  obtain ⟨x, hx, y, hy, z, hz, w, hw, -⟩ := h
  simp only [List.mem_cons, List.not_mem_nil, or_false, Char.reduceEq, false_or]
  rintro (rfl | rfl | rfl | rfl) <;> simp_all

theorem stringBody?_cases {us : List CodeUnit} (h : stringBody? t = some (us, rest)) :
    t = '"' :: rest ∨
      ∃ c w r us', t = c :: (w ++ r) ∧ '\x7b' ∉ w ∧ stringBody? r = some (us', rest) := by
  rw [stringBody?.eq_def] at h
  split at h
  · cases h
  · obtain ⟨-, rfl⟩ := Prod.mk.inj (Option.some.inj h)
    exact Or.inl rfl
  · rename_i a b c d r
    simp only [Option.bind_eq_bind, Option.bind_eq_some_iff] at h
    obtain ⟨n, hn, ⟨us', r'⟩, hr, he⟩ := h
    obtain ⟨-, rfl⟩ := Prod.mk.inj (Option.some.inj he)
    exact Or.inr ⟨'\\', ['u', a, b, c, d], r, us', rfl, not_mem_of_hexWord? hn, hr⟩
  · rename_i e r hne
    simp only [Option.bind_eq_bind, Option.bind_eq_some_iff] at h
    obtain ⟨c, hc, ⟨us', r'⟩, hr, he⟩ := h
    obtain ⟨-, rfl⟩ := Prod.mk.inj (Option.some.inj he)
    refine Or.inr ⟨'\\', [e], r, us', rfl, ?_, hr⟩
    rw [List.mem_singleton]
    rintro rfl
    cases hc
  · rename_i c r _ _ _
    split at h
    · obtain ⟨⟨us', r'⟩, hr, he⟩ := Option.map_eq_some_iff.1 h
      obtain ⟨-, rfl⟩ := Prod.mk.inj he
      exact Or.inr ⟨c, [], r, us', rfl, by simp, hr⟩
    · cases h

theorem append_object_cases {c : Char} {w s r : Text} (hw : '\x7b' ∉ w)
    (h : s ++ '\x7b' :: t = c :: (w ++ r)) :
    s = [] ∨ ∃ s', s = c :: (w ++ s') ∧ r = s' ++ '\x7b' :: t := by
  cases s with
  | nil => exact Or.inl rfl
  | cons d s =>
      obtain ⟨rfl, htail⟩ := List.cons.inj h
      have hprefix : w <+: s := Text.prefix_of_prefix_append_cons hw ⟨r, htail.symm⟩
      obtain ⟨s', rfl⟩ := hprefix
      rw [List.append_eq, List.append_assoc] at htail
      exact Or.inr ⟨s', rfl, (List.append_cancel_left htail).symm⟩

theorem stringBody?_append_object {s : Text} {us : List CodeUnit}
    (h : stringBody? (s ++ '\x7b' :: t) = some (us, rest)) :
    (∃ s', s'.length < s.length ∧ rest = s' ++ '\x7b' :: t) ∨
      ∃ us, stringBody? ('\x7b' :: t) = some (us, rest) := by
  induction hn : s.length using Nat.strong_induction_on generalizing s us with
  | _ n ih =>
      subst hn
      rcases stringBody?_cases h with hend | ⟨c, w, r, us', hgo, hw, hr⟩
      · rcases append_object_cases (w := []) (by simp) hend with rfl | ⟨s', rfl, hrest⟩
        · cases hend
        · exact Or.inl ⟨s', by simp, hrest⟩
      · rcases append_object_cases hw hgo with rfl | ⟨s', rfl, rfl⟩
        · exact Or.inr ⟨us, h⟩
        · have hlength : s'.length < (c :: (w ++ s')).length := by
            simp only [List.length_cons, List.length_append]
            omega
          rcases ih s'.length hlength hr rfl with ⟨s'', hs, hrest⟩ | hinside
          · exact Or.inl ⟨s'', hs.trans hlength, hrest⟩
          · exact Or.inr hinside

/-- The tokens of an object behind other text go on as the object's own, or its bracket stands in a
string. -/
theorem lex?_append_object {s : Text} {ks : List Token} (h : lex? (s ++ '\x7b' :: t) = some ks) :
    (∃ front own, ks = front ++ own ∧ lex? ('\x7b' :: t) = some own ∧
      (front = [] → s.all isSpace = true)) ∨
    ∃ us rest ks', stringBody? ('\x7b' :: t) = some (us, rest) ∧ lex? rest = some ks' := by
  induction hn : s.length using Nat.strong_induction_on generalizing s ks with
  | _ n ih =>
      subst hn
      cases s with
      | nil => exact Or.inl ⟨[], ks, rfl, h, fun _ => rfl⟩
      | cons c s =>
          cases lexes_of_lex? h with
          | space _ _ _ hc hs =>
              rcases ih s.length (Nat.lt_succ_self _) hs rfl with ⟨front, own, hks, hown, hfront⟩ | hin
              · exact Or.inl ⟨front, own, hks, hown, fun hnil => by simp [hc, hfront hnil]⟩
              · exact Or.inr hin
          | token _ _ k r ks hc hk hr _ =>
              have hcut : (∃ s', s'.length < (c :: s).length ∧ r = s' ++ '\x7b' :: t) ∨
                  ∃ us, stringBody? ('\x7b' :: t) = some (us, r) := by
                cases hk with
                | string us _ hquote hs =>
                    rcases stringBody?_append_object hs with ⟨s', hl, hrest⟩ | hin
                    · exact Or.inl ⟨s', Nat.lt_succ_of_lt hl, hrest⟩
                    · exact Or.inr hin
                | plain _ _ _ _ _ hleaves =>
                    obtain ⟨w, hw, hplain⟩ := hleaves
                    have hopen : '\x7b' ∉ w := fun hm => (hplain _ hm).2.2 rfl
                    rcases append_object_cases hopen (congrArg (c :: ·) hw) (s := c :: s) with
                      hnil | ⟨s', hs, hrest⟩
                    · cases hnil
                    · have hlength := congrArg List.length hs
                      simp only [List.length_cons, List.length_append] at hlength
                      exact Or.inl ⟨s', by simp only [List.length_cons]; omega, hrest⟩
              rcases hcut with ⟨s', hl, rfl⟩ | ⟨us, hin⟩
              · rcases ih s'.length hl hr rfl with ⟨front, own, rfl, hown, -⟩ | hin
                · exact Or.inl ⟨k :: front, own, rfl, hown, by simp⟩
                · exact Or.inr hin
              · exact Or.inr ⟨us, r, ks, hin, hr⟩

theorem isSpace_ne {c : Char} (hc : isSpace c = true) : c ≠ '"' ∧ c ≠ '\\' := by
  constructor <;> rintro rfl <;> cases hc

theorem exists_stringBody?_behind {us : List CodeUnit} {r : Text} {ks : List Token}
    (hlex : lex? t = some ks) (h : stringBody? t = some (us, r)) :
    ∃ us rest ks, stringBody? r = some (us, rest) ∧ lex? rest = some ks := by
  have hlexes := lexes_of_lex? hlex
  clear hlex
  induction hlexes generalizing us with
  | nil => cases h
  | space c t ks hc _ _ ih =>
      obtain ⟨us', hs⟩ := exists_stringBody?_of_cons (isSpace_ne hc).1 (isSpace_ne hc).2 h
      exact ih hs
  | token c t k r' ks _ hk hr _ ih =>
      cases hk with
      | string units _ hc hbody =>
          subst hc
          obtain ⟨-, rfl⟩ := Prod.mk.inj (Option.some.inj h)
          exact ⟨units, r', ks, hbody, hr⟩
      | plain _ _ _ hquote hslash hleaves =>
          obtain ⟨us₁, hs⟩ := exists_stringBody?_of_cons hquote hslash h
          obtain ⟨us₂, hs⟩ := hleaves.exists_stringBody? hs
          exact ih hs

theorem lex?_of_token?_eq_none {c : Char} (hc : isSpace c = false) (h : token? (c :: t) = none) :
    lex? (c :: t) = none := by
  rw [lex?, if_neg (by simp [hc])]
  split
  · rfl
  · rename_i heq
    cases h.symm.trans heq

/-- What stands in a string whose text begins with this letter cannot be read as tokens. -/
theorem lex?_eq_none_of_stringBody? {us : List CodeUnit} {name : Text}
    (h : stringBody? t = some (us, rest)) (hname : text? us = some ('s' :: name)) :
    lex? t = none := by
  rw [stringBody?.eq_def] at h
  split at h
  · cases h
  · obtain ⟨rfl, -⟩ := Prod.mk.inj (Option.some.inj h)
    cases hname
  · exact lex?_of_token?_eq_none rfl rfl
  · exact lex?_of_token?_eq_none rfl rfl
  · rename_i c r _ _ _
    split at h
    · obtain ⟨⟨us', r'⟩, hr, he⟩ := Option.map_eq_some_iff.1 h
      obtain ⟨rfl, -⟩ := Prod.mk.inj he
      obtain ⟨text, -, hc⟩ := Option.map_eq_some_iff.1 hname
      obtain ⟨rfl, -⟩ := List.cons.inj hc
      exact lex?_of_token?_eq_none rfl rfl
    · cases h

theorem lex?_eq_none_of_inside {us key : List CodeUnit} {ks : List Token} {name : Text}
    (hlex : lex? t = some ks) (hkey : .string key ∈ ks) (hname : text? key = some ('s' :: name))
    (h : stringBody? t = some (us, rest)) : lex? rest = none := by
  have hlexes := lexes_of_lex? hlex
  clear hlex
  induction hlexes generalizing us rest with
  | nil => cases h
  | space c t ks hc _ _ ih =>
      obtain ⟨us', hs⟩ := exists_stringBody?_of_cons (isSpace_ne hc).1 (isSpace_ne hc).2 h
      exact ih hkey hs
  | token c t k r ks _ hk hr _ ih =>
      cases hk with
      | string units _ hc hbody =>
          subst hc
          obtain ⟨-, rfl⟩ := Prod.mk.inj (Option.some.inj h)
          rw [Option.eq_none_iff_forall_ne_some]
          intro inner hinner
          -- The string of this token is now read as tokens, and what follows it as a string again.
          rcases List.mem_cons.1 hkey with heq | hkey
          · obtain rfl := Token.string.inj heq
            cases (lex?_eq_none_of_stringBody? hbody hname).symm.trans hinner
          · obtain ⟨us', rest', ks', hs, hrest⟩ := exists_stringBody?_behind hinner hbody
            cases (ih hkey hs).symm.trans hrest
      | plain _ _ hne hquote hslash hleaves =>
          obtain ⟨us₁, hs⟩ := exists_stringBody?_of_cons hquote hslash h
          obtain ⟨us₂, hs⟩ := hleaves.exists_stringBody? hs
          rcases List.mem_cons.1 hkey with heq | hkey
          · exact absurd heq.symm (hne key)
          · exact ih hkey hs

theorem run?_object_ne {s : State} {own : List Token} {fields : List (Key × Tree)} {done : Tree}
    (hown : run? (.value []) (.objectStart :: own) = some (.after (.object fields) []))
    (hs : s ≠ .value []) : run? s (.objectStart :: own) ≠ some (.after done []) := by
  intro h
  have hvalue (base : List Frame) :
      run? (.value base) (.objectStart :: own) = some (.after (.object fields) base) :=
    run?_over hown base
  rw [run?_cons] at h
  obtain ⟨next, hnext, hrest⟩ := Option.bind_eq_some_iff.1 h
  have hbase (base : List Frame) (hb : begin? base .objectStart = some next) : base = [] := by
    have hrun := hvalue base
    rw [run?_cons, show step? (.value base) .objectStart = some next from hb] at hrun
    have hdone := Option.some.inj (hrest.symm.trans hrun)
    simpa using (State.after.inj hdone).2.symm
  cases step_of_step? hnext with
  | value stack _ _ _ => exact hs (by rw [hbase stack hnext])
  | firstItem stack _ _ _ => cases hbase (.array [] :: stack) hnext

/-- An object one of whose keys begins with this letter is not read behind other text. -/
theorem parse?_append_object {s name : Text} {fields : List (Key × Tree)} {key : Key} {tree : Tree}
    (hs : s.all isSpace = false) (hobject : parse? ('\x7b' :: t) = some (.object fields))
    (hkey : (key, tree) ∈ fields) (hname : text? key = some ('s' :: name)) :
    parse? (s ++ '\x7b' :: t) = none := by
  rw [Option.eq_none_iff_forall_ne_some]
  intro whole hwhole
  obtain ⟨tokens, hlex, hrun⟩ := parse?_eq_some hobject
  obtain ⟨ks, hks, hrunWhole⟩ := parse?_eq_some hwhole
  have hstring : .string key ∈ tokens := string_mem_of_parse? hrun hkey
  rcases lex?_append_object hks with ⟨front, own, rfl, hown, hfront⟩ | ⟨us, rest, ks', hin, hrest⟩
  · obtain rfl := Option.some.inj (hlex.symm.trans hown)
    rw [lex?_mark _ .objectStart rfl fun _ => rfl] at hlex
    obtain ⟨behind, -, rfl⟩ := Option.map_eq_some_iff.1 hlex
    rw [run?_append] at hrunWhole
    obtain ⟨state, hstate, hbehind⟩ := Option.bind_eq_some_iff.1 hrunWhole
    have hne : front ≠ [] := by
      intro hnil
      cases hs.symm.trans (hfront hnil)
    exact run?_object_ne hrun (ne_value_nil_of_run? hne hstate) hbehind
  · cases (lex?_eq_none_of_inside hlex hstring hname hin).symm.trans hrest

end SoloCall.Json
