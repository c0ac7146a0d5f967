import SoloCall.Language
import SoloCall.Proofs.Path.Join
import SoloCall.Proofs.Text.Words

namespace SoloCall

namespace Text

variable {c d : Char} {t u : Text}

theorem toLower_eq_iff (hd : d.toNat < 65) : c.toLower = d ↔ c = d := by
  by_cases hc : c.val ≥ 'A'.val ∧ c.val ≤ 'Z'.val
  · have hlower : c.toLower.val = c.val + 32 := congrArg Char.val (dif_pos hc)
    obtain ⟨hlow, hhigh⟩ : 65 ≤ c.toNat ∧ c.toNat ≤ 90 := hc
    constructor
    · rintro rfl
      have hval : c.toLower.toNat = c.toNat + 32 := by
        rw [Char.toNat, hlower, UInt32.toNat_add]
        show (c.toNat + 32) % 2 ^ 32 = _
        omega
      omega
    · rintro rfl
      omega
  · have hsame : c.toLower = c := dif_neg hc
    rw [hsame]

theorem lower_append (t u : Text) : lower (t ++ u) = lower t ++ lower u := List.map_append

theorem mem_lower_iff (hd : d.toNat < 65) : d ∈ lower t ↔ d ∈ t := by
  simp [lower, toLower_eq_iff hd]

theorem lower_eq_iff (hu : ∀ d ∈ u, d.toNat < 65) : lower t = u ↔ t = u := by
  induction u generalizing t with
  | nil => simp [lower]
  | cons d u ih =>
      obtain ⟨hd, hu⟩ := List.forall_mem_cons.1 hu
      cases t with
      | nil => simp [lower]
      | cons c t =>
          have hrest : t.map Char.toLower = u ↔ t = u := ih hu
          simp [lower, toLower_eq_iff hd, hrest]

theorem exists_last_of_mem (h : c ∈ t) : ∃ before after, t = before ++ c :: after ∧ c ∉ after := by
  obtain ⟨after, before, hcut, hnot⟩ := List.eq_append_cons_of_mem (List.mem_reverse.2 h)
  refine ⟨before.reverse, after.reverse, ?_, by simpa using hnot⟩
  rw [← List.reverse_reverse t, hcut]
  simp

end Text

namespace Path

variable {name before after trail : Text}

theorem cutExtension_of_not_mem (h : '.' ∉ name) : (cutExtension name).2 = none := by
  have hnone : Text.dropEndWhile (· ≠ '.') name = [] :=
    Text.dropEndWhile_eq_nil fun c hc => by simpa using fun he : c = '.' => h (he ▸ hc)
  simp only [cutExtension, hnone]
  rfl

theorem cutExtension_append (h : '.' ∉ after) :
    (cutExtension (before ++ '.' :: after)).2 = if before = [] then none else some after := by
  have hend : Text.endWhile (· ≠ '.') (before ++ '.' :: after) = after := by
    rw [List.append_cons]
    exact Text.endWhile_append h (.inr (by simp))
  have hfront : Text.dropEndWhile (· ≠ '.') (before ++ '.' :: after) = before ++ ['.'] := by
    have hcut := Text.dropEndWhile_append_endWhile (· ≠ '.') (before ++ '.' :: after)
    rw [hend] at hcut
    exact List.append_cancel_right (hcut.trans (List.append_cons ..))
  simp only [cutExtension, hend, hfront, List.dropLast_concat, List.isEmpty_iff]
  split <;> rfl

theorem cutExtension_lower (name : Text) :
    (cutExtension name.lower).2 = (cutExtension name).2.map Text.lower := by
  by_cases h : '.' ∈ name
  · obtain ⟨before, after, rfl, hafter⟩ := Text.exists_last_of_mem h
    have hlower : Text.lower (before ++ '.' :: after) =
        Text.lower before ++ '.' :: Text.lower after := Text.lower_append before ('.' :: after)
    have hnot : '.' ∉ Text.lower after := by rwa [Text.mem_lower_iff (by decide)]
    rw [hlower, cutExtension_append hafter, cutExtension_append hnot]
    cases before <;> rfl
  · have hnot : '.' ∉ name.lower := by rwa [Text.mem_lower_iff (by decide)]
    rw [cutExtension_of_not_mem h, cutExtension_of_not_mem hnot]
    rfl

/-- Slashes behind a name, with dots behind some of them. -/
inductive IsTrail : Text → Prop
  | nil : IsTrail []
  | slash {trail : Text} (h : IsTrail trail) : IsTrail ('/' :: trail)
  | dot {trail : Text} (h : IsTrail trail) : IsTrail ('/' :: '.' :: trail)

theorem IsTrail.exists_split (h : IsTrail trail) (hname : '/' ∉ name) :
    ∃ final, Text.split '/' (name ++ trail) = name :: final ∧
      ∀ piece ∈ final, isTrivial piece = true := by
  induction h generalizing name with
  | nil => exact ⟨[], by rw [List.append_nil, Text.split_of_not_mem hname], by simp⟩
  | slash h ih =>
      obtain ⟨final, hsplit, hfinal⟩ := @ih [] (by simp)
      refine ⟨[] :: final, ?_, List.forall_mem_cons.2 ⟨rfl, hfinal⟩⟩
      rw [Text.split_append_sep hname, ← hsplit, List.nil_append]
  | dot h ih =>
      obtain ⟨final, hsplit, hfinal⟩ := @ih ['.'] (by simp)
      refine ⟨['.'] :: final, ?_, List.forall_mem_cons.2 ⟨rfl, hfinal⟩⟩
      rw [Text.split_append_sep hname, ← hsplit, List.singleton_append]

theorem fileName?_trail (h : IsName name) (ht : IsTrail trail) (front : Path) :
    fileName? (front ++ '/' :: (name ++ trail)) = some name := by
  obtain ⟨final, hname, hfinal⟩ := ht.exists_split h.not_mem
  obtain ⟨before, hbefore⟩ := exists_split_drop_anchor front (name ++ trail)
  exact fileName?_of_split h (hbefore.trans (by rw [hname])) hfinal

theorem IsName.of_lower {name' : Text} (h : IsName name) (heq : name'.lower = name.lower) :
    IsName name' := by
  have hdots {u : Text} (hu : ∀ d ∈ u, d.toNat < 65) (hne : name ≠ u) : name' ≠ u := by
    rintro rfl
    exact hne ((Text.lower_eq_iff hu).1 (heq.symm.trans ((Text.lower_eq_iff hu).2 rfl)))
  have hslash : '/' ∉ name' := by
    rw [← Text.mem_lower_iff (by decide), heq, Text.mem_lower_iff (by decide)]
    exact h.not_mem
  exact ⟨hdots (by simp) h.ne_nil, hslash, hdots (by simp) h.ne_dot, hdots (by simp) h.ne_dots⟩

end Path

namespace Language

open SoloCall.Path

variable {name : Text}

def ofExtension (extension : Text) : Language := (extensions.lookup extension.lower).getD unknown

theorem ofExtension_congr {e e' : Text} (h : e.lower = e'.lower) :
    ofExtension e = ofExtension e' := by
  rw [ofExtension, ofExtension, h]

theorem classify_of_fileName? {path : Path} (h : fileName? path = some name) :
    classify path = ofExtension ((cutExtension name).2.getD []) := by
  rw [classify, extension?, h]
  rfl

theorem lower_getD_extension (name : Text) :
    Text.lower ((cutExtension name).2.getD []) = (cutExtension name.lower).2.getD [] := by
  rw [cutExtension_lower]
  cases (cutExtension name).2 <;> rfl

/-- The language of a file is that of its last name, wherever the file lies, whatever slashes stand
behind the name and in whatever case it is written. It is the language of what follows the name's
last dot, and unknown if no dot stands behind the first character. -/
theorem classify_byLastName (h : IsName name) :
    (∀ front name' trail : Text, name'.lower = name.lower → IsTrail trail →
      classify (front ++ '/' :: (name' ++ trail)) = classify name) ∧
    ('.' ∉ name ∨ (∃ rest, name = '.' :: rest ∧ '.' ∉ rest) → classify name = unknown) ∧
    ∀ before after : Text, before ≠ [] → '.' ∉ after → name = before ++ '.' :: after →
      classify name = ofExtension after := by
  have hname := classify_of_fileName? h.fileName?_eq
  refine ⟨?_, ?_, ?_⟩
  · intro front name' trail hcase htrail
    rw [hname, classify_of_fileName? (fileName?_trail (h.of_lower hcase) htrail front)]
    apply ofExtension_congr
    rw [lower_getD_extension, lower_getD_extension, hcase]
  · intro hdot
    have hnone : (cutExtension name).2 = none := by
      rcases hdot with hnot | ⟨rest, rfl, hrest⟩
      · exact cutExtension_of_not_mem hnot
      · exact @cutExtension_append [] rest hrest
    rw [hname, hnone]
    rfl
  · rintro before after hbefore hafter rfl
    rw [hname, cutExtension_append hafter, if_neg hbefore]
    rfl

theorem classify_byLastName_dotted :
    IsName "Tool.v2.Py".toList ∧ IsName ".py".toList ∧ IsTrail "/.//".toList ∧
      classify "/home/a.java\\b.c/TOOL.V2.pY/.//".toList = classify "Tool.v2.Py".toList ∧
      classify "Tool.v2.Py".toList = python ∧ classify ".py".toList = unknown := by
  have hname : IsName "Tool.v2.Py".toList := ⟨by decide, by decide, by decide, by decide⟩
  have hhidden : IsName ".py".toList := ⟨by decide, by decide, by decide, by decide⟩
  have htrail : IsTrail "/.//".toList := .dot (.slash (.slash .nil))
  obtain ⟨hsame, -, hextension⟩ := classify_byLastName hname
  refine ⟨hname, hhidden, htrail, ?_, ?_, ?_⟩
  · exact hsame "/home/a.java\\b.c".toList "TOOL.V2.pY".toList "/.//".toList (by decide) htrail
  · rw [hextension "Tool.v2".toList "Py".toList (by decide) (by decide) rfl]
    decide
  · exact (classify_byLastName hhidden).2.1 (.inr ⟨"py".toList, rfl, by decide⟩)

end Language

end SoloCall
