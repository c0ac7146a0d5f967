import SoloCall.Proofs.Json.Seam
import SoloCall.Proofs.Outcome.Decoding
import SoloCall.Proofs.Text.Lines

namespace SoloCall

namespace Json

theorem isBlank_of_isSpace {c : Char} (hc : isSpace c = true) : isBlank c = true := by
  simp only [isSpace, Bool.or_eq_true, decide_eq_true_eq] at hc
  rcases hc with ((rfl | rfl) | rfl) | rfl <;> decide

theorem KeysRead.exists_key {fields : List (Key × Tree)} {named : List (Text × Tree)} {name : Text}
    {tree : Tree} (h : KeysRead fields named) (hm : (name, tree) ∈ named) :
    ∃ key, (key, tree) ∈ fields ∧ text? key = some name := by
  rw [KeysRead] at h
  induction h with
  | nil => cases hm
  | cons hf _ ih =>
      rcases List.mem_cons.1 hm with rfl | hm
      · obtain ⟨hkey, rfl⟩ := hf
        exact ⟨_, List.mem_cons_self, hkey⟩
      · obtain ⟨key, hmem, hkey⟩ := ih hm
        exact ⟨key, List.mem_cons_of_mem _ hmem, hkey⟩

end Json

namespace Outcome

open Json

variable {p q r line : Text}

theorem ofLine?_append_report (hq : q.allBlank = false) (hr : (ofLine? r).isSome) :
    ofLine? (q ++ r) = none := by
  obtain ⟨o, ho⟩ := Option.isSome_iff_exists.1 hr
  obtain ⟨report, hreport, -⟩ := ofLine?_eq_some_iff.1 ho
  obtain ⟨hstart, fields, named, hparse, hread, ⟨before, after, hnamed, -⟩, -⟩ := hreport
  obtain ⟨t, ht⟩ := Option.isSome_iff_exists.1 hstart
  have hline : r.trim = '\x7b' :: t := Text.after?_eq_some_iff.1 ht
  have hblank : r.allBlank = false := by
    by_contra hb
    rw [Text.trim_eq_nil_iff.2 (by simpa using hb)] at hline
    cases hline
  have hsuccess : ("success".toList, Tree.bool report.succeeded) ∈ named := by simp [hnamed]
  obtain ⟨key, hkey, hname⟩ := hread.exists_key hsuccess
  have hspace : (q.skipBlanks ++ r.takeWhile isBlank).all isSpace = false := by
    by_contra hs
    rw [Bool.not_eq_false, List.all_append, Bool.and_eq_true] at hs
    have hskip : q.skipBlanks.allBlank = true :=
      List.all_eq_true.2 fun c hc => isBlank_of_isSpace (List.all_eq_true.1 hs.1 c hc)
    rw [Text.allBlank_skipBlanks, hq] at hskip
    cases hskip
  rw [hline] at hparse
  rw [ofLine?, Text.trim_append_of_not_blank hq hblank, hline,
    parse?_append_object hspace hparse hkey hname]
  simp

def lastReport? (output : Text) : Option Outcome := (output.split '\n').reverse.findSome? ofLine?

theorem ofOutput_eq (output : Text) : ofOutput output =
    (lastReport? output).getD
      (if output.trim.isEmpty then .failure unreadable else .failure output.trim) := by
  rw [ofOutput, lastReport?]
  cases (output.split '\n').reverse.findSome? ofLine? <;> rfl

theorem lastReport?_finished (p : Text) (hline : '\n' ∉ line) :
    lastReport? (p.finished ++ line ++ ['\n']) = (ofLine? line).or (lastReport? p.finished) := by
  have hempty : ofLine? [] = none := rfl
  rcases p.finished_cases with hf | ⟨front, hf⟩
  · rw [hf, List.nil_append, lastReport?, lastReport?, Text.split_append_sep hline]
    simp [Text.split_nil, hempty]
  · have hlines : (front ++ ['\n'] ++ line ++ ['\n']).split '\n' = front.split '\n' ++ [line, []] := by
      rw [List.append_assoc, List.append_assoc, List.singleton_append, Text.split_append_cons,
        Text.split_append_sep hline]
      rfl
    rw [hf, lastReport?, lastReport?, hlines, Text.split_append_cons]
    simp only [Text.split_nil, List.reverse_append, List.reverse_cons, List.reverse_nil,
      List.nil_append, List.cons_append, List.findSome?_cons, hempty]
    cases ofLine? line <;> rfl

/-- A report printed behind other output decides if the last line of that output is finished, or
has only blanks. Otherwise it counts for nothing: there is the outcome of an earlier report, or a
failure that tells all that was printed. -/
theorem ofOutput_append_report (hr : (ofLine? r).isSome) (hline : '\n' ∉ r) :
    ofOutput (p ++ r ++ ['\n']) =
      if p.unfinished.allBlank then ofOutput (r ++ ['\n'])
      else (lastReport? p.finished).getD (.failure (p ++ r).trim) := by
  have hlast (p : Text) : lastReport? (p ++ r ++ ['\n']) =
      (ofLine? (p.unfinished ++ r)).or (lastReport? p.finished) := by
    have hunfinished : '\n' ∉ p.unfinished ++ r := by simp [p.not_mem_unfinished, hline]
    have hcut : p ++ r = p.finished ++ (p.unfinished ++ r) := by
      rw [← List.append_assoc, p.finished_append_unfinished]
    rw [hcut, lastReport?_finished p hunfinished]
  obtain ⟨o, ho⟩ := Option.isSome_iff_exists.1 hr
  split
  · rename_i hblank
    have halone : lastReport? (r ++ ['\n']) = some o := by
      rw [← List.nil_append r, hlast []]
      simp [Text.unfinished, Text.endWhile, ho]
    have hbehind : ofLine? (p.unfinished ++ r) = some o := by
      rw [← ho, ofLine?, ofLine?, Text.trim_append_left hblank]
    rw [ofOutput_eq, ofOutput_eq, hlast p, hbehind, halone]
    rfl
  · rename_i hblank
    rw [Bool.not_eq_true] at hblank
    rw [ofOutput_eq, hlast p, ofLine?_append_report hblank hr, Option.none_or,
      Text.trim_append (by decide)]
    have htrim : (p ++ r).trim.isEmpty = false := by
      rw [Bool.eq_false_iff, ne_eq, List.isEmpty_iff, Text.trim_eq_nil_iff, Text.allBlank,
        ← p.finished_append_unfinished]
      rw [Text.allBlank] at hblank
      simp [hblank]
    rw [htrim]
    rfl

def unterminated : Text := "step 1\nprogress: \x7b\"".toList

def fiveReport : Text := "\x7b\"success\": true, \"result\": \"5\"\x7d".toList

theorem ofOutput_append_report_unterminated :
    (ofLine? fiveReport).isSome ∧ '\n' ∉ fiveReport ∧
      ofOutput (unterminated ++ fiveReport ++ ['\n']) = .failure (unterminated ++ fiveReport) := by
  have hr : (ofLine? fiveReport).isSome := by decide +kernel
  have hline : '\n' ∉ fiveReport := by decide
  have h := ofOutput_append_report (p := unterminated) hr hline
  have hnone : lastReport? unterminated.finished = none := by rfl
  refine ⟨hr, hline, ?_⟩
  rw [h, hnone]
  rfl

/-- Whether the last line was finished cannot be left out. -/
theorem unfinishedLine_hidesReport : ¬ ∀ p r : Text, (ofLine? r).isSome → '\n' ∉ r →
    ofOutput (p ++ r ++ ['\n']) = ofOutput (r ++ ['\n']) := by
  intro h
  have hfive := h "progress".toList fiveReport (by decide +kernel) (by decide)
  revert hfive
  decide +kernel

end Outcome

end SoloCall
