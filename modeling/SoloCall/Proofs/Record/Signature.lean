import SoloCall.Proofs.Header.Name
import SoloCall.Proofs.Parameter.WellFormed
import SoloCall.Proofs.Record.Partition

namespace SoloCall

theorem Text.subset_of_cut? {sep : Char} {t before after : Text}
    (h : cut? sep t = some (before, after)) : before ⊆ t := by
  obtain ⟨rfl, -⟩ := cut?_eq_some h
  exact List.subset_append_left before (sep :: after)

namespace Parameter

variable {language : Language} {raw t untyped : Text} {p : Parameter}

theorem name_subset_of_typed? (h : typed? untyped t = some p) : p.name ⊆ t := by
  simp only [typed?] at h
  split at h
  · cases h
  · obtain rfl := Option.some.inj h
    have hname : bareName (t.endWhile fun c => !isBlank c) ⊆ t.endWhile fun c => !isBlank c :=
      fun c hc => (List.dropWhile_suffix _).subset ((List.takeWhile_prefix _).subset hc)
    exact List.Subset.trans hname (Text.endWhile_suffix _ t).subset

theorem name_subset_of_named? (h : named? t = some p) : p.name ⊆ t := by
  have hwords : ∀ word ∈ t.words, word ⊆ t := fun word hw c hc => (Text.of_mem_words hw hc).2
  rw [named?] at h
  split at h
  · cases h
  · rename_i name hname
    obtain rfl := Option.some.inj h
    exact hwords name (by simp [hname])
  · rename_i name type _ hname
    obtain rfl := Option.some.inj h
    exact hwords name (by simp [hname])

theorem name_subset_of_bound?_declared (he : '=' ∉ t) (h : bound? t = some p) : p.name ⊆ t := by
  have hname (u : Text) : (u.trim.dropEndWhile (· = '?')).trim ⊆ u := fun c hc =>
    Text.mem_of_mem_trim ((Text.dropEndWhile_prefix _ _).subset (Text.mem_of_mem_trim hc))
  simp only [bound?, Text.cut?_of_not_mem he] at h
  cases hcut : Text.cut? ':' t with
  | none =>
      simp only [hcut] at h
      split at h
      · cases h
      · obtain rfl := Option.some.inj h
        exact hname t
  | some parts =>
      simp only [hcut] at h
      split at h
      · cases h
      · obtain rfl := Option.some.inj h
        exact List.Subset.trans (hname parts.1) (Text.subset_of_cut? hcut)

theorem name_subset_of_bound? (h : bound? t = some p) : p.name ⊆ t := by
  cases hcut : Text.cut? '=' t with
  | none => exact name_subset_of_bound?_declared (Text.not_mem_of_cut?_eq_none hcut) h
  | some parts =>
      obtain ⟨front, value⟩ := parts
      obtain ⟨rfl, hf⟩ := Text.cut?_eq_some hcut
      rw [Bound.bound?_append_cons hf] at h
      obtain ⟨q, hq, rfl⟩ := Option.map_eq_some_iff.1 h
      have htrim : front.trim ⊆ front := fun c hc => Text.mem_of_mem_trim hc
      have hname : q.name ⊆ front.trim :=
        name_subset_of_bound?_declared (fun he => hf (htrim he)) hq
      exact List.Subset.trans (List.Subset.trans hname htrim) (Text.subset_of_cut? hcut)

theorem name_subset_of_annotated? (h : annotated? t = some p) : p.name ⊆ t := by
  obtain ⟨behind, rfl, -⟩ := annotated?_eq_some h
  exact List.subset_append_left p.name behind

theorem name_subset_of_read? (h : read? language t = some p) : p.name ⊆ t := by
  cases language with
  | java | c | cpp => exact name_subset_of_typed? h
  | go => exact name_subset_of_named? h
  | javascript | typescript => exact name_subset_of_bound? h
  | python | unknown => exact name_subset_of_annotated? h

theorem name_subset_of_mem_tokenize (h : p ∈ tokenize language raw) : p.name ⊆ raw := by
  rw [tokenize_eq] at h
  obtain ⟨t, hmem, hread⟩ := List.mem_filterMap.1 h
  have ht : t ∈ declarations raw := by
    split at hmem
    · exact mem_declarations_of_mem_dropSelf hmem
    · exact hmem
  obtain ⟨piece, hpiece, rfl⟩ := List.mem_map.1 (List.mem_filter.1 ht).1
  intro c hc
  exact Text.mem_of_mem_split hpiece (Text.mem_of_mem_trim (name_subset_of_read? hread hc))

end Parameter

namespace Header

theorem exists_placedAt_of_recognise? {language : Language} {line : Text} {header : Header}
    (h : recognise? language line = some header) :
    ∃ front gap rest, PlacedAt line header front gap rest := by
  have hplaces : PlacesWord line header ∨ ∃ front gap rest, PlacedAt line header front gap rest := by
    cases language with
    | python | unknown => exact .inl (suite?_places h)
    | java => exact .inl (member?_places h).1
    | go => exact .inl (func?_places h)
    | c | cpp => exact .inl (declarator?_places h).1
    | javascript | typescript =>
        obtain ⟨⟨front, gap, rest, hplaced, -⟩, -⟩ := script?_places h
        exact .inr ⟨front, gap, rest, hplaced⟩
  rcases hplaces with ⟨front, gap, rest, hplaced, -⟩ | hplaced
  · exact ⟨front, gap, rest, hplaced⟩
  · exact hplaced

end Header

namespace FunctionRecord

variable {language : Language} {source : Text} {r : FunctionRecord}

def signatureMarks : Text := "(, )".toList

theorem signature_subset {t : Text} (hname : r.name ⊆ t) (hparams : ∀ p ∈ r.parameters, p.name ⊆ t) :
    r.signature ⊆ t ++ signatureMarks := by
  have hmarks {c : Char} (hc : c ∈ signatureMarks) : c ∈ t ++ signatureMarks :=
    List.mem_append_right t hc
  have hseparator : [',', ' '] ⊆ signatureMarks := by simp [signatureMarks]
  intro c hc
  rw [signature, List.mem_append, List.mem_append, List.mem_cons] at hc
  rcases hc with (hc | rfl | hc) | hc
  · exact List.mem_append_left _ (hname hc)
  · exact hmarks (by decide)
  · rcases Text.mem_of_mem_join hc with hsep | ⟨name, hmem, hc⟩
    · exact hmarks (hseparator hsep)
    · obtain ⟨p, hp, rfl⟩ := List.mem_map.1 hmem
      exact List.mem_append_left _ (hparams p hp hc)
  · obtain rfl := List.mem_singleton.1 hc
    exact hmarks (by decide)

theorem exists_line_of_mem_extract (h : r ∈ extract language source) :
    ∃ line ∈ source.split '\n', r.signature ⊆ line ++ signatureMarks := by
  obtain ⟨line, header, hline, hheader, hname, hparams, -⟩ :=
    (scanned_scan language 1 (source.split '\n')).headed r h
  obtain ⟨front, gap, rest, hplaced⟩ := Header.exists_placedAt_of_recognise? hheader
  refine ⟨line, List.mem_of_getElem? hline, signature_subset ?_ ?_⟩
  · rw [hname, hplaced.line_eq]
    intro c hc
    simp [hc]
  · intro p hp c hc
    rw [hparams] at hp
    have hinside := Text.mem_of_mem_trim (Parameter.name_subset_of_mem_tokenize hp hc)
    rw [hplaced.line_eq]
    simp [hinside]

theorem lineFeed_notMem_signature (h : r ∈ extract language source) : '\n' ∉ r.signature := by
  obtain ⟨line, hline, hsubset⟩ := exists_line_of_mem_extract h
  intro hc
  rcases List.mem_append.1 (hsubset hc) with hc | hc
  · exact Text.not_mem_of_mem_split hline hc
  · exact absurd hc (by decide)

end FunctionRecord

end SoloCall
