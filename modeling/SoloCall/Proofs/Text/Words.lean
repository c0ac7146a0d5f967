import SoloCall.Proofs.Text.Indentation

namespace SoloCall.Text

variable {t r name : Text} {p : Char → Bool} {c : Char}

theorem word?_append_of_head? {w : Text} (hne : w ≠ []) (hw : ∀ c ∈ w, isWord c = true)
    (hr : ∀ c, r.head? = some c → isWord c = false) : word? (w ++ r) = some (w, r) := by
  obtain ⟨htake, hdrop⟩ := takeWhile_dropWhile_append hw hr
  rw [word?, htake, hdrop]
  cases w with
  | nil => exact absurd rfl hne
  | cons => rfl

theorem word?_append_cons {w : Text} (hne : w ≠ []) (hw : ∀ c ∈ w, isWord c = true)
    (hc : isWord c = false) (t : Text) : word? (w ++ c :: t) = some (w, c :: t) :=
  word?_append_of_head? hne hw fun _ hd => Option.some.inj hd ▸ hc

theorem word?_eq_some {w : Text} (h : word? t = some (w, r)) :
    w ≠ [] ∧ (∀ c ∈ w, isWord c = true) ∧ t = w ++ r := by
  rw [word?] at h
  split at h
  · cases h
  · rename_i hne
    obtain ⟨rfl, rfl⟩ := Prod.mk.inj (Option.some.inj h)
    exact ⟨fun hnil => hne hnil, fun c => List.mem_takeWhile_imp,
      List.takeWhile_append_dropWhile.symm⟩

theorem dropEndWhile_append_endWhile (p : Char → Bool) (t : Text) :
    dropEndWhile p t ++ endWhile p t = t := by
  rw [dropEndWhile, endWhile, ← List.reverse_append, List.takeWhile_append_dropWhile,
    List.reverse_reverse]

theorem dropEndWhile_prefix (p : Char → Bool) (t : Text) : dropEndWhile p t <+: t :=
  ⟨endWhile p t, dropEndWhile_append_endWhile p t⟩

theorem endWhile_suffix (p : Char → Bool) (t : Text) : endWhile p t <:+ t :=
  ⟨dropEndWhile p t, dropEndWhile_append_endWhile p t⟩

theorem mem_endWhile_imp (h : c ∈ endWhile p t) : p c = true :=
  List.mem_takeWhile_imp (List.mem_reverse.1 h)

theorem getLast?_dropEndWhile (h : (dropEndWhile p t).getLast? = some c) : p c = false := by
  rw [dropEndWhile, List.getLast?_reverse] at h
  have hstop := List.head?_dropWhile_not p t.reverse
  rw [h] at hstop
  simpa using hstop

theorem endWhile_ne_nil (h : t.getLast? = some c) (hc : p c = true) : endWhile p t ≠ [] := by
  obtain ⟨front, rfl⟩ := List.getLast?_eq_some_iff.1 h
  simp [endWhile, hc]

theorem blankPieces_ne_nil (t : Text) : blankPieces t ≠ [] := by
  induction t with
  | nil => simp [blankPieces]
  | cons c r ih =>
      simp only [blankPieces, List.foldr_cons] at ih ⊢
      split
      · simp
      · split <;> simp

theorem blankPieces_cons_of_blank (hc : isBlank c = true) (t : Text) :
    blankPieces (c :: t) = [] :: blankPieces t := by
  simp [blankPieces, hc]

theorem blankPieces_cons_of_not_blank (hc : isBlank c = false) (t : Text) :
    ∃ piece rest, blankPieces t = piece :: rest ∧
      blankPieces (c :: t) = (c :: piece) :: rest := by
  cases hp : blankPieces t with
  | nil => exact absurd hp (blankPieces_ne_nil t)
  | cons piece rest =>
      refine ⟨piece, rest, rfl, ?_⟩
      rw [blankPieces] at hp
      rw [blankPieces, List.foldr_cons, hp, if_neg (by simp [hc])]

theorem blankPieces_append_cons (hc : isBlank c = true) (t r : Text) :
    blankPieces (t ++ c :: r) = blankPieces t ++ blankPieces r := by
  induction t with
  | nil => exact blankPieces_cons_of_blank hc r
  | cons d t ih =>
      cases hd : isBlank d with
      | true =>
          rw [List.cons_append, blankPieces_cons_of_blank hd, blankPieces_cons_of_blank hd, ih,
            List.cons_append]
      | false =>
          obtain ⟨piece, rest, hp, hcons⟩ := blankPieces_cons_of_not_blank hd t
          obtain ⟨piece', rest', hp', hcons'⟩ := blankPieces_cons_of_not_blank hd (t ++ c :: r)
          rw [ih, hp, List.cons_append] at hp'
          obtain ⟨rfl, rfl⟩ := List.cons.inj hp'
          rw [List.cons_append, hcons', hcons, List.cons_append]

theorem of_mem_blankPieces {piece : Text} (h : piece ∈ blankPieces t) (hc : c ∈ piece) :
    isBlank c = false ∧ c ∈ t := by
  induction t generalizing piece with
  | nil =>
      obtain rfl : piece = [] := by simpa [blankPieces] using h
      cases hc
  | cons d r ih =>
      cases hd : isBlank d with
      | true =>
          rw [blankPieces_cons_of_blank hd, List.mem_cons] at h
          rcases h with rfl | h
          · cases hc
          · exact (ih h hc).imp_right (List.mem_cons_of_mem d)
      | false =>
          obtain ⟨first, rest, hp, hcons⟩ := blankPieces_cons_of_not_blank hd r
          rw [hp] at ih
          rw [hcons, List.mem_cons] at h
          rcases h with rfl | h
          · rcases List.mem_cons.1 hc with rfl | hf
            · exact ⟨hd, List.mem_cons_self⟩
            · exact (ih List.mem_cons_self hf).imp_right (List.mem_cons_of_mem d)
          · exact (ih (List.mem_cons_of_mem _ h) hc).imp_right (List.mem_cons_of_mem d)

theorem ne_nil_of_mem_words {word : Text} (h : word ∈ words t) : word ≠ [] := by
  simpa using (List.mem_filter.1 h).2

theorem of_mem_words {word : Text} (h : word ∈ words t) (hc : c ∈ word) :
    isBlank c = false ∧ c ∈ t :=
  of_mem_blankPieces (List.mem_filter.1 h).1 hc

theorem words_append_cons (hc : isBlank c = true) (t r : Text) :
    words (t ++ c :: r) = words t ++ words r := by
  rw [words, blankPieces_append_cons hc, List.filter_append]
  rfl

theorem words_of_allBlank (h : t.allBlank = true) : words t = [] := by
  have hw := words_append_left h []
  rwa [List.append_nil] at hw

theorem words_of_not_blank (hne : t ≠ []) (h : ∀ c ∈ t, isBlank c = false) : words t = [t] := by
  have hpieces : blankPieces t = [t] := by
    induction t with
    | nil => exact absurd rfl hne
    | cons c r ih =>
        obtain ⟨piece, rest, hp, hcons⟩ :=
          blankPieces_cons_of_not_blank (h c List.mem_cons_self) r
        cases r with
        | nil =>
            obtain ⟨rfl, rfl⟩ : ([] : Text) = piece ∧ [] = rest := by simpa [blankPieces] using hp
            exact hcons
        | cons d r =>
            rw [ih (by simp) fun e he => h e (List.mem_cons_of_mem _ he)] at hp
            obtain ⟨rfl, rfl⟩ := List.cons.inj hp
            exact hcons
  rw [words, hpieces]
  simp [hne]

theorem words_join {pieces : List Text} (hne : ∀ piece ∈ pieces, piece ≠ [])
    (h : ∀ piece ∈ pieces, ∀ c ∈ piece, isBlank c = false) :
    words (join [' '] pieces) = pieces := by
  induction pieces with
  | nil => rfl
  | cons piece rest ih =>
      have hpiece := words_of_not_blank (hne piece List.mem_cons_self) (h piece List.mem_cons_self)
      cases rest with
      | nil => exact hpiece
      | cons next rest =>
          have hrest := ih (fun p hp => hne p (List.mem_cons_of_mem _ hp))
            fun p hp => h p (List.mem_cons_of_mem _ hp)
          rw [join_cons_cons, List.append_assoc, List.singleton_append,
            words_append_cons (by decide), hpiece, hrest, List.singleton_append]

theorem exists_mem_of_getLast?_join {sep : Text} {pieces : List Text}
    (hne : ∀ piece ∈ pieces, piece ≠ []) (h : (join sep pieces).getLast? = some c) :
    ∃ piece ∈ pieces, c ∈ piece := by
  induction pieces with
  | nil => cases h
  | cons piece rest ih =>
      cases rest with
      | nil => exact ⟨piece, List.mem_cons_self, List.mem_of_getLast? h⟩
      | cons next rest =>
          have hrest : join sep (next :: rest) ≠ [] := join_ne_nil (hne next (by simp)) rest
          rw [join_cons_cons, getLast?_append_left hrest] at h
          obtain ⟨p, hp, hc⟩ := ih (fun p hp => hne p (List.mem_cons_of_mem _ hp)) h
          exact ⟨p, List.mem_cons_of_mem _ hp, hc⟩

/-- A text cut around its last word. -/
structure LastWord (t front name behind : Text) : Prop where
  eq : t = front ++ name ++ behind
  words_eq : t.words = front.words ++ [name]
  ne_nil : name ≠ []
  not_blank : ∀ c ∈ name, isBlank c = false
  front_blank : ∀ c, front.getLast? = some c → isBlank c = true
  behind_blank : behind.allBlank = true

theorem words_append_of_getLast? {front : Text}
    (h : ∀ c, front.getLast? = some c → isBlank c = true) (r : Text) :
    words (front ++ r) = words front ++ words r := by
  rcases List.eq_nil_or_concat front with rfl | ⟨init, c, rfl⟩
  · rfl
  · have hc : isBlank c = true := h c (by simp)
    rw [List.concat_eq_append, List.append_assoc, List.singleton_append, words_append_cons hc,
      words_append_cons hc]
    simp [words, blankPieces]

theorem exists_lastWord (h : t.allBlank = false) :
    ∃ front name behind, LastWord t front name behind := by
  have hbody := dropEndWhile_append_endWhile isBlank t
  have hcut := dropEndWhile_append_endWhile (fun c => !isBlank c) (dropEndWhile isBlank t)
  have hbehind : allBlank (endWhile isBlank t) = true :=
    List.all_eq_true.2 fun _ => mem_endWhile_imp
  set body := dropEndWhile isBlank t with hb
  set front := dropEndWhile (fun c => !isBlank c) body with hf
  set name := endWhile (fun c => !isBlank c) body with hn
  set behind := endWhile isBlank t with hr
  have hnot : ∀ c ∈ name, isBlank c = false := by
    intro c hc
    have hm := mem_endWhile_imp hc
    simpa using hm
  have hfront : ∀ c, front.getLast? = some c → isBlank c = true := by
    intro c hc
    have hm := getLast?_dropEndWhile hc
    simpa using hm
  have hne : name ≠ [] := by
    cases hlast : body.getLast? with
    | none =>
        rw [List.getLast?_eq_none_iff.1 hlast, List.nil_append] at hbody
        rw [← hbody, hbehind] at h
        cases h
    | some c =>
        apply endWhile_ne_nil hlast
        rw [getLast?_dropEndWhile hlast]
        rfl
  have hnameWords : words (name ++ behind) = [name] := by
    cases hd : behind with
    | nil => rw [List.append_nil, words_of_not_blank hne hnot]
    | cons c rest =>
        obtain ⟨hc, hrest⟩ : isBlank c = true ∧ allBlank rest = true := by
          simpa [allBlank, hd] using hbehind
        rw [words_append_cons hc, words_of_not_blank hne hnot, words_of_allBlank hrest]
        rfl
  refine ⟨front, name, behind, ⟨?_, ?_, hne, hnot, hfront, hbehind⟩⟩
  · rw [hcut, hbody]
  · rw [← hnameWords, ← words_append_of_getLast? hfront, ← List.append_assoc, hcut, hbody]

theorem allBlank_of_words_eq_nil (h : t.words = []) : t.allBlank = true := by
  by_contra hb
  rw [Bool.not_eq_true] at hb
  obtain ⟨front, name, behind, hlast⟩ := exists_lastWord hb
  rw [hlast.words_eq] at h
  simp at h

/-- A last word of word characters alone, and no longer one: what stands before it ends in a
blank. -/
theorem exists_plain_lastWord (init : List Text) (h : t.plainWords? = some (init ++ [name])) :
    ∃ front behind, LastWord t front name behind ∧ front.words = init ∧
      ∀ c ∈ name, isWord c = true := by
  rw [plainWords?] at h
  split at h
  · rename_i hplain
    have hwords : t.words = init ++ [name] := Option.some.inj h
    have hblank : t.allBlank = false := by
      by_contra hb
      rw [Bool.not_eq_false] at hb
      rw [words_of_allBlank hb] at hwords
      simp at hwords
    obtain ⟨front, last, behind, hlast⟩ := exists_lastWord hblank
    obtain ⟨hinit, hname⟩ := List.append_inj' (hlast.words_eq.symm.trans hwords) rfl
    obtain rfl : last = name := by simpa using hname
    refine ⟨front, behind, hlast, hinit, ?_⟩
    intro c hc
    have hmem : c ∈ t := by
      rw [hlast.eq]
      simp [hc]
    have hor := List.all_eq_true.1 hplain c hmem
    rw [hlast.not_blank c hc, Bool.or_false] at hor
    exact hor
  · cases h

end SoloCall.Text
