import SoloCall.Proofs.Text.Split
import SoloCall.Proofs.Traverse
import SoloCall.Text.Utf8

namespace SoloCall.Utf8

variable {a b bytes : Bytes} {r : Reader} {s : Open} {units : List (Option Char)}

/-- What is known of a sequence that has begun: only bytes beyond ASCII go on with it, and what it
spells in the end is no ASCII character either. -/
structure Open.Sound (s : Open) : Prop where
  low_ge : 0x80 ≤ s.low
  high_le : s.high ≤ 0xBF
  code_ge : 2 ≤ s.code * 0x40 + (s.low - 0x80)
  last_ge : s.wanted = 1 → 2 ≤ s.code

theorem start_cases (n : Nat) :
    start n = .char (Char.ofNat n) ∨ start n = .nothing ∨ ∃ s, start n = .opens s ∧ s.Sound := by
  have opens {s : Open} (h : s.Sound) : ∃ s', Start.opens s = .opens s' ∧ s'.Sound := ⟨s, rfl, h⟩
  rw [start]
  by_cases h₁ : n < 0x80
  · rw [if_pos h₁]
    exact .inl rfl
  rw [if_neg h₁]
  right
  by_cases h₂ : n < 0xC2
  · rw [if_pos h₂]
    exact .inl rfl
  rw [if_neg h₂]
  by_cases h₃ : n < 0xE0
  · rw [if_pos h₃]
    exact .inr (opens (by constructor <;> dsimp only <;> omega))
  rw [if_neg h₃]
  by_cases h₄ : n = 0xE0
  · rw [if_pos h₄]
    exact .inr (opens (by constructor <;> decide))
  rw [if_neg h₄]
  by_cases h₅ : n = 0xED
  · rw [if_pos h₅]
    exact .inr (opens (by constructor <;> decide))
  rw [if_neg h₅]
  by_cases h₆ : n < 0xF0
  · rw [if_pos h₆]
    exact .inr (opens (by constructor <;> dsimp only <;> omega))
  rw [if_neg h₆]
  by_cases h₇ : n = 0xF0
  · rw [if_pos h₇]
    exact .inr (opens (by constructor <;> decide))
  rw [if_neg h₇]
  by_cases h₈ : n < 0xF4
  · rw [if_pos h₈]
    exact .inr (opens (by constructor <;> dsimp only <;> omega))
  rw [if_neg h₈]
  by_cases h₉ : n = 0xF4
  · rw [if_pos h₉]
    exact .inr (opens (by constructor <;> decide))
  rw [if_neg h₉]
  exact .inl rfl

theorem Open.Sound.next (h : s.Sound) {n : Nat} (hlow : s.low ≤ n) (hhigh : n ≤ s.high) :
    Open.Sound ⟨s.wanted - 1, 0x80, 0xBF, s.code * 0x40 + n % 0x40⟩ := by
  have hcode := h.code_ge
  have hlow' := h.low_ge
  have hhigh' := h.high_le
  constructor <;> dsimp only <;> omega

theorem ofNat_eq_lineFeed {n : Nat} (h : Char.ofNat n = '\n') : n = 10 := by
  by_cases hn : n.isValidChar
  · rw [Char.ofNat, dif_pos hn] at h
    exact congrArg Char.toNat h
  · rw [Char.ofNat, dif_neg hn] at h
    cases h

/-- A reader as it is met, before the first line break of what it has read. -/
structure Reader.OnLine (r : Reader) : Prop where
  sound : ∀ s ∈ r.pending, s.Sound
  plain : some '\n' ∉ r.units

theorem Reader.OnLine.begin (h : some '\n' ∉ units) {n : Nat} (hn : n ≠ 10) :
    (Reader.begin units n).OnLine := by
  rw [Reader.begin]
  rcases start_cases n with hs | hs | ⟨s, hs, hsound⟩
  · simp only [hs]
    refine ⟨nofun, ?_⟩
    rw [List.mem_cons, not_or]
    exact ⟨fun hline => hn (ofNat_eq_lineFeed (Option.some.inj hline).symm), h⟩
  · simp only [hs]
    exact ⟨nofun, by simpa using h⟩
  · simp only [hs]
    refine ⟨?_, h⟩
    rintro s ⟨⟩
    exact hsound

theorem Reader.OnLine.feed (h : r.OnLine) {byte : UInt8} (hb : byte ≠ 10) :
    (r.feed byte).OnLine := by
  have hn : byte.toNat ≠ 10 := fun hn => hb (UInt8.toNat_inj.1 hn)
  rw [Reader.feed]
  split
  · exact .begin h.plain hn
  · rename_i s hs
    have hsound := h.sound s hs
    split
    · rename_i hrange
      obtain ⟨hlow, hhigh⟩ : s.low ≤ byte.toNat ∧ byte.toNat ≤ s.high := by simpa using hrange
      have hnext := hsound.next hlow hhigh
      dsimp only
      split
      · rename_i hlast
        have hcode := hsound.last_ge hlast
        refine ⟨nofun, ?_⟩
        rw [List.mem_cons, not_or]
        refine ⟨?_, h.plain⟩
        intro hline
        have hten := ofNat_eq_lineFeed (Option.some.inj hline).symm
        omega
      · refine ⟨?_, h.plain⟩
        rintro s ⟨⟩
        exact hnext
    · exact .begin (by simpa using h.plain) hn

theorem onLine_foldl (hr : r.OnLine) (h : 10 ∉ bytes) : (bytes.foldl Reader.feed r).OnLine := by
  induction bytes generalizing r with
  | nil => exact hr
  | cons byte rest ih =>
      obtain ⟨hbyte, hrest⟩ : 10 ≠ byte ∧ 10 ∉ rest := by simpa using h
      exact ih (hr.feed (Ne.symm hbyte)) hrest

theorem onLine_empty : Reader.OnLine {} := ⟨nofun, nofun⟩

theorem lineFeed_notMem_decode (h : 10 ∉ bytes) : some '\n' ∉ decode bytes := by
  have hline := (onLine_foldl onLine_empty h).plain
  rw [decode, Reader.finish, List.mem_reverse]
  split
  · simpa using hline
  · exact hline

def Reader.behind (units : List (Option Char)) (r : Reader) : Reader :=
  ⟨r.units ++ units, r.pending⟩

theorem Reader.begin_append (us units : List (Option Char)) (n : Nat) :
    Reader.begin (us ++ units) n = (Reader.begin us n).behind units := by
  rw [Reader.begin, Reader.begin]
  cases start n <;> rfl

theorem Reader.feed_behind (units : List (Option Char)) (r : Reader) (byte : UInt8) :
    (r.behind units).feed byte = (r.feed byte).behind units := by
  rw [Reader.feed, Reader.feed, Reader.behind]
  dsimp only
  split
  · exact Reader.begin_append r.units units byte.toNat
  · split
    · split <;> rfl
    · exact Reader.begin_append (none :: r.units) units byte.toNat

theorem foldl_behind (units : List (Option Char)) (r : Reader) (bytes : Bytes) :
    bytes.foldl Reader.feed (r.behind units) = (bytes.foldl Reader.feed r).behind units := by
  induction bytes generalizing r with
  | nil => rfl
  | cons byte rest ih => rw [List.foldl_cons, Reader.feed_behind, ih, List.foldl_cons]

theorem Reader.finish_behind (units : List (Option Char)) (r : Reader) :
    (r.behind units).finish = units.reverse ++ r.finish := by
  rw [Reader.finish, Reader.finish, Reader.behind]
  dsimp only
  split <;> simp

theorem Reader.OnLine.feed_lineFeed (h : r.OnLine) :
    r.feed 10 = Reader.behind (some '\n' :: r.finish.reverse) {} := by
  rw [Reader.feed, Reader.finish, List.reverse_reverse]
  split
  · rename_i hp
    simp only [hp]
    rfl
  · rename_i s hs
    have hlow := (h.sound s hs).low_ge
    have hbreak : decide (s.low ≤ UInt8.toNat 10) = false :=
      decide_eq_false (Nat.not_le.2 (Nat.lt_of_lt_of_le (by decide) hlow))
    simp only [hs, hbreak, Bool.false_and]
    rfl

theorem decode_append_lineFeed (h : 10 ∉ a) (b : Bytes) :
    decode (a ++ 10 :: b) = decode a ++ some '\n' :: decode b := by
  have hfeed := (onLine_foldl onLine_empty h).feed_lineFeed
  rw [decode, List.foldl_append, List.foldl_cons, hfeed, foldl_behind, Reader.finish_behind]
  simp [decode]

theorem decode?_append_lineFeed (h : 10 ∉ a) (b : Bytes) :
    decode? (a ++ 10 :: b) =
      (decode? a).bind fun x => (decode? b).map fun y => x ++ '\n' :: y := by
  rw [decode?, decode_append_lineFeed h, List.mapM_append, List.mapM_cons]
  rw [decode?, decode?]
  cases (decode a).mapM id <;> cases (decode b).mapM id <;> rfl

theorem lineFeed_notMem_of_decode? {t : Text} (h : 10 ∉ bytes) (ht : decode? bytes = some t) :
    '\n' ∉ t := by
  intro hmem
  apply lineFeed_notMem_decode h
  rw [mapM_id_eq_some_iff.1 ht]
  exact List.mem_map_of_mem hmem

/-- The lines of the text are those of the bytes, each read by itself. -/
theorem mapM_decode?_splitOn (bytes : Bytes) :
    (bytes.splitOn 10).mapM decode? = (decode? bytes).map (Text.split '\n') := by
  -- By induction on the length: behind the first line break, fewer bytes are left.
  generalize hn : bytes.length = n
  induction n using Nat.strongRecOn generalizing bytes with
  | _ n ih =>
      by_cases h : 10 ∈ bytes
      · obtain ⟨line, rest, rfl, hline⟩ := List.eq_append_cons_of_mem h
        have hlt : rest.length < n := by
          rw [← hn, List.length_append, List.length_cons]
          omega
        rw [List.splitOn_append_cons_self_of_not_mem hline, List.mapM_cons, ih _ hlt rest rfl,
          decode?_append_lineFeed hline]
        cases hx : decode? line with
        | none => rfl
        | some x =>
            have hplain := lineFeed_notMem_of_decode? hline hx
            cases decode? rest with
            | none => rfl
            | some y => simp [Text.split_append_sep hplain]
      · rw [List.splitOn_eq_singleton h]
        cases hx : decode? bytes with
        | none => simp [hx]
        | some x => simp [hx, Text.split_of_not_mem (lineFeed_notMem_of_decode? h hx)]

theorem decode?_eq_none_iff :
    decode? bytes = none ↔ ∃ line ∈ bytes.splitOn 10, decode? line = none := by
  rw [← mapM_eq_none_iff, mapM_decode?_splitOn, Option.map_eq_none_iff]

end SoloCall.Utf8
