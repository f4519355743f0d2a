/-
  Iosu.Bsp.SyslogLength — the length that `log_print_syslog` (`log.c`) hands to IOS_Write.

  It is the sum of what the two formatting calls return. Both count the characters for which
  there was no room, so the length is that of the text in the block as long as the text and
  its terminator fit, and more than that from there on (`writesStored_iff`).

  Which characters of the block are the text's is seen by the same calls on marks: every
  character formatted is a 1, and all else in memory is 0.
-/

import Iosu.Bsp.Syslog

namespace Iosu.Bsp

open Iosu.Lib Iosu.Libc Iosu.Entity

variable {ε : Type}

/-! ## What is stored -/

/-- Formats come to as many characters, all of them marks. -/
def Engine.marked (engine : Engine) : Engine := fun fmt args => (engine fmt args).map fun _ => 1

section Stored

variable (x : SyslogExt ε) (engine : Engine) (s : Syslog ε) (c : SyslogCall)

/-- The uptime that the stamp of a call is made from. -/
def uptimeFor : U64 := (x.iosGetUpTime64 (x.iosHeapAlloc (s.opened x).env).2).1

def markedMessage : Message :=
  messageAt (Engine.formatter engine.marked) (uptimeFor x s) (blockFor x s) c ⟨fun _ => 0, []⟩

/-- The characters of the formatting area that are those of a text. -/
def storedCharacters : Nat :=
  (List.range 0x100).countP fun i => (markedMessage x engine s c).sink.mem.view (blockFor x s) i = 1

/-- What a call writes is stored text. -/
def WritesStored : Prop :=
  ∀ handle str len mem,
    SyslogEvent.write handle str len mem ∈ (log_print_syslog x engine.formatter c.fmt c.ap c.include_ts s).trace →
      len.toNat ≤ storedCharacters x engine s c

/-- The length of the timestamp, which may be left out. -/
def stampLength : Nat :=
  if c.include_ts then (engine stampFormat (stamp (uptimeFor x s)).args).length else 0

end Stored

/-- A length as the formatting calls return it, if that is not negative. -/
def counted (n : Nat) : Nat := (BitVec.ofNat 32 n).toInt.toNat

/-! ## Marks in memory -/

theorem counted_lt (n : Nat) : counted n < 2 ^ 31 := by
  have := BitVec.toInt_lt (x := BitVec.ofNat 32 n)
  simp [counted] at *
  omega

theorem counted_eq {n : Nat} (h : 0 ≤ (BitVec.ofNat 32 n).toInt) : counted n = n % 2 ^ 32 := by
  unfold counted
  rw [BitVec.toInt_eq_toNat_cond] at *
  simp at *
  omega

theorem counted_pos {n : Nat} (h : 0 < counted n) : counted n = n % 2 ^ 32 := by
  apply counted_eq
  unfold counted at h
  omega

theorem ofNat_mod (n : Nat) : BitVec.ofNat 32 n = BitVec.ofNat 32 (n % 2 ^ 32) := by
  apply BitVec.eq_of_toNat_eq
  simp

theorem marked_eq (engine : Engine) (fmt : CStr) (args : List FmtArg) :
    engine.marked fmt args = List.replicate (engine fmt args).length 1 := List.map_const' ..

theorem adds_marks (str size : U32) (sink : Sink) (n : Nat) {j : Nat} (hj : j < 2 ^ 32) :
    (sprintf_buffer_adds ⟨str, 0, size⟩ sink (List.replicate n 1)).2.mem.view str j =
      if j < n ∧ j < size.toNat then 1 else sink.mem.view str j := by
  induction n with
  | zero => simp [sprintf_buffer_adds]
  | succ n ih =>
    have hroom : (BitVec.ofNat 32 n < size) ↔ n % 2 ^ 32 < size.toNat := by rw [BitVec.lt_def, BitVec.toNat_ofNat]
    rw [List.replicate_succ', adds_snoc, adds_ctx, List.length_replicate]
    unfold sprintf_buffer_add
    dsimp only
    -- from 2^32 characters on the count has wrapped, and marks fall on marks
    by_cases hlt : n % 2 ^ 32 < size.toNat
    · rw [if_pos (hroom.mpr hlt), ofNat_mod, Sink.put_view _ _ _ (Nat.mod_lt _ (by omega)) hj, ih]
      split
      · rw [if_pos (by omega)]
      · exact if_congr (by omega) rfl rfl
    · rw [if_neg (mt hroom.mp hlt), ih]
      exact if_congr (by omega) rfl rfl

/-- The terminator is no mark. -/
theorem vsnprintf_marks (str : U32) {size : U32} (h : 0 < size) (sink : Sink) (n : Nat) {j : Nat} (hj : j < 2 ^ 32) :
    (vsnprintf str size (List.replicate n 1) sink).2.mem.view str j =
      if j = min (n % 2 ^ 32) (size.toNat - 1) then 0
      else if j < n ∧ j < size.toNat then 1 else sink.mem.view str j := by
  have hlt : n % 2 ^ 32 < 2 ^ 32 := Nat.mod_lt _ (by omega)
  rw [vsnprintf_eq, List.length_replicate, ofNat_mod, terminatorAt_eq h hlt, Sink.put_view _ _ _ (by omega) hj,
    adds_marks str size sink n hj]

theorem view_behind (mem : Mem) (str : U32) {o i : Nat} (h : o ≤ i) :
    mem.view str i = mem.view (str + BitVec.ofNat 32 o) (i - o) := by
  unfold Mem.view
  rw [BitVec.add_assoc, ← BitVec.ofNat_add, Nat.add_sub_cancel' h]

/-- In front of `o`, the offset wraps. -/
theorem view_before (mem : Mem) (str : U32) {o i : Nat} (ho : o < 2 ^ 32) :
    mem.view str i = mem.view (str + BitVec.ofNat 32 o) (2 ^ 32 - o + i) := by
  have hwrap : o + (2 ^ 32 - o + i) = i + 2 ^ 32 := by omega
  unfold Mem.view
  rw [BitVec.add_assoc, ← BitVec.ofNat_add, hwrap, ofNat_mod (i + 2 ^ 32), Nat.add_mod_right, ← ofNat_mod]

/-- Marks in the rest of the area, from `o` on. -/
theorem marks_from (str : U32) {o : Nat} (ho : o ≤ 0xFF) (n : Nat) (sink : Sink) {i : Nat} (hi : i < 0x100) :
    (vsnprintf (str + BitVec.ofNat 32 o) (0x100 - BitVec.ofNat 32 o) (List.replicate n 1) sink).2.mem.view str i =
      if i < o then sink.mem.view str i
      else if i = o + min (n % 2 ^ 32) (0xFF - o) then 0
      else if i < o + n then 1 else sink.mem.view str i := by
  have hsize : (0x100 - BitVec.ofNat 32 o : U32).toNat = 0x100 - o := by
    have hwhole : (0x100 : U32).toNat = 0x100 := rfl
    rw [BitVec.toNat_sub, hwhole, BitVec.toNat_ofNat]
    omega
  have hroom : (0 : U32) < 0x100 - BitVec.ofNat 32 o := by
    have hzero : (0 : U32).toNat = 0 := rfl
    rw [BitVec.lt_def, hsize, hzero]
    omega
  by_cases hio : i < o
  · rw [if_pos hio, view_before _ str (show o < 2 ^ 32 by omega), vsnprintf_marks _ hroom _ _ (by omega), hsize,
      if_neg (by omega), if_neg (by omega), ← view_before _ str (by omega)]
  · rw [if_neg hio, view_behind _ str (by omega : o ≤ i), vsnprintf_marks _ hroom _ _ (by omega), hsize,
      view_behind _ str (by omega : o ≤ i)]
    exact if_congr (by omega) rfl (if_congr (by omega) rfl rfl)

theorem le_countP_range {p : Nat → Bool} {k n : Nat} (hk : k ≤ n) (h : ∀ i < k, p i) : k ≤ (List.range n).countP p := by
  have hall : (List.range k).countP p = (List.range k).length :=
    List.countP_eq_length.mpr fun i hi => h i (List.mem_range.mp hi)
  rw [List.length_range] at hall
  rw [← hall]
  exact (List.range_sublist.mpr hk).countP_le

theorem countP_range_lt {p : Nat → Bool} {n i : Nat} (hi : i < n) (h : p i = false) : (List.range n).countP p < n := by
  have hle := List.countP_le_length (p := p) (l := List.range n)
  have hne : (List.range n).countP p ≠ (List.range n).length := by
    intro hall
    have := List.countP_eq_length.mp hall i (List.mem_range.mpr hi)
    simp [h] at this
  rw [List.length_range] at hle hne
  omega

/-! ## The message of a call -/

section Message

variable (x : SyslogExt ε) (engine : Engine) (s : Syslog ε) (c : SyslogCall)

theorem offset_counted (n : Nat) :
    (if 0 ≤ (BitVec.ofNat 32 n).toInt then 0 + BitVec.ofNat 32 n else 0) = BitVec.ofNat 32 (counted n) := by
  split
  · rename_i hpos
    rw [counted_eq hpos, ← ofNat_mod]
    simp
  · have hneg : counted n = 0 := by
      unfold counted
      omega
    rw [hneg]
    rfl

/-- What the formatting calls return is counted from the lengths. -/
theorem messageFor_returns :
    (messageFor x engine.formatter s c).strOffset = BitVec.ofNat 32 (counted (stampLength x engine s c)) ∧
      (messageFor x engine.formatter s c).ret = BitVec.ofNat 32 (engine c.fmt c.ap).length := by
  unfold messageFor messageAt stampLength uptimeFor
  refine ⟨?_, vsnprintf_returns ..⟩
  cases c.include_ts
  · rfl
  · simp only [if_pos, Engine.formatter, snprintf, vsnprintf_returns]
    exact offset_counted _

/-- The message is stored behind a prefix of marks. -/
theorem markedMessage_sink :
    ∃ sink : Sink,
      (∀ i, i < counted (stampLength x engine s c) → counted (stampLength x engine s c) ≤ 0xFF →
        sink.mem.view (blockFor x s) i = 1) ∧
      (markedMessage x engine s c).sink =
        (vsnprintf (blockFor x s + BitVec.ofNat 32 (counted (stampLength x engine s c)))
          (0x100 - BitVec.ofNat 32 (counted (stampLength x engine s c)))
          (List.replicate (engine c.fmt c.ap).length 1) sink).2 := by
  unfold markedMessage messageAt stampLength
  cases c.include_ts
  · exact ⟨⟨fun _ => 0, []⟩, fun i hi => absurd hi (by simp [counted]), by rw [← marked_eq]; rfl⟩
  · refine ⟨_, ?_, by
      simp only [if_pos, Engine.formatter, snprintf, vsnprintf_returns, marked_eq, List.length_replicate]
      rw [offset_counted]⟩
    intro i hi hfits
    rw [if_pos rfl] at hi hfits
    have hlength := counted_pos (Nat.zero_lt_of_lt hi)
    have hle := Nat.mod_le (engine stampFormat (stamp (uptimeFor x s)).args).length (2 ^ 32)
    have hsize : (0x100 : U32).toNat = 0x100 := rfl
    rw [vsnprintf_marks _ (by decide) _ _ (by omega), hsize, if_neg (by omega), if_pos ⟨by omega, by omega⟩]

theorem storedCharacters_le : storedCharacters x engine s c ≤ 0x100 := by
  have hle := List.countP_le_length (l := List.range 0x100)
    (p := fun i => (markedMessage x engine s c).sink.mem.view (blockFor x s) i = 1)
  rwa [List.length_range] at hle

/-- The marks reach as far as the two lengths, if they fit; the last byte is never one
    behind a message that fills the area. -/
theorem storedCharacters_iff (hmessage : 0 < counted (engine c.fmt c.ap).length) :
    counted (stampLength x engine s c) + counted (engine c.fmt c.ap).length ≤ storedCharacters x engine s c ↔
      counted (stampLength x engine s c) + counted (engine c.fmt c.ap).length ≤ 0xFF := by
  obtain ⟨sink, hprefix, hsink⟩ := markedMessage_sink x engine s c
  have hlength := counted_pos hmessage
  have hle := Nat.mod_le (engine c.fmt c.ap).length (2 ^ 32)
  have hall := storedCharacters_le x engine s c
  generalize counted (stampLength x engine s c) = o at *
  generalize (engine c.fmt c.ap).length = n at *
  constructor
  · intro hstored
    by_contra hlong
    have hlast : storedCharacters x engine s c < 0x100 := by
      refine countP_range_lt (show 0xFF < 0x100 by omega) ?_
      rw [hsink, marks_from _ (by omega) _ _ (by omega), if_neg (by omega), if_pos (by omega)]
      rfl
    omega
  · intro hfits
    refine le_countP_range (by omega) fun i hi => ?_
    rw [hsink, marks_from _ (by omega) _ _ (by omega), decide_eq_true_eq]
    split
    · rename_i hio
      exact hprefix i hio (by omega)
    · rw [if_neg (by omega), if_pos (by omega)]

/-- A write is of stored text exactly when stamp and message leave room for the terminator.
    Lengths are as the calls return them. -/
theorem writesStored_iff :
    WritesStored x engine s c ↔ (blockFor x s ≠ 0 → 0 < counted (engine c.fmt c.ap).length →
      counted (stampLength x engine s c) + counted (engine c.fmt c.ap).length ≤ 0xFF) := by
  obtain ⟨err, s', hrun⟩ := log_print_syslog_eq x engine.formatter s c
  obtain ⟨hoffset, hret⟩ := messageFor_returns x engine s c
  have hshort : (messageFor x engine.formatter s c).ret.toInt < 1 ↔ ¬ 0 < counted (engine c.fmt c.ap).length := by
    rw [hret]
    unfold counted
    omega
  unfold WritesStored
  rw [hrun]
  dsimp only
  by_cases hblock : blockFor x s = 0
  · simp [hblock]
  by_cases hmessage : 0 < counted (engine c.fmt c.ap).length
  · have hlength : ((messageFor x engine.formatter s c).strOffset + (messageFor x engine.formatter s c).ret).toNat =
        counted (stampLength x engine s c) + counted (engine c.fmt c.ap).length := by
      have := counted_lt (stampLength x engine s c)
      have := counted_lt (engine c.fmt c.ap).length
      rw [hoffset, hret, ofNat_mod (engine c.fmt c.ap).length, ← counted_pos hmessage, ← BitVec.ofNat_add,
        BitVec.toNat_ofNat, Nat.mod_eq_of_lt (by omega)]
    rw [if_neg hblock, if_neg (by rw [hshort]; omega)]
    constructor
    · intro hwrites _ _
      have hstored := hwrites _ _ _ _ (List.mem_cons_of_mem _ (List.mem_cons_self ..))
      rw [hlength] at hstored
      exact (storedCharacters_iff x engine s c hmessage).mp hstored
    · intro hfits handle str len mem hwrite
      simp only [List.mem_cons, reduceCtorEq, false_or, SyslogEvent.write.injEq, List.not_mem_nil, or_false] at hwrite
      rw [hwrite.2.2.1, hlength]
      exact (storedCharacters_iff x engine s c hmessage).mpr (hfits hblock hmessage)
  · simp [hmessage, hshort]

end Message

/-- A format that comes to 300 characters. -/
def longEngine : Engine := fun _ _ => List.replicate 300 0x41

theorem long_message_overread : ¬ WritesStored oneBlock longEngine Syslog.start ⟨[], [], false⟩ := by
  intro h
  obtain ⟨err, s', hrun⟩ := log_print_syslog_eq oneBlock longEngine.formatter Syslog.start ⟨[], [], false⟩
  obtain ⟨hoffset, hret⟩ := messageFor_returns oneBlock longEngine Syslog.start ⟨[], [], false⟩
  have hstored := storedCharacters_le oneBlock longEngine Syslog.start ⟨[], [], false⟩
  have hlength : (longEngine [] []).length = 300 := List.length_replicate
  rw [hlength] at hret
  unfold WritesStored at h
  rw [hrun, hret, if_neg (by decide), if_neg (by decide)] at h
  have hwrites := h _ _ _ _ (List.mem_cons_of_mem _ (List.mem_cons_self ..))
  have hsum : (BitVec.ofNat 32 (counted 0) + BitVec.ofNat 32 300).toNat = 300 := by decide
  rw [hoffset] at hwrites
  change (BitVec.ofNat 32 (counted 0) + BitVec.ofNat 32 300).toNat ≤ _ at hwrites
  omega

end Iosu.Bsp
