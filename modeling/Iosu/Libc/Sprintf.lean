/-
  Iosu.Libc.Sprintf — `vsnprintf` and `snprintf` (`libraries/libc/lib/sprintf.c`).

  What a format comes to is not part of the source (`_sprintf_cb` is a stub): the
  formatting engine hands some text to the context's `add`, a character at a time, and
  then calls its `flush`. `add` stores a character while there is room and goes on
  counting; `flush` places the terminator behind the text, or in the last byte of the
  buffer. Of an empty buffer that is the byte in front of it (`vsnprintf_bounded_iff`).

  A `Sink` is the memory together with the addresses written so far.
-/

import Iosu.Lib.Bytes
import Mathlib.Logic.Function.Basic
import Mathlib.Algebra.Group.Nat.Defs
import Mathlib.Data.List.GetD
import Mathlib.Data.List.Induction

namespace Iosu.Libc

open Iosu.Lib

structure SprintfCtxBuffer where
  buffer : U32
  offset : U32
  size : U32
  deriving DecidableEq, Repr

structure Sink where
  mem : Mem
  written : List U32

def Sink.put (s : Sink) (a : U32) (c : U8) : Sink := ⟨Function.update s.mem a c, s.written ++ [a]⟩

def sprintf_buffer_add (ctx : SprintfCtxBuffer) (sink : Sink) (c : U8) : SprintfCtxBuffer × Sink :=
  ({ ctx with offset := ctx.offset + 1 },
    if ctx.offset < ctx.size then sink.put (ctx.buffer + ctx.offset) c else sink)

def sprintf_buffer_flush (ctx : SprintfCtxBuffer) (sink : Sink) : Sink :=
  if ctx.offset < ctx.size then sink.put (ctx.buffer + ctx.offset) 0
  else sink.put (ctx.buffer + (ctx.size - 1)) 0

/-- The characters of a text, one after the other. -/
def sprintf_buffer_adds (ctx : SprintfCtxBuffer) (sink : Sink) (text : List U8) : SprintfCtxBuffer × Sink :=
  text.foldl (fun p c => sprintf_buffer_add p.1 p.2 c) (ctx, sink)

/-- `_sprintf_cb`, of a format that comes to `text`. -/
def sprintf_cb (ctx : SprintfCtxBuffer) (sink : Sink) (text : List U8) : SprintfCtxBuffer × Sink :=
  let (ctx, sink) := sprintf_buffer_adds ctx sink text
  (ctx, sprintf_buffer_flush ctx sink)

def vsnprintf (str size : U32) (text : List U8) (sink : Sink) : U32 × Sink :=
  let (ctx, sink) := sprintf_cb ⟨str, 0, size⟩ sink text
  (ctx.offset, sink)

def snprintf (str size : U32) (text : List U8) (sink : Sink) : U32 × Sink :=
  let (ret, sink) := vsnprintf str size text sink
  (ret, sink)

/-- "Hello" in four bytes at 0x100. -/
example : (vsnprintf 0x100 4 [0x48, 0x65, 0x6c, 0x6c, 0x6f] ⟨fun _ => 0xFF, []⟩).2.written =
    [0x100, 0x101, 0x102, 0x103, 0x103] := by
  decide

/-! ## Addresses -/

@[simp] theorem Sink.put_written (s : Sink) (a : U32) (c : U8) : (s.put a c).written = s.written ++ [a] := rfl

theorem Sink.put_view (s : Sink) (str : U32) (c : U8) {i j : Nat} (hi : i < 2 ^ 32) (hj : j < 2 ^ 32) :
    (s.put (str + BitVec.ofNat 32 i) c).mem.view str j = if j = i then c else s.mem.view str j := by
  have haddr : str + BitVec.ofNat 32 j = str + BitVec.ofNat 32 i ↔ j = i := by
    rw [BitVec.add_right_inj, ← BitVec.toNat_inj, BitVec.toNat_ofNat, BitVec.toNat_ofNat, Nat.mod_eq_of_lt hi,
      Nat.mod_eq_of_lt hj]
  show Function.update s.mem (str + BitVec.ofNat 32 i) c (str + BitVec.ofNat 32 j) = _
  by_cases h : j = i
  · rw [if_pos h, haddr.mpr h, Function.update_self]
  · rw [if_neg h, Function.update_of_ne (fun heq => h (haddr.mp heq))]
    rfl

theorem inWindow_offset (str : U32) {offset size : U32} (h : offset < size) :
    Mem.InWindow str size.toNat (str + offset) := by
  unfold Mem.InWindow
  rw [BitVec.add_comm, BitVec.add_sub_cancel]
  exact h

/-! ## Adding -/

section Adds

variable (str size : U32) (sink : Sink)

theorem adds_snoc (ctx : SprintfCtxBuffer) (text : List U8) (c : U8) :
    sprintf_buffer_adds ctx sink (text ++ [c]) =
      sprintf_buffer_add (sprintf_buffer_adds ctx sink text).1 (sprintf_buffer_adds ctx sink text).2 c := by
  unfold sprintf_buffer_adds
  rw [List.foldl_append]
  rfl

/-- The characters are counted past the end of the buffer. -/
theorem adds_ctx (text : List U8) :
    (sprintf_buffer_adds ⟨str, 0, size⟩ sink text).1 = ⟨str, BitVec.ofNat 32 text.length, size⟩ := by
  induction text using List.reverseRecOn with
  | nil => rfl
  | append_singleton text c ih =>
    rw [adds_snoc, ih]
    unfold sprintf_buffer_add
    rw [List.length_append, List.length_singleton, BitVec.ofNat_add]
    rfl

theorem adds_written (text : List U8) :
    ∃ new, (sprintf_buffer_adds ⟨str, 0, size⟩ sink text).2.written = sink.written ++ new ∧
      ∀ a ∈ new, Mem.InWindow str size.toNat a := by
  induction text using List.reverseRecOn with
  | nil => exact ⟨[], (List.append_nil _).symm, by simp⟩
  | append_singleton text c ih =>
    obtain ⟨new, hnew, hin⟩ := ih
    rw [adds_snoc, adds_ctx]
    unfold sprintf_buffer_add
    dsimp only
    split
    · rename_i hlt
      refine ⟨new ++ [str + BitVec.ofNat 32 text.length], by rw [Sink.put_written, hnew, List.append_assoc], ?_⟩
      intro a ha
      rcases List.mem_append.mp ha with ha | ha
      · exact hin a ha
      · rw [List.mem_singleton.mp ha]
        exact inWindow_offset str hlt
    · exact ⟨new, hnew, hin⟩

/-- Before the count wraps, the buffer holds the text as far as there is room. -/
theorem adds_view {text : List U8} (h : text.length < 2 ^ 32) {j : Nat} (hj : j < 2 ^ 32) :
    (sprintf_buffer_adds ⟨str, 0, size⟩ sink text).2.mem.view str j =
      if j < text.length ∧ j < size.toNat then text.getD j 0 else sink.mem.view str j := by
  induction text using List.reverseRecOn with
  | nil => simp [sprintf_buffer_adds]
  | append_singleton text c ih =>
    rw [List.length_append, List.length_singleton] at h
    have hlength : (BitVec.ofNat 32 text.length).toNat = text.length := by
      rw [BitVec.toNat_ofNat, Nat.mod_eq_of_lt (by omega)]
    have hroom : (BitVec.ofNat 32 text.length < size) ↔ text.length < size.toNat := by
      rw [BitVec.lt_def, hlength]
    rw [adds_snoc, adds_ctx, List.length_append, List.length_singleton]
    unfold sprintf_buffer_add
    dsimp only
    by_cases hlt : text.length < size.toNat
    · rw [if_pos (hroom.mpr hlt), Sink.put_view _ _ _ (by omega) hj]
      rcases Nat.lt_trichotomy j text.length with hjl | hjl | hjl
      · rw [if_neg (by omega), ih (by omega), if_pos ⟨hjl, by omega⟩, if_pos ⟨by omega, by omega⟩,
          List.getD_append _ _ _ _ hjl]
      · rw [if_pos hjl, if_pos ⟨by omega, by omega⟩, List.getD_append_right _ _ _ _ (by omega), hjl]
        simp
      · rw [if_neg (by omega), ih (by omega), if_neg (by omega), if_neg (by omega)]
    · rw [if_neg (fun hin => hlt (hroom.mp hin)), ih (by omega)]
      by_cases hjs : j < size.toNat
      · rw [if_pos ⟨by omega, hjs⟩, if_pos ⟨by omega, hjs⟩, List.getD_append _ _ _ _ (by omega)]
      · rw [if_neg (by omega), if_neg (by omega)]

/-! ## Flushing -/

/-- Where the terminator is stored. -/
def terminatorAt (str size offset : U32) : U32 := if offset < size then str + offset else str + (size - 1)

theorem vsnprintf_eq (text : List U8) :
    vsnprintf str size text sink = (BitVec.ofNat 32 text.length,
      (sprintf_buffer_adds ⟨str, 0, size⟩ sink text).2.put (terminatorAt str size (BitVec.ofNat 32 text.length)) 0) := by
  unfold vsnprintf sprintf_cb sprintf_buffer_flush terminatorAt
  dsimp only
  rw [adds_ctx]
  split <;> rfl

theorem vsnprintf_returns (text : List U8) : (vsnprintf str size text sink).1 = BitVec.ofNat 32 text.length := by
  rw [vsnprintf_eq]

/-- Of an empty buffer too, nothing but its end is written outside it. -/
theorem vsnprintf_written (text : List U8) :
    ∃ new, (vsnprintf str size text sink).2.written =
        sink.written ++ new ++ [terminatorAt str size (BitVec.ofNat 32 text.length)] ∧
      ∀ a ∈ new, Mem.InWindow str size.toNat a := by
  obtain ⟨new, hnew, hin⟩ := adds_written str size sink text
  refine ⟨new, ?_, hin⟩
  rw [vsnprintf_eq, Sink.put_written, hnew]

theorem last_toNat {size : U32} (h : 0 < size) : (size - 1).toNat = size.toNat - 1 := by
  have hpos : 0 < size.toNat := h
  have hone : (1 : U32).toNat = 1 := rfl
  have := size.isLt
  rw [BitVec.toNat_sub, hone]
  omega

theorem inWindow_terminator {str size : U32} (h : 0 < size) (offset : U32) :
    Mem.InWindow str size.toNat (terminatorAt str size offset) := by
  unfold terminatorAt
  split
  · rename_i hlt
    exact inWindow_offset str hlt
  · refine inWindow_offset str ?_
    have hpos : 0 < size.toNat := h
    rw [BitVec.lt_def, last_toNat h]
    omega

/-- The terminator of a text that can be counted. -/
theorem terminatorAt_eq {str size : U32} (h : 0 < size) {n : Nat} (hn : n < 2 ^ 32) :
    terminatorAt str size (BitVec.ofNat 32 n) = str + BitVec.ofNat 32 (min n (size.toNat - 1)) := by
  have hpos : 0 < size.toNat := h
  unfold terminatorAt
  split
  · rename_i hlt
    rw [BitVec.lt_def, BitVec.toNat_ofNat, Nat.mod_eq_of_lt hn] at hlt
    rw [Nat.min_eq_left (by omega)]
  · rename_i hge
    rw [BitVec.lt_def, BitVec.toNat_ofNat, Nat.mod_eq_of_lt hn] at hge
    rw [Nat.min_eq_right (by omega)]
    congr 1
    apply BitVec.eq_of_toNat_eq
    have := size.isLt
    rw [last_toNat h, BitVec.toNat_ofNat, Nat.mod_eq_of_lt (by omega)]

end Adds

/-! ## The bounded call -/

/-- Nothing outside the buffer is written, the length of the text is returned, and the
    buffer holds the start of the text and a terminator. -/
structure Bounded (str size : U32) (text : List U8) (r : U32 × Sink) : Prop where
  inside : ∀ a ∈ r.2.written, Mem.InWindow str size.toNat a
  returns : r.1.toInt = text.length
  holds : 0 < size → (r.2.mem.view str).bytes 0 (min text.length (size.toNat - 1)) = text.take (size.toNat - 1) ∧
    r.2.mem.view str (min text.length (size.toNat - 1)) = 0

theorem vsnprintf_holds (str : U32) {size : U32} (h : 0 < size) {text : List U8} (hlen : text.length < 2 ^ 32) (sink : Sink) :
    ((vsnprintf str size text sink).2.mem.view str).bytes 0 (min text.length (size.toNat - 1)) = text.take (size.toNat - 1) ∧
      (vsnprintf str size text sink).2.mem.view str (min text.length (size.toNat - 1)) = 0 := by
  have hpos : 0 < size.toNat := h
  have hsize := size.isLt
  have hview : ∀ j < 2 ^ 32, (vsnprintf str size text sink).2.mem.view str j =
      if j = min text.length (size.toNat - 1) then 0
      else if j < text.length ∧ j < size.toNat then text.getD j 0 else sink.mem.view str j := by
    intro j hj
    rw [vsnprintf_eq, terminatorAt_eq h hlen, Sink.put_view _ _ _ (by omega) hj, adds_view str size sink hlen hj]
  refine ⟨?_, ?_⟩
  · apply List.ext_getElem
    · simp [Nat.min_comm]
    · intro j h₁ h₂
      rw [Buf.bytes_length] at h₁
      simp only [Buf.bytes, List.getElem_map, List.getElem_range, Nat.zero_add, List.getElem_take]
      rw [hview j (by omega), if_neg (by omega), if_pos ⟨by omega, by omega⟩]
      exact List.getD_eq_getElem _ _ (by omega)
  · rw [hview _ (by omega), if_pos rfl]

theorem toInt_ofNat_iff (n : Nat) : (BitVec.ofNat 32 n).toInt = n ↔ n < 2 ^ 31 := by
  refine ⟨fun h => ?_, fun h => ?_⟩
  · have := BitVec.toInt_lt (x := BitVec.ofNat 32 n)
    rw [h] at this
    simp at this
    omega
  · rw [BitVec.toInt_eq_toNat_of_lt, BitVec.toNat_ofNat, Nat.mod_eq_of_lt (by omega)]
    rw [BitVec.toNat_ofNat, Nat.mod_eq_of_lt (by omega)]
    omega

theorem bounded_iff (str size : U32) (text : List U8) (mem : Mem) :
    Bounded str size text (vsnprintf str size text ⟨mem, []⟩) ↔ 0 < size ∧ text.length < 2 ^ 31 := by
  obtain ⟨new, hwritten, hin⟩ := vsnprintf_written str size ⟨mem, []⟩ text
  refine ⟨fun h => ⟨?_, ?_⟩, fun h => ⟨?_, ?_, fun _ => ?_⟩⟩
  · have hlast := h.inside (terminatorAt str size (BitVec.ofNat 32 text.length)) (by rw [hwritten]; simp)
    exact Nat.lt_of_le_of_lt (Nat.zero_le _) hlast
  · have hcount := h.returns
    rw [vsnprintf_returns] at hcount
    exact (toInt_ofNat_iff _).mp hcount
  · intro a ha
    rw [hwritten, List.nil_append] at ha
    rcases List.mem_append.mp ha with ha | ha
    · exact hin a ha
    · rw [List.mem_singleton.mp ha]
      exact inWindow_terminator h.1 _
  · rw [vsnprintf_returns]
    exact (toInt_ofNat_iff _).mpr h.2
  · exact vsnprintf_holds str h.1 (by omega) ⟨mem, []⟩

/-- Both calls do what they should exactly when the buffer is not empty and the length of
    the text is an `int`. -/
theorem vsnprintf_bounded_iff (str size : U32) (text : List U8) (mem : Mem) :
    (Bounded str size text (vsnprintf str size text ⟨mem, []⟩) ↔ 0 < size ∧ text.length < 2 ^ 31) ∧
      (Bounded str size text (snprintf str size text ⟨mem, []⟩) ↔ 0 < size ∧ text.length < 2 ^ 31) :=
  ⟨bounded_iff str size text mem, bounded_iff str size text mem⟩

/-- The terminator of an empty buffer. -/
theorem empty_buffer_overrun :
    ¬ Bounded 0x100 0 [] (vsnprintf 0x100 0 [] ⟨fun _ => 0, []⟩) ∧
      ¬ Bounded 0x100 0 [] (snprintf 0x100 0 [] ⟨fun _ => 0, []⟩) := by
  have hbefore : 0xFF ∈ (vsnprintf 0x100 0 [] ⟨fun _ => 0, []⟩).2.written := by decide
  have houtside : ¬ Mem.InWindow 0x100 (0 : U32).toNat 0xFF := by decide
  exact ⟨fun h => houtside (h.inside _ hbefore), fun h => houtside (h.inside _ hbefore)⟩

end Iosu.Libc
