/-
  Iosu.Libc.Printf — `vprintf` and `printf` (`libraries/libc/lib/sprintf.c`).

  The context of the console collects characters in a buffer of 16 bytes. With 15 in it,
  and when it is flushed, it terminates the buffer, hands it to `printf_callback` (or to
  `__sys_write0`, where that is not set) and starts over. What was handed over and what is
  in the buffer is the text so far (`realview_sinks`).

  `written` counts the text, `offset` what is in the buffer. `vprintf` returns the second,
  behind the flush (`counts_agree_iff`).

  An index outside the buffer is `none`.
-/

import Iosu.Libc.Sprintf
import Iosu.Libc.Strings

namespace Iosu.Libc

open Iosu.Lib

structure SprintfCtxRealview where
  buffer : Vector U8 16
  offset : U32
  written : U32

/-- What a flush hands over, and whether `printf_callback` gets it. -/
structure Handed where
  toCallback : Bool
  msg : Vector U8 16

/-- The string that `msg` begins with, if it ends in the buffer. -/
def Handed.string (h : Handed) : Option CStr :=
  if 0 ∈ h.msg.toList then some (h.msg.toList.takeWhile fun c => c ≠ 0) else none

/-- `ctx->buffer[ctx->offset] = c` -/
def SprintfCtxRealview.place (ctx : SprintfCtxRealview) (c : U8) : Option SprintfCtxRealview :=
  if ctx.offset < 16 then some { ctx with buffer := ctx.buffer.setIfInBounds ctx.offset.toNat c } else none

section Functions

variable (printf_callback : Bool)

def sprintf_realview_flush (ctx : SprintfCtxRealview) (handed : List Handed) :
    Option (SprintfCtxRealview × List Handed) := do
  if ctx.offset = 0 then return (ctx, handed)
  let ctx ← ctx.place 0
  let ctx := { ctx with offset := 0 }
  return (ctx, handed ++ [⟨printf_callback, ctx.buffer⟩])

def sprintf_realview_add (ctx : SprintfCtxRealview) (handed : List Handed) (c : U8) :
    Option (SprintfCtxRealview × List Handed) := do
  let ctx ← ctx.place c
  let ctx := { ctx with written := ctx.written + 1 }
  let ctx := { ctx with offset := ctx.offset + 1 }
  if ctx.offset = 15 then sprintf_realview_flush printf_callback ctx handed else return (ctx, handed)

/-- The characters of a text, one after the other. -/
def sprintf_realview_adds (ctx : SprintfCtxRealview) (handed : List Handed) (text : CStr) :
    Option (SprintfCtxRealview × List Handed) :=
  text.foldlM (fun p c => sprintf_realview_add printf_callback p.1 p.2 c) (ctx, handed)

/-- `_sprintf_cb`, of a format that comes to `text`. -/
def sprintf_realview_cb (ctx : SprintfCtxRealview) (text : CStr) : Option (SprintfCtxRealview × List Handed) := do
  let (ctx, handed) ← sprintf_realview_adds printf_callback ctx [] text
  sprintf_realview_flush printf_callback ctx handed

def vprintf (text : CStr) : Option (U32 × List Handed) := do
  let (ctx, handed) ← sprintf_realview_cb printf_callback ⟨Vector.replicate 16 0, 0, 0⟩ text
  return (ctx.offset, handed)

def printf (text : CStr) : Option (U32 × List Handed) := do
  let (ret, handed) ← vprintf printf_callback text
  return (ret, handed)

end Functions

/-! ## The buffer -/

theorem take_set {l : List U8} {i : Nat} (h : i < l.length) (c : U8) : (l.set i c).take (i + 1) = l.take i ++ [c] := by
  have hlen : i < (l.set i c).length := by rwa [List.length_set]
  rw [← List.take_append_getElem hlen, List.getElem_set_self, List.take_set_of_le (Nat.le_refl i)]

/-- What a flush hands over is the string in front of its terminator. -/
theorem handed_string (toCallback : Bool) (buffer : Vector U8 16) {i : Nat} (hi : i < 16)
    (h : ∀ c ∈ buffer.toList.take i, c ≠ 0) :
    Handed.string ⟨toCallback, buffer.setIfInBounds i 0⟩ = some (buffer.toList.take i) := by
  have hlist : (buffer.setIfInBounds i 0).toList = buffer.toList.take i ++ 0 :: buffer.toList.drop (i + 1) := by
    rw [Vector.toList_setIfInBounds, List.set_eq_take_append_cons_drop, if_pos (by simpa using hi)]
  unfold Handed.string
  dsimp only
  rw [hlist, if_pos (by simp), List.takeWhile_append_of_pos (fun c hc => decide_eq_true (h c hc))]
  simp

/-- What is in the buffer. -/
def SprintfCtxRealview.text (ctx : SprintfCtxRealview) : CStr := ctx.buffer.toList.take ctx.offset.toNat

theorem place_ok {ctx : SprintfCtxRealview} (h : ctx.offset.toNat < 16) (c : U8) :
    ctx.place c = some { ctx with buffer := ctx.buffer.setIfInBounds ctx.offset.toNat c } := if_pos h

/-! ## The text so far -/

/-- The strings handed over, of 1 to 15 characters each, and `rest` behind them are `s`. -/
def Sunk (handed : List Handed) (rest s : CStr) : Prop :=
  ∃ chunks : List CStr, handed.map Handed.string = chunks.map some ∧ chunks.flatten ++ rest = s ∧
    ∀ chunk ∈ chunks, 1 ≤ chunk.length ∧ chunk.length ≤ 15

/-- A stream is under way: `s` was added so far. -/
structure Collects (ctx : SprintfCtxRealview) (handed : List Handed) (s : CStr) : Prop where
  room : ctx.offset.toNat < 15
  counts : ctx.written = BitVec.ofNat 32 s.length
  sunk : (∀ c ∈ s, c ≠ 0) → Sunk handed ctx.text s

section Stream

variable (printf_callback : Bool)

/-- A flush empties the buffer, and what was in it is the last string handed over. -/
theorem flush_runs (ctx : SprintfCtxRealview) (h : ctx.offset.toNat ≤ 15) (handed : List Handed) :
    ∃ ctx' handed', sprintf_realview_flush printf_callback ctx handed = some (ctx', handed') ∧ ctx'.offset = 0 ∧
      ctx'.written = ctx.written ∧ ∀ s, (∀ c ∈ s, c ≠ 0) → Sunk handed ctx.text s → Sunk handed' [] s := by
  unfold sprintf_realview_flush
  by_cases h0 : ctx.offset = 0
  · refine ⟨ctx, handed, by rw [if_pos h0]; rfl, h0, rfl, fun s _ hsunk => ?_⟩
    unfold SprintfCtxRealview.text at hsunk
    rw [h0] at hsunk
    exact hsunk
  · rw [if_neg h0, place_ok (by omega)]
    refine ⟨_, _, rfl, rfl, rfl, fun s hs hsunk => ?_⟩
    obtain ⟨chunks, hstrings, hflatten, hlengths⟩ := hsunk
    have hmem : ∀ c ∈ ctx.text, c ≠ 0 := fun c hc => hs c (by rw [← hflatten]; exact List.mem_append_right _ hc)
    have hpos : 0 < ctx.offset.toNat := Nat.pos_of_ne_zero fun hz => h0 (BitVec.eq_of_toNat_eq hz)
    have hlength : ctx.text.length = ctx.offset.toNat := by
      unfold SprintfCtxRealview.text
      rw [List.length_take, Vector.length_toList]
      omega
    refine ⟨chunks ++ [ctx.text], ?_, ?_, fun chunk hchunk => ?_⟩
    · rw [List.map_append, List.map_append, hstrings, List.map_singleton, List.map_singleton]
      exact congrArg (fun string => chunks.map some ++ [string]) (handed_string _ _ (by omega) hmem)
    · rw [List.flatten_append, List.flatten_singleton, List.append_nil, hflatten]
    · rcases List.mem_append.mp hchunk with hchunk | hchunk
      · exact hlengths chunk hchunk
      · rw [List.mem_singleton.mp hchunk, hlength]
        omega

theorem add_collects {ctx : SprintfCtxRealview} {handed : List Handed} {s : CStr} (h : Collects ctx handed s) (c : U8) :
    ∃ ctx' handed', sprintf_realview_add printf_callback ctx handed c = some (ctx', handed') ∧
      Collects ctx' handed' (s ++ [c]) := by
  have hroom := h.room
  have hoffset : (ctx.offset + 1).toNat = ctx.offset.toNat + 1 := by
    rw [BitVec.toNat_add]
    exact Nat.mod_eq_of_lt (by simp; omega)
  have hcounts : ctx.written + 1 = BitVec.ofNat 32 (s ++ [c]).length := by
    rw [h.counts, List.length_append, List.length_singleton, BitVec.ofNat_add]
    rfl
  -- The buffer with the character in it, before it may be flushed.
  have hsunk : (∀ d ∈ s ++ [c], d ≠ 0) →
      Sunk handed ((ctx.buffer.setIfInBounds ctx.offset.toNat c).toList.take (ctx.offset + 1).toNat) (s ++ [c]) := by
    intro hs
    obtain ⟨chunks, hstrings, hflatten, hlengths⟩ := h.sunk fun d hd => hs d (List.mem_append_left _ hd)
    refine ⟨chunks, hstrings, ?_, hlengths⟩
    rw [hoffset, Vector.toList_setIfInBounds, take_set (by simp; omega), ← List.append_assoc]
    exact congrArg (fun done => done ++ [c]) hflatten
  unfold sprintf_realview_add
  rw [place_ok (by omega)]
  by_cases hfull : ctx.offset + 1 = 15
  · have hle : (ctx.offset + 1).toNat ≤ 15 := by omega
    obtain ⟨ctx', handed', hflush, hempty, hwritten, hrest⟩ := flush_runs printf_callback
      ⟨ctx.buffer.setIfInBounds ctx.offset.toNat c, ctx.offset + 1, ctx.written + 1⟩ hle handed
    refine ⟨ctx', handed', ?_, ?_, ?_, fun hs => ?_⟩
    · exact (if_pos hfull).trans hflush
    · rw [hempty]
      decide
    · rw [hwritten, hcounts]
    · unfold SprintfCtxRealview.text
      rw [hempty]
      exact hrest _ hs (hsunk hs)
  · refine ⟨_, _, if_neg hfull, ?_, hcounts, hsunk⟩
    show (ctx.offset + 1).toNat < 15
    have hne : (ctx.offset + 1).toNat ≠ 15 := fun heq => hfull (BitVec.eq_of_toNat_eq heq)
    omega

theorem adds_collects (buffer : Vector U8 16) (s : CStr) :
    ∃ ctx handed, sprintf_realview_adds printf_callback ⟨buffer, 0, 0⟩ [] s = some (ctx, handed) ∧
      Collects ctx handed s := by
  induction s using List.reverseRecOn with
  | nil => exact ⟨_, _, rfl, Nat.zero_lt_succ _, rfl, fun _ => ⟨[], rfl, rfl, by simp⟩⟩
  | append_singleton s c ih =>
    obtain ⟨ctx, handed, hadds, hcollects⟩ := ih
    obtain ⟨ctx', handed', hadd, hcollects'⟩ := add_collects printf_callback hcollects c
    refine ⟨ctx', handed', ?_, hcollects'⟩
    unfold sprintf_realview_adds at hadds ⊢
    simp only [List.foldlM_append, hadds, Option.bind_eq_bind, Option.bind_some, List.foldlM_cons, List.foldlM_nil, hadd]
    rfl

/-- Behind the flush, the buffer is empty and all of the text was handed over. -/
theorem cb_runs (buffer : Vector U8 16) (s : CStr) :
    ∃ ctx handed, sprintf_realview_cb printf_callback ⟨buffer, 0, 0⟩ s = some (ctx, handed) ∧ ctx.offset = 0 ∧
      ctx.written = BitVec.ofNat 32 s.length ∧ ((∀ c ∈ s, c ≠ 0) → Sunk handed [] s) := by
  obtain ⟨ctx, handed, hadds, hcollects⟩ := adds_collects printf_callback buffer s
  obtain ⟨ctx', handed', hflush, hempty, hwritten, hrest⟩ :=
    flush_runs printf_callback ctx (Nat.le_of_lt hcollects.room) handed
  refine ⟨ctx', handed', ?_, hempty, hwritten.trans hcollects.counts, fun hs => hrest s hs (hcollects.sunk hs)⟩
  unfold sprintf_realview_cb
  rw [hadds]
  exact hflush

/-- Whatever the text, no index is outside the buffer, and the text is what was handed
    over, in strings of 1 to 15 characters; it is counted modulo 2^32. -/
theorem realview_sinks (buffer : Vector U8 16) {s : CStr} (hs : ∀ c ∈ s, c ≠ 0) :
    ∃ (ctx : SprintfCtxRealview) (handed : List Handed) (chunks : List CStr),
      sprintf_realview_cb printf_callback ⟨buffer, 0, 0⟩ s = some (ctx, handed) ∧
      handed.map Handed.string = chunks.map some ∧ chunks.flatten = s ∧
      (∀ chunk ∈ chunks, 1 ≤ chunk.length ∧ chunk.length ≤ 15) ∧ ctx.written.toNat = s.length % 2 ^ 32 := by
  obtain ⟨ctx, handed, hrun, -, hwritten, hsunk⟩ := cb_runs printf_callback buffer s
  obtain ⟨chunks, hstrings, hflatten, hlengths⟩ := hsunk hs
  refine ⟨ctx, handed, chunks, hrun, hstrings, ?_, hlengths, ?_⟩
  · rw [← hflatten, List.append_nil]
  · rw [hwritten, BitVec.toNat_ofNat]

end Stream

/-- Twenty characters, in two strings. -/
theorem twenty_sink : ∃ (ctx : SprintfCtxRealview) (handed : List Handed) (chunks : List CStr),
    sprintf_realview_cb true ⟨Vector.replicate 16 0, 0, 0⟩ (List.replicate 20 0x41) = some (ctx, handed) ∧
    handed.map Handed.string = chunks.map some ∧ chunks.flatten = List.replicate 20 0x41 ∧
    ctx.written.toNat = 20 := by
  obtain ⟨ctx, handed, chunks, hrun, hstrings, hflatten, -, hcount⟩ :=
    realview_sinks true (Vector.replicate 16 0) (s := List.replicate 20 0x41) (by decide)
  exact ⟨ctx, handed, chunks, hrun, hstrings, hflatten, by rw [hcount]; rfl⟩

/-- So many characters that the count is back at zero. -/
theorem written_wraps : ¬ ∃ ctx handed,
    sprintf_realview_cb true ⟨Vector.replicate 16 0, 0, 0⟩ (List.replicate (2 ^ 32) 0x41) = some (ctx, handed) ∧
    ctx.written.toNat = (List.replicate (2 ^ 32) (0x41 : U8)).length := by
  intro h
  obtain ⟨ctx, handed, hrun, hcount⟩ := h
  obtain ⟨ctx', handed', hrun', -, hwritten, -⟩ := cb_runs true (Vector.replicate 16 0) (List.replicate (2 ^ 32) 0x41)
  rw [hrun] at hrun'
  cases hrun'
  rw [hwritten, List.length_replicate, BitVec.toNat_ofNat] at hcount
  omega

/-! ## The counts -/

/-- Both families return the length of the text. -/
def CountsAgree (printf_callback : Bool) (str size : U32) (text : CStr) (sink : Sink) : Prop :=
  ∃ ret handed, vprintf printf_callback text = some (ret, handed) ∧ printf printf_callback text = some (ret, handed) ∧
    ret = (vsnprintf str size text sink).1 ∧ ret = (snprintf str size text sink).1 ∧ ret.toInt = text.length

theorem vprintf_returns (printf_callback : Bool) (text : CStr) :
    ∃ handed, vprintf printf_callback text = some (0, handed) ∧ printf printf_callback text = some (0, handed) := by
  obtain ⟨ctx, handed, hrun, hempty, -, -⟩ := cb_runs printf_callback (Vector.replicate 16 0) text
  have hvprintf : vprintf printf_callback text = some (0, handed) := by
    unfold vprintf
    rw [hrun]
    exact congrArg (fun ret => some (ret, handed)) hempty
  refine ⟨handed, hvprintf, ?_⟩
  unfold printf
  rw [hvprintf]
  rfl

/-- They do for the empty text only: the console's returns zero for every text. -/
theorem counts_agree_iff (printf_callback : Bool) (str size : U32) (text : CStr) (sink : Sink) :
    CountsAgree printf_callback str size text sink ↔ text = [] := by
  obtain ⟨handed, hvprintf, hprintf⟩ := vprintf_returns printf_callback text
  refine ⟨fun h => ?_, fun h => ?_⟩
  · obtain ⟨ret, handed', hret, -, -, -, hlength⟩ := h
    rw [hvprintf] at hret
    cases hret
    exact List.length_eq_zero_iff.mp (Int.ofNat_eq_zero.mp hlength.symm)
  · subst h
    refine ⟨0, handed, hvprintf, hprintf, ?_, ?_, rfl⟩
    · exact (vsnprintf_returns str size sink []).symm
    · exact (vsnprintf_returns str size sink []).symm

theorem one_character_miscounted : ¬ CountsAgree true 0x100 16 [0x41] ⟨fun _ => 0, []⟩ := by
  intro h
  obtain ⟨ret, handed, hret, -, -, -, hlength⟩ := h
  obtain ⟨handed', hvprintf, -⟩ := vprintf_returns true [0x41]
  rw [hvprintf] at hret
  cases hret
  cases hlength

end Iosu.Libc
