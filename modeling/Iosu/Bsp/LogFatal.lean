/-
  Iosu.Bsp.LogFatal — the message that `log_fatal` puts together (`log.c`).

  Three formatting calls fill `msg[256]`, each behind the text of those before it. A call
  returns the length of its whole text, stored or not, so the offset runs past the buffer
  once a text did not fit, and what is left of the 256 bytes wraps around
  (`log_fatal_within_iff`).
-/

import Iosu.Bsp.LogHandles
import Iosu.Libc.Sprintf

namespace Iosu.Bsp

open Iosu.Lib Iosu.Libc

inductive FmtArg where
  | str (s : CStr)
  | int (n : U32)
  deriving DecidableEq, Repr

/-- The text that a format with its arguments comes to. -/
abbrev Engine := CStr → List FmtArg → List U8

/-- The arguments of `log_fatal`, with the variadic ones. -/
structure Fatal where
  handle : U32
  file : CStr
  function : CStr
  line : U32
  message : CStr
  ap : List FmtArg
  deriving DecidableEq, Repr

/-- What `IOS_GetCurrentThreadId` and `IOS_GetCurrentProcessId` answer. -/
structure Caller where
  tid : U32
  pid : U32
  deriving DecidableEq, Repr

/-! ## The three calls -/

/-- `"%s "`; without a slot for the handle there is no such call. -/
def nameText (engine : Engine) : Option LogFd → List U8
  | none => []
  | some fd => engine (cstr "%s ") [.str fd.name]

def assertText (engine : Engine) (caller : Caller) (f : Fatal) : List U8 :=
  engine (cstr "ASSERT: file=%s, function=%s(), line=%d, processID=%d, threadID=%d, ")
    [.str f.file, .str f.function, .int f.line, .int caller.pid, .int caller.tid]

/-- Up to the output of the message: the sizes that the calls are given, and what they
    store. `msg` is the address of the buffer. -/
def log_fatal (engine : Engine) (caller : Caller) (outside : U32 → LogFd) (log_fds : Vector LogFd 0x20) (msg : U32)
    (f : Fatal) (mem : Mem) : List U32 × Sink :=
  let sink : Sink := ⟨mem.store msg (List.replicate 256 0), []⟩
  let (named, msgOffset, sink) : List U32 × U32 × Sink :=
    match log_get_fd outside log_fds f.handle with
    | some fd =>
      let (ret, sink) := snprintf msg 256 (nameText engine (some fd)) sink
      ([256], 0 + ret, sink)
    | none => ([], 0, sink)
  let (ret, sink) := snprintf (msg + msgOffset) (256 - msgOffset) (assertText engine caller f) sink
  let asserted := 256 - msgOffset
  let msgOffset := msgOffset + ret
  let (_, sink) := vsnprintf (msg + msgOffset) (256 - msgOffset) (engine f.message f.ap) sink
  (named ++ [asserted, 256 - msgOffset], sink)

/-- No size wraps, and nothing outside the buffer is written. -/
structure WithinMsg (msg : U32) (r : List U32 × Sink) : Prop where
  sizes : ∀ size ∈ r.1, size.toNat ≤ 256
  writes : ∀ a ∈ r.2.written, Mem.InWindow msg 256 a

/-! ## What is left of the buffer -/

theorem left_toNat {offset : U32} (h : offset.toNat ≤ 256) : (256 - offset).toNat = 256 - offset.toNat := by
  have hsize : (256 : U32).toNat = 256 := rfl
  rw [BitVec.toNat_sub, hsize]
  omega

/-- It wraps as soon as the offset is past the end. -/
theorem left_le_iff (offset : U32) : (256 - offset).toNat ≤ 256 ↔ offset.toNat ≤ 256 := by
  refine ⟨fun h => ?_, fun h => by rw [left_toNat h]; omega⟩
  have hsize : (256 : U32).toNat = 256 := rfl
  have hlt := offset.isLt
  rw [BitVec.toNat_sub, hsize] at h
  omega

/-- The end of the buffer, seen from its start. -/
theorem inWindow_left {msg offset a : U32} (h : offset.toNat ≤ 256) (ha : Mem.InWindow (msg + offset) (256 - offset).toNat a) :
    Mem.InWindow msg 256 a := by
  unfold Mem.InWindow at ha ⊢
  rw [left_toNat h] at ha
  have hsplit : a - msg = (a - (msg + offset)) + offset := by
    rw [← BitVec.sub_sub, BitVec.sub_add_cancel]
  rw [hsplit, BitVec.toNat_add]
  have := Nat.mod_le ((a - (msg + offset)).toNat + offset.toNat) (2 ^ 32)
  omega

/-- Of nothing that is left, the byte in front is still one of the buffer. -/
theorem inWindow_terminator_left {msg offset : U32} (h : offset.toNat ≤ 256) (count : U32) :
    Mem.InWindow msg 256 (terminatorAt (msg + offset) (256 - offset) count) := by
  by_cases hfull : offset.toNat = 256
  · obtain rfl : offset = 256 := BitVec.eq_of_toNat_eq hfull
    unfold terminatorAt Mem.InWindow
    have hzero : (256 : U32) - 256 = 0 := rfl
    have hnone : ¬ count < 0 := BitVec.not_lt_zero
    rw [hzero, if_neg hnone]
    have hlast : msg + 256 + (0 - 1) - msg = 255 := by
      rw [BitVec.add_assoc, BitVec.add_comm, BitVec.add_sub_cancel]
      rfl
    rw [hlast]
    decide
  · have hroom : (0 : U32) < 256 - offset := by
      rw [BitVec.lt_def, left_toNat h]
      have hzero : (0 : U32).toNat = 0 := rfl
      omega
    exact inWindow_left h (inWindow_terminator hroom count)

/-- A call from an offset up to the end of the buffer on. -/
theorem vsnprintf_inside {msg offset : U32} (h : offset.toNat ≤ 256) (text : List U8) {sink : Sink}
    (hsink : ∀ a ∈ sink.written, Mem.InWindow msg 256 a) :
    ∀ a ∈ (vsnprintf (msg + offset) (256 - offset) text sink).2.written, Mem.InWindow msg 256 a := by
  intro a ha
  obtain ⟨new, hwritten, hin⟩ := vsnprintf_written (msg + offset) (256 - offset) sink text
  rw [hwritten] at ha
  rcases List.mem_append.mp ha with ha | ha
  · rcases List.mem_append.mp ha with ha | ha
    · exact hsink a ha
    · exact inWindow_left h (hin a ha)
  · rw [List.mem_singleton.mp ha]
    exact inWindow_terminator_left h _

/-! ## The whole message -/

section Message

variable (engine : Engine) (caller : Caller) (outside : U32 → LogFd) (log_fds : Vector LogFd 0x20) (msg : U32) (f : Fatal)
  (mem : Mem)

/-- Without a slot the first call can be thought of as storing nothing. -/
theorem log_fatal_eq :
    ∃ named sink, log_fatal engine caller outside log_fds msg f mem =
        (let offset := BitVec.ofNat 32 (nameText engine (log_get_fd outside log_fds f.handle)).length
         let offset' := offset + BitVec.ofNat 32 (assertText engine caller f).length
         (named ++ [256 - offset, 256 - offset'],
          (vsnprintf (msg + offset') (256 - offset') (engine f.message f.ap)
            (vsnprintf (msg + offset) (256 - offset) (assertText engine caller f) sink).2).2)) ∧
      (∀ size ∈ named, size = 256) ∧ ∀ a ∈ sink.written, Mem.InWindow msg 256 a := by
  unfold log_fatal snprintf
  have hzero : ∀ n : U32, 0 + n = n := fun n => BitVec.zero_add n
  cases log_get_fd outside log_fds f.handle with
  | none =>
    refine ⟨[], ⟨mem.store msg (List.replicate 256 0), []⟩, ?_, by simp, by simp⟩
    dsimp only
    rw [vsnprintf_returns]
    rfl
  | some fd =>
    refine ⟨[256], (vsnprintf msg 256 (nameText engine (some fd)) ⟨mem.store msg (List.replicate 256 0), []⟩).2, ?_,
      by simp, ?_⟩
    · dsimp only
      rw [vsnprintf_returns, vsnprintf_returns, hzero]
    · have hstart : msg + 0 = msg := BitVec.add_zero msg
      have hall : (256 : U32) - 0 = 256 := rfl
      have hempty : ∀ a ∈ (⟨mem.store msg (List.replicate 256 0), []⟩ : Sink).written, Mem.InWindow msg 256 a := by simp
      have hfits : (0 : U32).toNat ≤ 256 := Nat.zero_le 256
      have hinside := vsnprintf_inside hfits (nameText engine (some fd)) hempty
      rwa [hstart, hall] at hinside

/-- The calls stay within the buffer exactly when neither the name, nor the name and the
    place of the assertion together, run past its end. -/
theorem log_fatal_within_iff :
    WithinMsg msg (log_fatal engine caller outside log_fds msg f mem) ↔
      (nameText engine (log_get_fd outside log_fds f.handle)).length % 2 ^ 32 ≤ 256 ∧
      ((nameText engine (log_get_fd outside log_fds f.handle)).length + (assertText engine caller f).length) % 2 ^ 32 ≤
        256 := by
  obtain ⟨named, sink, heq, hnamed, hsink⟩ := log_fatal_eq engine caller outside log_fds msg f mem
  have hoffset := BitVec.toNat_ofNat (nameText engine (log_get_fd outside log_fds f.handle)).length 32
  have hoffset' := BitVec.toNat_ofNat
    ((nameText engine (log_get_fd outside log_fds f.handle)).length + (assertText engine caller f).length) 32
  rw [BitVec.ofNat_add] at hoffset'
  rw [heq, ← hoffset, ← hoffset']
  dsimp only
  refine ⟨fun h => ⟨(left_le_iff _).mp (h.sizes _ (by simp)), (left_le_iff _).mp (h.sizes _ (by simp))⟩, fun h => ⟨?_, ?_⟩⟩
  · intro size hsize
    rcases List.mem_append.mp hsize with hsize | hsize
    · rw [hnamed size hsize]
      decide
    · rcases List.mem_pair.mp hsize with rfl | rfl
      · exact (left_le_iff _).mpr h.1
      · exact (left_le_iff _).mpr h.2
  · exact vsnprintf_inside h.2 _ (vsnprintf_inside h.1 _ hsink)

end Message

/-! ## A long file name -/

/-- A number in decimal, of at most `fuel` digits. -/
def decimal : Nat → Nat → List U8
  | 0, _ => []
  | fuel + 1, n => (if n < 10 then [] else decimal fuel (n / 10)) ++ [BitVec.ofNat 8 (0x30 + n % 10)]

/-- An engine that knows `%s` and `%d`. -/
def plainEngine : Engine
  | [], _ => []
  | c :: fmt, args =>
    if c = 0x25 then
      match fmt, args with
      | 0x73#8 :: fmt, .str s :: args => s ++ plainEngine fmt args
      | 0x64#8 :: fmt, .int n :: args =>
        (if n.toInt < 0 then [0x2D] else []) ++ decimal 10 n.toInt.natAbs ++ plainEngine fmt args
      | fmt, args => c :: plainEngine fmt args
    else c :: plainEngine fmt args

/-- No handle of the table, and a file name of 300 characters. -/
def longFile : Fatal := ⟨0x20, List.replicate 300 0x41, cstr "main", 0x97, cstr "exiting", []⟩

theorem longFile_length : (assertText plainEngine ⟨1, 0⟩ longFile).length = 367 := by
  unfold assertText longFile
  simp only [cstr, String.reduceToList, List.map_cons, List.map_nil, Char.reduceToNat]
  decide +kernel

/-- What is left for the message is -111, as a `size_t`. -/
theorem long_file_overrun : ¬ WithinMsg 0x1000
    (log_fatal plainEngine ⟨1, 0⟩ (fun _ => noLog) (Vector.replicate 0x20 noLog) 0x1000 longFile (fun _ => 0)) := by
  intro h
  obtain ⟨named, sink, heq, -, -⟩ := log_fatal_eq plainEngine ⟨1, 0⟩ (fun _ => noLog) (Vector.replicate 0x20 noLog) 0x1000
    longFile (fun _ => 0)
  have hnone : log_get_fd (fun _ => noLog) (Vector.replicate 0x20 noLog) longFile.handle = none := by decide
  rw [heq, hnone, longFile_length] at h
  have hleft := (left_le_iff _).mp (h.sizes _ (List.mem_append_right named (List.mem_cons_of_mem _ List.mem_cons_self)))
  exact absurd hleft (by decide)

end Iosu.Bsp
