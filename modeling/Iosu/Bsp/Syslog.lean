/-
  Iosu.Bsp.Syslog — `log_print_syslog` (`log.c`).

  A message is formatted into a block of the heap 0xcaff, behind a timestamp if there is to
  be one, and written to /dev/syslog. The block is freed behind the write: a message that
  comes to less than one character returns before, and its block stays allocated
  (`heapBalanced_iff`).

  The kernel's calls act on a world of their own. The formatting calls are parameters: those
  of `Iosu.Libc.Sprintf` are `Engine.formatter`.
-/

import Iosu.Bsp.LogFatal
import Iosu.Libc.Delay

namespace Iosu.Bsp

open Iosu.Lib Iosu.Libc Iosu.Entity Iosu.Ios

variable {ε : Type}

/-! ## What is called -/

structure SyslogExt (ε : Type) where
  /-- `IOS_Open("/dev/syslog", 0)` -/
  iosOpen : ε → U32 × ε
  /-- `IOS_HeapAlloc(0xcaff, 0x120)`: a block, or NULL. -/
  iosHeapAlloc : ε → U32 × ε
  iosHeapFree : U32 → ε → ε
  iosGetUpTime64 : ε → U64 × ε
  iosWrite : U32 → U32 → U32 → ε → IosError × ε

/-- A buffer and its size, a format and its arguments. -/
abbrev Formatting := U32 → U32 → CStr → List FmtArg → Sink → U32 × Sink

structure Formatter where
  snprintf : Formatting
  vsnprintf : Formatting

/-- `sprintf.c`, over what formats come to. -/
def Engine.formatter (engine : Engine) : Formatter where
  snprintf str size format args := Libc.snprintf str size (engine format args)
  vsnprintf str size format ap := Libc.vsnprintf str size (engine format ap)

inductive SyslogEvent where
  | alloc (str : U32)
  | free (str : U32)
  /-- A write, with the memory it reads from. -/
  | write (handle str len : U32) (mem : Mem)

structure Syslog (ε : Type) where
  log_syslog_handle : U32
  sink : Sink
  env : ε

abbrev SyslogM (ε : Type) := StateT (Syslog ε) (Run SyslogEvent Fault)

/-- A call of the kernel, with what it shows in the trace. -/
def callKernel {α : Type} (shows : α → List SyslogEvent) (f : ε → α × ε) : SyslogM ε α := fun s =>
  ⟨shows (f s.env).1, .ok ((f s.env).1, { s with env := (f s.env).2 })⟩

def callFormat (f : Formatting) (str size : U32) (fmt : CStr) (args : List FmtArg) : SyslogM ε U32 := fun s =>
  ⟨[], .ok ((f str size fmt args s.sink).1, { s with sink := (f str size fmt args s.sink).2 })⟩

/-! ## The timestamp -/

structure Stamp where
  hrs : U32
  min : U32
  sec : U32
  msec : U32
  deriving DecidableEq, Repr

/-- The four numbers of the timestamp. -/
def stamp (uptime : U64) : Stamp :=
  let msec := uptime / 1000
  let work := (msec &&& 0xFFFFFFFF) / 1000
  let sec : U32 := work.setWidth 32
  let work := work / 60
  let min : U32 := work.setWidth 32
  let work := work / 60
  let hrs : U32 := work.setWidth 32
  ⟨hrs - hrs / 24 * 24, min - hrs * 60, sec - min * 60, msec.setWidth 32 - sec * 1000⟩

def Stamp.args (s : Stamp) : List FmtArg := [.int s.hrs, .int s.min, .int s.sec, .int s.msec]

def stampFormat : CStr := cstr "%02d:%02d:%02d:%03d: "

/-! ## The message -/

section Functions

variable (x : SyslogExt ε) (f : Formatter)

def IOS_HeapAlloc : SyslogM ε U32 := callKernel (fun str => if str = 0 then [] else [.alloc str]) x.iosHeapAlloc

def IOS_HeapFree (str : U32) : SyslogM ε Unit := callKernel (fun _ => [.free str]) fun env => ((), x.iosHeapFree str env)

def IOS_Write (str len : U32) : SyslogM ε IosError := fun s =>
  callKernel (fun _ => [.write s.log_syslog_handle str len s.sink.mem]) (x.iosWrite s.log_syslog_handle str len) s

/-- The `if (include_ts)`, with the `strOffset` it leaves. -/
def printStamp (str : U32) (include_ts : Bool) : SyslogM ε U32 := do
  if include_ts then
    let uptime ← callKernel (fun _ => []) x.iosGetUpTime64
    let ret ← callFormat f.snprintf str 0x100 stampFormat (stamp uptime).args
    return if 0 ≤ ret.toInt then 0 + ret else 0
  else return 0

/-- What is behind the allocation of `str`. -/
def printInto (str : U32) (fmt : CStr) (ap : List FmtArg) (include_ts : Bool) : SyslogM ε IosError := do
  let strOffset ← printStamp x f str include_ts
  let ret ← callFormat f.vsnprintf (str + strOffset) (0x100 - strOffset) fmt ap
  if ret.toInt < 1 then return IOS_ERROR_INVALID
  let strOffset := strOffset + ret
  let err ← IOS_Write x str strOffset
  IOS_HeapFree x str
  return err

def log_print_syslog (fmt : CStr) (ap : List FmtArg) (include_ts : Bool) : SyslogM ε IosError := do
  if (← get).log_syslog_handle.toInt < 0 then
    let handle ← callKernel (fun _ => []) x.iosOpen
    modify fun s => { s with log_syslog_handle := handle }
  if (← get).log_syslog_handle.toInt < 0 then return IOS_ERROR_INVALID
  let str ← IOS_HeapAlloc x
  if str = 0 then return IOS_ERROR_INVALID
  printInto x f str fmt ap include_ts

/-- `_log_print_syslog_ts`, and `log_print_syslog_ts` behind its `va_start`. -/
def log_print_syslog_ts (fmt : CStr) (ap : List FmtArg) : SyslogM ε Unit := do
  let _ ← log_print_syslog x f fmt ap true

end Functions

/-! ## A call, up to its message -/

structure SyslogCall where
  fmt : CStr
  ap : List FmtArg
  include_ts : Bool

/-- Once the log is open, or did not open. -/
def Syslog.opened (x : SyslogExt ε) (s : Syslog ε) : Syslog ε :=
  if s.log_syslog_handle.toInt < 0 then
    { s with log_syslog_handle := (x.iosOpen s.env).1, env := (x.iosOpen s.env).2 }
  else s

/-- The block that a call gets, or NULL. -/
def blockFor (x : SyslogExt ε) (s : Syslog ε) : U32 :=
  if (s.opened x).log_syslog_handle.toInt < 0 then 0 else (x.iosHeapAlloc (s.opened x).env).1

/-- The two formatting calls: where the second one begins, what it returns, and what they
    leave in memory. -/
structure Message where
  strOffset : U32
  ret : U32
  sink : Sink

/-- They are called with this uptime. -/
def messageAt (f : Formatter) (uptime : U64) (str : U32) (c : SyslogCall) (sink : Sink) : Message :=
  let stamped : U32 × Sink :=
    if c.include_ts then
      let (ret, sink) := f.snprintf str 0x100 stampFormat (stamp uptime).args sink
      (if 0 ≤ ret.toInt then 0 + ret else 0, sink)
    else (0, sink)
  let (ret, sink) := f.vsnprintf (str + stamped.1) (0x100 - stamped.1) c.fmt c.ap stamped.2
  ⟨stamped.1, ret, sink⟩

def messageFor (x : SyslogExt ε) (f : Formatter) (s : Syslog ε) (c : SyslogCall) : Message :=
  messageAt f (x.iosGetUpTime64 (x.iosHeapAlloc (s.opened x).env).2).1 (blockFor x s) c s.sink

section Calls

variable {x : SyslogExt ε} {f : Formatter} {s : Syslog ε} {c : SyslogCall}

theorem opened_sink (x : SyslogExt ε) (s : Syslog ε) : (s.opened x).sink = s.sink := by
  unfold Syslog.opened
  split <;> rfl

/-- Behind the allocation: the message is written and its block freed, or neither. -/
theorem printInto_eq (x : SyslogExt ε) (f : Formatter) (str : U32) (s : Syslog ε) (c : SyslogCall) :
    let m := messageAt f (x.iosGetUpTime64 s.env).1 str c s.sink
    ∃ err s', printInto x f str c.fmt c.ap c.include_ts s =
      ⟨if m.ret.toInt < 1 then [] else [.write s.log_syslog_handle str (m.strOffset + m.ret) m.sink.mem, .free str],
        .ok (err, s')⟩ := by
  intro m
  have hstamp : ∃ offset env sink, printStamp x f str c.include_ts s =
      ⟨[], .ok (offset, { s with sink := sink, env := env })⟩ ∧
      m = ⟨offset, (f.vsnprintf (str + offset) (0x100 - offset) c.fmt c.ap sink).1,
        (f.vsnprintf (str + offset) (0x100 - offset) c.fmt c.ap sink).2⟩ := by
    unfold printStamp
    simp only [m, messageAt]
    cases c.include_ts
    · exact ⟨0, s.env, s.sink, rfl, rfl⟩
    · exact ⟨_, (x.iosGetUpTime64 s.env).2, _, rfl, rfl⟩
  obtain ⟨offset, env, sink, hstamp, hm⟩ := hstamp
  unfold printInto
  rw [Run.stateful_bind_silent hstamp, Run.stateful_bind_silent (show callFormat f.vsnprintf (str + offset)
    (0x100 - offset) c.fmt c.ap { s with sink := sink, env := env } = ⟨[], .ok (_, _)⟩ from rfl), hm]
  dsimp only
  split
  · exact ⟨_, _, rfl⟩
  · exact ⟨_, _, rfl⟩

/-- Behind the opening of the log. -/
theorem log_print_syslog_opened (x : SyslogExt ε) (f : Formatter) (s : Syslog ε) (c : SyslogCall) :
    log_print_syslog x f c.fmt c.ap c.include_ts s =
      (if (s.opened x).log_syslog_handle.toInt < 0 then pure IOS_ERROR_INVALID
       else IOS_HeapAlloc x >>= fun str =>
         if str = 0 then pure IOS_ERROR_INVALID else printInto x f str c.fmt c.ap c.include_ts : SyslogM ε IosError)
        (s.opened x) := by
  unfold log_print_syslog Syslog.opened
  rw [Run.stateful_bind_silent (Run.stateful_get s)]
  by_cases hhandle : s.log_syslog_handle.toInt < 0
  · simp only [if_pos hhandle]
    rfl
  · simp only [if_neg hhandle]
    rw [Run.stateful_bind_silent (Run.stateful_get s), if_neg hhandle]

/-- A call comes back. Without a block it shows nothing; with one it has a message, which is
    written and its block freed only if it has a character. -/
theorem log_print_syslog_eq (x : SyslogExt ε) (f : Formatter) (s : Syslog ε) (c : SyslogCall) :
    ∃ err s', log_print_syslog x f c.fmt c.ap c.include_ts s =
      ⟨if blockFor x s = 0 then []
       else .alloc (blockFor x s) :: if (messageFor x f s c).ret.toInt < 1 then []
         else [.write (s.opened x).log_syslog_handle (blockFor x s)
           ((messageFor x f s c).strOffset + (messageFor x f s c).ret) (messageFor x f s c).sink.mem,
           .free (blockFor x s)], .ok (err, s')⟩ := by
  rw [log_print_syslog_opened]
  unfold messageFor blockFor
  by_cases hhandle : (s.opened x).log_syslog_handle.toInt < 0
  · rw [if_pos hhandle, if_pos hhandle, if_pos rfl]
    exact ⟨_, _, rfl⟩
  · simp only [if_neg hhandle]
    by_cases hnull : (x.iosHeapAlloc (s.opened x).env).1 = 0
    · have halloc : IOS_HeapAlloc x (s.opened x) =
          ⟨[], .ok (0, { s.opened x with env := (x.iosHeapAlloc (s.opened x).env).2 })⟩ := by
        simp [IOS_HeapAlloc, callKernel, hnull]
      rw [Run.stateful_bind_silent halloc, if_pos rfl, if_pos hnull]
      exact ⟨_, _, rfl⟩
    · have halloc : IOS_HeapAlloc x (s.opened x) = ⟨[.alloc (x.iosHeapAlloc (s.opened x).env).1],
          .ok ((x.iosHeapAlloc (s.opened x).env).1, { s.opened x with env := (x.iosHeapAlloc (s.opened x).env).2 })⟩ := by
        unfold IOS_HeapAlloc callKernel
        dsimp only
        rw [if_neg hnull]
      obtain ⟨err, s', hinto⟩ := printInto_eq x f (x.iosHeapAlloc (s.opened x).env).1
        { s.opened x with env := (x.iosHeapAlloc (s.opened x).env).2 } c
      refine ⟨err, s', ?_⟩
      rw [Run.stateful_bind_ok halloc, if_neg hnull, if_neg hnull, hinto, opened_sink]
      rfl

end Calls

/-! ## The heap -/

def allocs (t : List SyslogEvent) : List U32 := t.filterMap fun
  | .alloc str => some str
  | _ => none

def frees (t : List SyslogEvent) : List U32 := t.filterMap fun
  | .free str => some str
  | _ => none

/-- Every block is freed as often as it was allocated, and no other is. -/
def FreesOwn (t : List SyslogEvent) : Prop := ∀ str, (frees t).count str = (allocs t).count str

/-- The blocks that are left allocated, less those freed without. -/
def outstanding (t : List SyslogEvent) : Int := (allocs t).length - (frees t).length

theorem FreesOwn.outstanding_eq {t : List SyslogEvent} (h : FreesOwn t) : outstanding t = 0 := by
  have hlength := (List.perm_iff_count.mpr h).length_eq
  simp [outstanding, hlength]

theorem outstanding_append (t t' : List SyslogEvent) : outstanding (t ++ t') = outstanding t + outstanding t' := by
  simp only [outstanding, allocs, frees, List.filterMap_append, List.length_append]
  omega

section Heap

variable (x : SyslogExt ε) (f : Formatter)

/-- A call, for what it leaves. -/
def syslogStep (s : Syslog ε) (c : SyslogCall) : Run SyslogEvent Fault (Syslog ε) := do
  let (_, s) ← log_print_syslog x f c.fmt c.ap c.include_ts s
  return s

/-- Every call frees the block that it allocated, and after them there are as many as
    before. -/
structure HeapBalanced (calls : List SyslogCall) (s : Syslog ε) : Prop where
  each : Run.Throughout (syslogStep x f) (fun s c => FreesOwn (syslogStep x f s c).trace) s calls
  together : outstanding (Run.iter (syslogStep x f) s calls).trace = 0

variable {x f}

theorem syslogStep_eq (s : Syslog ε) (c : SyslogCall) :
    ∃ s', syslogStep x f s c = ⟨(log_print_syslog x f c.fmt c.ap c.include_ts s).trace, .ok s'⟩ := by
  obtain ⟨err, s', hrun⟩ := log_print_syslog_eq x f s c
  refine ⟨s', ?_⟩
  unfold syslogStep
  rw [hrun, Run.bind_ok _ rfl]
  simp

/-- A call frees its block unless its message has no character. -/
theorem freesOwn_iff (s : Syslog ε) (c : SyslogCall) :
    FreesOwn (syslogStep x f s c).trace ↔ (blockFor x s ≠ 0 → 1 ≤ (messageFor x f s c).ret.toInt) := by
  obtain ⟨s', hstep⟩ := syslogStep_eq (x := x) (f := f) s c
  obtain ⟨err, s'', hrun⟩ := log_print_syslog_eq x f s c
  rw [hstep, hrun]
  dsimp only
  by_cases hblock : blockFor x s = 0
  · rw [if_pos hblock]
    exact ⟨fun _ hne => absurd hblock hne, fun _ str => rfl⟩
  rw [if_neg hblock]
  by_cases hret : (messageFor x f s c).ret.toInt < 1
  · rw [if_pos hret]
    constructor
    · intro hfrees
      have hcount := hfrees (blockFor x s)
      simp [frees, allocs] at hcount
    · intro hlong
      have := hlong hblock
      omega
  · rw [if_neg hret]
    exact ⟨fun _ _ => by omega, fun _ str => by simp [frees, allocs]⟩

theorem outstanding_iter {calls : List SyslogCall} {s : Syslog ε}
    (h : Run.Throughout (syslogStep x f) (fun s c => FreesOwn (syslogStep x f s c).trace) s calls) :
    outstanding (Run.iter (syslogStep x f) s calls).trace = 0 := by
  induction calls generalizing s with
  | nil => rfl
  | cons c calls ih =>
    obtain ⟨hfrees, hrest⟩ := h
    obtain ⟨s', hstep⟩ := syslogStep_eq (x := x) (f := f) s c
    have hres : (syslogStep x f s c).res = .ok s' := by rw [hstep]
    rw [Run.iter, Run.bind_trace_ok hres, outstanding_append, hfrees.outstanding_eq, ih (hrest s' hres)]
    rfl

/-- The heap stays balanced exactly when every call that gets a block also gets a message of
    one character or more. -/
theorem heapBalanced_iff (x : SyslogExt ε) (f : Formatter) (calls : List SyslogCall) (s : Syslog ε) :
    HeapBalanced x f calls s ↔ Run.Throughout (syslogStep x f)
      (fun s c => blockFor x s ≠ 0 → 1 ≤ (messageFor x f s c).ret.toInt) s calls := by
  have hstep : (fun (s : Syslog ε) c => FreesOwn (syslogStep x f s c).trace) =
      fun s c => blockFor x s ≠ 0 → 1 ≤ (messageFor x f s c).ret.toInt := by
    funext s c
    exact propext (freesOwn_iff s c)
  rw [← hstep]
  exact ⟨fun h => h.each, fun h => ⟨h, outstanding_iter h⟩⟩

end Heap

/-- A kernel that has one block to give. -/
def oneBlock : SyslogExt Unit where
  iosOpen := fun env => (3, env)
  iosHeapAlloc := fun env => (0x1000, env)
  iosHeapFree := fun _ env => env
  iosGetUpTime64 := fun env => (0, env)
  iosWrite := fun _ _ _ env => (IOS_ERROR_OK, env)

/-- The log is not open yet. -/
def Syslog.start : Syslog Unit := ⟨IOS_ERROR_INVALID, ⟨fun _ => 0, []⟩, ()⟩

/-- An empty message. -/
theorem empty_message_leaks :
    ¬ HeapBalanced oneBlock (Engine.formatter fun _ _ => []) [⟨[], [], false⟩] Syslog.start := by
  intro h
  exact absurd h.together (by decide)

end Iosu.Bsp
