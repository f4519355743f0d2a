/-
  Iosu.Bsp.FatalExit — how `log_fatal` ends the process (`log.c`, `delay.c`).

  What the three formatting calls leave in `msg[256]` is their texts one behind the other, as
  far as there is room (`log_fatal_text`). This string goes to the console and to the log, a
  timer is waited for, and with the string again, formatted into `msg[128]` of `log_panic`,
  the kernel is told to panic. `fatal_exit` is the whole of it: the console is handed the
  string between two newlines, the queue and the timer are given back on every way, and the
  panic has the first 127 characters of the same line, but a size that counts all of it.
-/

import Iosu.Bsp.Syslog
import Iosu.Libc.Printf
import Iosu.Lib.CString
import Iosu.Lib.Monitor

namespace Iosu.Bsp

open Iosu.Lib Iosu.Lib.Mem Iosu.Libc Iosu.Entity Iosu.Ios

variable {ε : Type}

/-! ## Formatting into memory -/

section Formatting

variable {str size a : U32} {sink : Sink}

theorem adds_frame (text : List U8) (ha : ¬ InWindow str size.toNat a) :
    (sprintf_buffer_adds ⟨str, 0, size⟩ sink text).2.mem a = sink.mem a := by
  induction text using List.reverseRecOn with
  | nil => rfl
  | append_singleton text c ih =>
    rw [adds_snoc, adds_ctx]
    unfold sprintf_buffer_add
    dsimp only
    split
    · rename_i hlt
      have hne : a ≠ str + BitVec.ofNat 32 text.length := fun heq => ha (heq ▸ inWindow_offset str hlt)
      exact (Function.update_of_ne hne _ _).trans ih
    · exact ih

/-- A call changes its buffer, and the place of its terminator. -/
theorem vsnprintf_frame (text : List U8) (ha : ¬ InWindow str size.toNat a)
    (hne : a ≠ terminatorAt str size (BitVec.ofNat 32 text.length)) :
    (vsnprintf str size text sink).2.mem a = sink.mem a := by
  rw [vsnprintf_eq]
  exact (Function.update_of_ne hne _ _).trans (adds_frame text ha)

/-- From an offset up to the end of 256 bytes on, it changes nothing outside of them. -/
theorem vsnprintf_outside {msg offset : U32} (h : offset.toNat ≤ 256) (text : List U8) (ha : ¬ InWindow msg 256 a) :
    (vsnprintf (msg + offset) (256 - offset) text sink).2.mem a = sink.mem a := by
  refine vsnprintf_frame text (fun hin => ha (inWindow_left h hin)) ?_
  rintro rfl
  exact ha (inWindow_terminator_left h _)

theorem vsnprintf_string {text : List U8} (h : 0 < size) (hlen : text.length < 2 ^ 32) (hne : ∀ c ∈ text, c ≠ 0) :
    HoldsStr (vsnprintf str size text sink).2.mem str (text.take (size.toNat - 1)) := by
  obtain ⟨hbytes, hend⟩ := vsnprintf_holds str h hlen sink
  have hlength : (text.take (size.toNat - 1)).length = min text.length (size.toNat - 1) := by
    rw [List.length_take, Nat.min_comm]
  refine ⟨fun i hi => ?_, ?_, fun c hc => hne c (List.mem_of_mem_take hc)⟩
  · have hget := congrArg (fun xs => xs[i]?) hbytes
    rw [hlength] at hi
    simpa [Buf.bytes, hi, hlength] using hget
  · rw [hlength]
    exact hend

/-- A text behind what is in a buffer of 256 bytes, also where nothing is left of it. -/
theorem vsnprintf_appends {msg : U32} {d text : List U8} (hd : HoldsStr sink.mem msg (d.take 255)) (hfits : d.length ≤ 256)
    (hlen : text.length < 2 ^ 32) (hne : ∀ c ∈ text, c ≠ 0) :
    HoldsStr (vsnprintf (msg + BitVec.ofNat 32 d.length) (256 - BitVec.ofNat 32 d.length) text sink).2.mem msg
      ((d ++ text).take 255) := by
  have hoffset : (BitVec.ofNat 32 d.length).toNat = d.length := by
    rw [BitVec.toNat_ofNat, Nat.mod_eq_of_lt (by omega)]
  have hle : (BitVec.ofNat 32 d.length).toNat ≤ 256 := by omega
  have hleft := left_toNat hle
  rw [hoffset] at hleft
  by_cases hroom : d.length < 256
  · have hpos : (0 : U32) < 256 - BitVec.ofNat 32 d.length := by
      rw [BitVec.lt_def, hleft]
      exact Nat.sub_pos_of_lt hroom
    have htake : d.take 255 = d := List.take_of_length_le (by omega)
    rw [htake] at hd
    have htext : (d ++ text).take 255 = d ++ text.take ((256 - BitVec.ofNat 32 d.length).toNat - 1) := by
      rw [List.take_append, htake, hleft]
      congr 2
      omega
    rw [htext]
    refine (vsnprintf_string hpos hlen hne).append (fun i hi => ?_) hd.nonzero
    rw [← hd.text i hi]
    have hbefore := not_inWindow_shift (p := msg) hi hfits (by omega)
    rw [← hleft] at hbefore
    exact vsnprintf_frame text hbefore fun heq => hbefore (heq ▸ inWindow_terminator hpos _)
  · -- the terminator is stored again, in the last byte
    have hfull : d.length = 256 := by omega
    have hlast : terminatorAt (msg + BitVec.ofNat 32 d.length) (256 - BitVec.ofNat 32 d.length)
        (BitVec.ofNat 32 text.length) = msg + BitVec.ofNat 32 255 := by
      have hnone : ¬ BitVec.ofNat 32 text.length < (0 : U32) := BitVec.not_lt_zero
      rw [hfull]
      show (if BitVec.ofNat 32 text.length < (0 : U32) then msg + 256 + BitVec.ofNat 32 text.length
        else msg + 256 + (0 - 1)) = _
      rw [if_neg hnone, BitVec.add_assoc]
      rfl
    have hlength : (d.take 255).length = 255 := by
      rw [List.length_take]
      omega
    have htext : (d ++ text).take 255 = d.take 255 := by
      rw [List.take_append, hfull]
      simp
    rw [htext]
    refine hd.frame fun i hi => ?_
    rcases Nat.lt_or_eq_of_le hi with hlt | heq
    · rw [hlength] at hlt
      refine vsnprintf_frame text ?_ ?_
      · rw [hleft, hfull]
        exact Nat.not_lt_zero _
      · rw [hlast, Ne, BitVec.add_right_inj, ← BitVec.toNat_inj, BitVec.toNat_ofNat, BitVec.toNat_ofNat]
        omega
    · rw [hlength] at heq
      have hzero : sink.mem.view msg i = 0 := by
        rw [heq, ← hlength]
        exact hd.terminated
      rw [hzero, vsnprintf_eq, hlast, heq]
      exact Function.update_self _ _ _

end Formatting

/-! ## The message -/

section Message

variable (engine : Engine) (caller : Caller) (outside : U32 → LogFd) (log_fds : Vector LogFd 0x20) (f : Fatal)

def fatalText : List U8 :=
  nameText engine (log_get_fd outside log_fds f.handle) ++ assertText engine caller f ++ engine f.message f.ap

/-- `memset(msg, 0, 256)`, and behind the call with the name. -/
def clearedMsg (msg : U32) (mem : Mem) : Sink := ⟨mem.store msg (List.replicate 256 0), []⟩

def namedMsg (msg : U32) (mem : Mem) : Sink :=
  match log_get_fd outside log_fds f.handle with
  | some fd => (vsnprintf msg 256 (nameText engine (some fd)) (clearedMsg msg mem)).2
  | none => clearedMsg msg mem

theorem log_fatal_sink (msg : U32) (mem : Mem) :
    (log_fatal engine caller outside log_fds msg f mem).2 =
      let name := nameText engine (log_get_fd outside log_fds f.handle)
      let place := name ++ assertText engine caller f
      (vsnprintf (msg + BitVec.ofNat 32 place.length) (256 - BitVec.ofNat 32 place.length) (engine f.message f.ap)
        (vsnprintf (msg + BitVec.ofNat 32 name.length) (256 - BitVec.ofNat 32 name.length) (assertText engine caller f)
          (namedMsg engine outside log_fds f msg mem)).2).2 := by
  have hzero : ∀ n : U32, 0 + n = n := fun n => BitVec.zero_add n
  unfold log_fatal namedMsg snprintf
  cases log_get_fd outside log_fds f.handle with
  | none =>
    dsimp only
    rw [vsnprintf_returns, hzero]
    rfl
  | some fd =>
    dsimp only
    rw [vsnprintf_returns, vsnprintf_returns, hzero, List.length_append, BitVec.ofNat_add]
    rfl

variable {engine caller outside log_fds f}

theorem clearedMsg_string (msg : U32) (mem : Mem) : HoldsStr (clearedMsg msg mem).mem msg [] := by
  refine ⟨fun i hi => absurd hi (Nat.not_lt_zero i), ?_, fun c hc => absurd hc List.not_mem_nil⟩
  show (mem.view msg).store (List.replicate 256 0) (msg + BitVec.ofNat 32 0 - msg).toNat = 0
  rw [BitVec.add_comm, BitVec.add_sub_cancel]
  rfl

/-- Where the name and the place fit, the buffer holds the start of the whole text. -/
theorem log_fatal_text (msg : U32) (mem : Mem)
    (hfits : (nameText engine (log_get_fd outside log_fds f.handle) ++ assertText engine caller f).length ≤ 256)
    (hlen : (engine f.message f.ap).length < 2 ^ 32) (hne : ∀ c ∈ fatalText engine caller outside log_fds f, c ≠ 0) :
    HoldsStr (log_fatal engine caller outside log_fds msg f mem).2.mem msg
      ((fatalText engine caller outside log_fds f).take 255) := by
  have hsplit := hfits
  rw [List.length_append] at hsplit
  unfold fatalText at hne ⊢
  rw [log_fatal_sink]
  have hnamed : HoldsStr (namedMsg engine outside log_fds f msg mem).mem msg
      ((nameText engine (log_get_fd outside log_fds f.handle)).take 255) := by
    unfold namedMsg
    cases hfd : log_get_fd outside log_fds f.handle with
    | none => exact clearedMsg_string msg mem
    | some fd =>
      rw [hfd] at hne hsplit
      refine vsnprintf_string (by decide) (by omega) fun c hc => hne c ?_
      exact List.mem_append_left _ (List.mem_append_left _ hc)
  refine vsnprintf_appends (vsnprintf_appends hnamed (by omega) (by omega) fun c hc => hne c ?_) hfits hlen
    fun c hc => hne c (List.mem_append_right _ hc)
  exact List.mem_append_left _ (List.mem_append_right _ hc)

end Message

/-! ## `delay_ticks` -/

inductive DelayEvent where
  | createQueue (queue : U32)
  | createTimer (ticks queue timer : U32)
  | receive (queue : U32)
  | destroyTimer (timer : U32)
  | destroyQueue (queue : U32)
  deriving DecidableEq, Repr

structure FatalExt (ε : Type) extends SyslogExt ε where
  iosGetCurrentThreadId : ε → U32 × ε
  iosGetCurrentProcessId : ε → U32 × ε
  /-- `IOS_CreateMessageQueue(&msg_mem, 1)` -/
  iosCreateMessageQueue : ε → U32 × ε
  iosDestroyMessageQueue : U32 → ε → ε
  /-- `IOS_CreateTimer(ticks, 0, queue, (IOSMessage*)0xbabecafe)` -/
  iosCreateTimer : U32 → U32 → ε → U32 × ε
  iosReceiveMessage : U32 → ε → ε
  iosDestroyTimer : U32 → ε → ε

abbrev DelayM (ε : Type) := StateT ε (Run DelayEvent Fault)

def DelayM.call {α : Type} (shows : α → DelayEvent) (f : ε → α × ε) : DelayM ε α := fun env =>
  ⟨[shows (f env).1], .ok (f env)⟩

def delay_ticks (x : FatalExt ε) (ticks : U32) : DelayM ε IosError := do
  let queue ← DelayM.call .createQueue x.iosCreateMessageQueue
  if queue.toInt < 0 then return queue
  let timer ← DelayM.call (.createTimer ticks queue) (x.iosCreateTimer ticks queue)
  if timer.toInt < 0 then
    DelayM.call (fun _ => .destroyQueue queue) fun env => ((), x.iosDestroyMessageQueue queue env)
    return timer
  DelayM.call (fun _ => .receive queue) fun env => ((), x.iosReceiveMessage queue env)
  DelayM.call (fun _ => .destroyTimer timer) fun env => ((), x.iosDestroyTimer timer env)
  DelayM.call (fun _ => .destroyQueue queue) fun env => ((), x.iosDestroyMessageQueue queue env)
  return IOS_ERROR_OK

/-- What is held: a queue, and a timer of it. -/
structure Held where
  queue : Option U32
  timer : Option U32
  deriving DecidableEq, Repr

/-- What may be done with it: each is used and given back while it is held, the timer first. -/
def holding : Monitor DelayEvent Held
  | ⟨none, none⟩, .createQueue queue => some ⟨if queue.toInt < 0 then none else some queue, none⟩
  | ⟨some held, none⟩, .createTimer _ queue timer =>
    if queue = held then some ⟨some held, if timer.toInt < 0 then none else some timer⟩ else none
  | ⟨some held, some timer⟩, .receive queue => if queue = held then some ⟨some held, some timer⟩ else none
  | ⟨some held, some timer⟩, .destroyTimer timer' => if timer' = timer then some ⟨some held, none⟩ else none
  | ⟨some held, none⟩, .destroyQueue queue => if queue = held then some ⟨none, none⟩ else none
  | _, _ => none

/-- Whatever the kernel answers, nothing is held behind the delay. -/
theorem delay_ticks_holds (x : FatalExt ε) (ticks : U32) (env : ε) :
    ∃ t ret env', delay_ticks x ticks env = ⟨t, .ok (ret, env')⟩ ∧ holding.run ⟨none, none⟩ t = some ⟨none, none⟩ := by
  unfold delay_ticks
  rcases hq : x.iosCreateMessageQueue env with ⟨queue, env₁⟩
  have hqueue : DelayM.call .createQueue x.iosCreateMessageQueue env = ⟨[.createQueue queue], .ok (queue, env₁)⟩ := by
    simp [DelayM.call, hq]
  rw [Run.stateful_bind_ok hqueue]
  by_cases hnone : queue.toInt < 0
  · rw [if_pos hnone]
    exact ⟨[.createQueue queue], queue, env₁, rfl, by simp [holding, hnone]⟩
  rw [if_neg hnone]
  rcases ht : x.iosCreateTimer ticks queue env₁ with ⟨timer, env₂⟩
  have htimer : DelayM.call (.createTimer ticks queue) (x.iosCreateTimer ticks queue) env₁ =
      ⟨[.createTimer ticks queue timer], .ok (timer, env₂)⟩ := by
    simp [DelayM.call, ht]
  rw [Run.stateful_bind_ok htimer]
  by_cases hfailed : timer.toInt < 0
  · rw [if_pos hfailed]
    refine ⟨[.createQueue queue, .createTimer ticks queue timer, .destroyQueue queue], timer, _, rfl, ?_⟩
    simp [holding, hnone, hfailed]
  · rw [if_neg hfailed]
    refine ⟨[.createQueue queue, .createTimer ticks queue timer, .receive queue, .destroyTimer timer, .destroyQueue queue],
      IOS_ERROR_OK, _, rfl, ?_⟩
    simp [holding, hnone, hfailed]

/-! ## The end of `log_fatal` -/

inductive FatalEvent where
  | printed (h : Handed)
  | syslog (e : SyslogEvent)
  | delay (e : DelayEvent)
  /-- `IOS_Panic`, which does not return, with the memory it reads from. -/
  | panic (msg msg_size : U32) (mem : Mem)

abbrev FatalM (ε : Type) := StateT (Syslog ε) (Run FatalEvent Fault)

def lineFormat : CStr := cstr "\n%s\n"

section Exit

variable (x : FatalExt ε) (engine : Engine) (printf_callback : Bool)

/-- What `%s` reads at an address. -/
def stringAt (p : U32) (fuel : Nat) : FatalM ε CStr := fun s => Run.lift do
  let len ← firstFrom (fun i => s.sink.mem.view p i = 0) fuel 0
  return ((List.range len).map (s.sink.mem.view p), s)

def fatalCall {α : Type} (f : ε → α × ε) : FatalM ε α := fun s => pure ((f s.env).1, { s with env := (f s.env).2 })

def fatalPrintf (text : CStr) : FatalM ε Unit := fun s =>
  match printf printf_callback text with
  | some (_, handed) => ⟨handed.map .printed, .ok ((), s)⟩
  | none => Run.fault .frameIndex

/-- `msg` is the address of its buffer of 128 bytes. -/
def log_panic (msg : U32) (fmt : CStr) (ap : List FmtArg) : FatalM ε Unit := fun s =>
  let (msg_size, sink) := vsnprintf msg 128 (engine fmt ap) ⟨s.sink.mem.store msg (List.replicate 128 0), []⟩
  ⟨[.panic msg msg_size sink.mem], .ok ((), { s with sink := sink })⟩

/-- The whole of `log_fatal`. The buffers are at `msg`, and at `panicMsg` in `log_panic`. -/
def log_fatal_exit (outside : U32 → LogFd) (log_fds : Vector LogFd 0x20) (msg panicMsg : U32) (f : Fatal) (fuel : Nat) :
    FatalM ε Unit := do
  let tid ← fatalCall x.iosGetCurrentThreadId
  let pid ← fatalCall x.iosGetCurrentProcessId
  modify fun s => { s with sink := (log_fatal engine ⟨tid, pid⟩ outside log_fds msg f s.sink.mem).2 }
  let text ← stringAt msg fuel
  fatalPrintf printf_callback (engine lineFormat [.str text])
  fun s => (log_print_syslog_ts x.toSyslogExt engine.formatter lineFormat [.str text] s).mapTrace .syslog
  fun s => do
    let (_, env) ← (delay_ticks x 100000 s.env).mapTrace .delay
    return ((), { s with env := env })
  let text ← stringAt msg fuel
  log_panic engine panicMsg lineFormat [.str text]

end Exit

/-! ## What the log leaves of the message -/

/-- The heap's blocks lie elsewhere, and the timestamp fits into one. -/
structure HeapApart (x : SyslogExt ε) (engine : Engine) (msg : U32) : Prop where
  block : ∀ env a, (x.iosHeapAlloc env).1 ≠ 0 → InWindow msg 256 a → ¬ InWindow (x.iosHeapAlloc env).1 256 a
  stamp : ∀ s : Stamp, (engine stampFormat s.args).length ≤ 256

section Log

variable {x : SyslogExt ε} {engine : Engine} {s : Syslog ε} {c : SyslogCall}

theorem messageAt_outside (hstamp : ∀ s : Stamp, (engine stampFormat s.args).length ≤ 256) {str a : U32} (uptime : U64)
    (sink : Sink) (ha : ¬ InWindow str 256 a) : (messageAt engine.formatter uptime str c sink).sink.mem a = sink.mem a := by
  have hsplit : ∃ (offset : U32) (stamped : Sink), offset.toNat ≤ 256 ∧ stamped.mem a = sink.mem a ∧
      (messageAt engine.formatter uptime str c sink).sink =
        (vsnprintf (str + offset) (256 - offset) (engine c.fmt c.ap) stamped).2 := by
    unfold messageAt
    cases c.include_ts with
    | false => exact ⟨0, sink, Nat.zero_le _, rfl, rfl⟩
    | true =>
      refine ⟨_, _, ?_, ?_, rfl⟩
      · have hzero : ∀ n : U32, 0 + n = n := fun n => BitVec.zero_add n
        have hlength := hstamp (stamp uptime)
        show (if 0 ≤ (vsnprintf str 0x100 (engine stampFormat (stamp uptime).args) sink).1.toInt
          then 0 + (vsnprintf str 0x100 (engine stampFormat (stamp uptime).args) sink).1 else 0).toNat ≤ 256
        rw [vsnprintf_returns, hzero]
        split
        · rw [BitVec.toNat_ofNat]
          exact Nat.le_trans (Nat.mod_le _ _) hlength
        · exact Nat.zero_le _
      · refine vsnprintf_frame _ ha ?_
        rintro rfl
        exact ha (inWindow_terminator (by decide) _)
  obtain ⟨offset, stamped, hoffset, hstamped, hmessage⟩ := hsplit
  rw [hmessage, vsnprintf_outside hoffset _ ha, hstamped]

variable (x engine s c)

theorem printInto_sink (str : U32) :
    ∃ t err s', printInto x engine.formatter str c.fmt c.ap c.include_ts s = ⟨t, .ok (err, s')⟩ ∧
      s'.sink = (messageAt engine.formatter (x.iosGetUpTime64 s.env).1 str c s.sink).sink := by
  have hstamp : ∃ offset env sink, printStamp x engine.formatter str c.include_ts s =
      ⟨[], .ok (offset, { s with sink := sink, env := env })⟩ ∧
      (messageAt engine.formatter (x.iosGetUpTime64 s.env).1 str c s.sink).sink =
        (engine.formatter.vsnprintf (str + offset) (0x100 - offset) c.fmt c.ap sink).2 := by
    unfold printStamp messageAt
    cases c.include_ts
    · exact ⟨0, s.env, s.sink, rfl, rfl⟩
    · exact ⟨_, (x.iosGetUpTime64 s.env).2, _, rfl, rfl⟩
  obtain ⟨offset, env, sink, hstamp, hmessage⟩ := hstamp
  unfold printInto
  rw [Run.stateful_bind_silent hstamp, Run.stateful_bind_silent (show callFormat engine.formatter.vsnprintf (str + offset)
    (0x100 - offset) c.fmt c.ap { s with sink := sink, env := env } = ⟨[], .ok (_, _)⟩ from rfl), hmessage]
  split
  · exact ⟨_, _, _, rfl, rfl⟩
  · exact ⟨_, _, _, rfl, rfl⟩

variable {x engine}

/-- A call to the log comes back, and leaves the message alone. -/
theorem log_print_syslog_outside {msg : U32} (h : HeapApart x engine msg) :
    ∃ t err s', log_print_syslog x engine.formatter c.fmt c.ap c.include_ts s = ⟨t, .ok (err, s')⟩ ∧
      ∀ a, InWindow msg 256 a → s'.sink.mem a = s.sink.mem a := by
  have hopened : ∀ a, (s.opened x).sink.mem a = s.sink.mem a := fun a => by rw [opened_sink]
  rw [log_print_syslog_opened]
  by_cases hhandle : (s.opened x).log_syslog_handle.toInt < 0
  · rw [if_pos hhandle]
    exact ⟨[], _, _, rfl, fun a _ => hopened a⟩
  rw [if_neg hhandle]
  have halloc : IOS_HeapAlloc x (s.opened x) =
      ⟨if (x.iosHeapAlloc (s.opened x).env).1 = 0 then [] else [.alloc (x.iosHeapAlloc (s.opened x).env).1],
        .ok ((x.iosHeapAlloc (s.opened x).env).1, { s.opened x with env := (x.iosHeapAlloc (s.opened x).env).2 })⟩ := rfl
  rw [Run.stateful_bind_ok halloc]
  by_cases hnull : (x.iosHeapAlloc (s.opened x).env).1 = 0
  · rw [if_pos hnull, if_pos hnull]
    exact ⟨_, _, _, rfl, fun a _ => hopened a⟩
  · rw [if_neg hnull, if_neg hnull]
    obtain ⟨t, err, s', hprint, hsink⟩ := printInto_sink x engine
      { s.opened x with env := (x.iosHeapAlloc (s.opened x).env).2 } c (x.iosHeapAlloc (s.opened x).env).1
    rw [hprint]
    refine ⟨_, err, s', rfl, fun a ha => ?_⟩
    rw [hsink, messageAt_outside h.stamp _ _ (h.block _ a hnull ha)]
    exact hopened a

end Log

/-! ## The whole of it -/

section Whole

variable {engine : Engine}

theorem stringAt_eq {s : Syslog ε} {p : U32} {t : CStr} (h : HoldsStr s.sink.mem p t) {fuel : Nat} (hfuel : t.length < fuel) :
    stringAt p fuel s = ⟨[], .ok (t, s)⟩ := by
  have hread : (List.range t.length).map (s.sink.mem.view p) = t := by
    refine List.ext_getElem (by simp) fun i hi hi' => ?_
    rw [List.getElem_map, List.getElem_range]
    exact h.text i hi'
  unfold stringAt
  rw [firstFrom_ok_iff.mpr ⟨by omega, h.isFirst_end⟩, Res.ok_bind, hread]
  rfl

/-- The console is handed the text, piece by piece. -/
theorem printf_sinks (printf_callback : Bool) {text : CStr} (hne : ∀ c ∈ text, c ≠ 0) :
    ∃ (handed : List Handed) (chunks : List CStr), printf printf_callback text = some (0, handed) ∧
      handed.map Handed.string = chunks.map some ∧ chunks.flatten = text := by
  obtain ⟨ctx, handed, hrun, hempty, -, hsunk⟩ := cb_runs printf_callback (Vector.replicate 16 0) text
  obtain ⟨chunks, hstrings, hflatten, -⟩ := hsunk hne
  rw [List.append_nil] at hflatten
  refine ⟨handed, chunks, ?_, hstrings, hflatten⟩
  unfold printf vprintf
  rw [hrun]
  exact congrArg (fun ret => some (ret, handed)) hempty

/-- What `log_panic` hands to the kernel: as much of the text as the buffer holds, with the
    size of all of it. -/
theorem log_panic_eq (msg : U32) (fmt : CStr) (ap : List FmtArg) (s : Syslog ε) (hlen : (engine fmt ap).length < 2 ^ 32)
    (hne : ∀ c ∈ engine fmt ap, c ≠ 0) :
    ∃ mem s', log_panic engine msg fmt ap s =
        ⟨[.panic msg (BitVec.ofNat 32 (engine fmt ap).length) mem], .ok ((), s')⟩ ∧
      HoldsStr mem msg ((engine fmt ap).take 127) := by
  have hstored : HoldsStr (vsnprintf msg 128 (engine fmt ap) ⟨s.sink.mem.store msg (List.replicate 128 0), []⟩).2.mem msg
      ((engine fmt ap).take 127) := vsnprintf_string (by decide) hlen hne
  refine ⟨_, { s with sink := (vsnprintf msg 128 (engine fmt ap) ⟨s.sink.mem.store msg (List.replicate 128 0), []⟩).2 },
    ?_, hstored⟩
  rw [← vsnprintf_returns msg 128 ⟨s.sink.mem.store msg (List.replicate 128 0), []⟩ (engine fmt ap)]
  rfl

/-- However `log_fatal` is called: the console is handed the message between newlines, nothing
    of the delay is left behind, and the last thing done is the panic. Its text ends behind
    127 characters, and its size counts them all, also past the 128 bytes that there are. -/
theorem fatal_exit {x : FatalExt ε} (printf_callback : Bool) {outside : U32 → LogFd} {log_fds : Vector LogFd 0x20}
    {msg panicMsg : U32} {f : Fatal} {fuel : Nat} {s : Syslog ε} {caller : Caller}
    (hline : ∀ t, engine lineFormat [.str t] = 0x0A :: t ++ [0x0A]) (hheap : HeapApart x.toSyslogExt engine msg)
    (htid : caller.tid = (x.iosGetCurrentThreadId s.env).1)
    (hpid : caller.pid = (x.iosGetCurrentProcessId (x.iosGetCurrentThreadId s.env).2).1)
    (hfits : (nameText engine (log_get_fd outside log_fds f.handle) ++ assertText engine caller f).length ≤ 256)
    (hlen : (engine f.message f.ap).length < 2 ^ 32) (hne : ∀ c ∈ fatalText engine caller outside log_fds f, c ≠ 0)
    (hfuel : 255 < fuel) :
    let text := 0x0A :: (fatalText engine caller outside log_fds f).take 255 ++ [0x0A]
    ∃ (handed : List Handed) (chunks : List CStr) (logged : List SyslogEvent) (delay : List DelayEvent) (mem : Mem) (s' : Syslog ε),
      log_fatal_exit x engine printf_callback outside log_fds msg panicMsg f fuel s =
        ⟨handed.map .printed ++ (logged.map .syslog ++ (delay.map .delay ++
          [.panic panicMsg (BitVec.ofNat 32 text.length) mem])), .ok ((), s')⟩ ∧
      handed.map Handed.string = chunks.map some ∧ chunks.flatten = text ∧
      holding.run ⟨none, none⟩ delay = some ⟨none, none⟩ ∧ HoldsStr mem panicMsg (text.take 127) := by
  intro text
  have htext : ∀ c ∈ text, c ≠ 0 := by
    intro c hc
    rcases List.mem_append.mp hc with hc | hc
    · rcases List.mem_cons.mp hc with rfl | hc
      · decide
      · exact hne c (List.mem_of_mem_take hc)
    · rw [List.mem_singleton.mp hc]
      decide
  have hlength : text.length ≤ 257 := by
    have := List.length_take_le 255 (fatalText engine caller outside log_fds f)
    simp only [text, List.length_append, List.length_cons, List.length_nil]
    omega
  have hmsg : HoldsStr (log_fatal engine caller outside log_fds msg f s.sink.mem).2.mem msg
      ((fatalText engine caller outside log_fds f).take 255) := log_fatal_text msg s.sink.mem hfits hlen hne
  have hshort : ((fatalText engine caller outside log_fds f).take 255).length < fuel :=
    Nat.lt_of_le_of_lt (List.length_take_le _ _) hfuel
  -- up to the message
  have hcalls : ∀ k : U32 → U32 → FatalM ε Unit,
      (fatalCall x.iosGetCurrentThreadId >>= fun tid => fatalCall x.iosGetCurrentProcessId >>= fun pid => k tid pid) s =
        k caller.tid caller.pid
          { s with env := (x.iosGetCurrentProcessId (x.iosGetCurrentThreadId s.env).2).2 } := by
    intro k
    rw [htid, hpid]
    rfl
  obtain ⟨handed, chunks, hprintf, hstrings, hflatten⟩ := printf_sinks printf_callback htext
  let s₁ : Syslog ε := { s with
    env := (x.iosGetCurrentProcessId (x.iosGetCurrentThreadId s.env).2).2
    sink := (log_fatal engine caller outside log_fds msg f s.sink.mem).2 }
  have hconsole : fatalPrintf printf_callback (engine lineFormat [.str ((fatalText engine caller outside log_fds f).take 255)])
      s₁ = ⟨handed.map .printed, .ok ((), s₁)⟩ := by
    unfold fatalPrintf
    rw [hline, hprintf]
  -- the log leaves the message, and so does the delay
  obtain ⟨logged, err, s₂, hlog, hkept⟩ := log_print_syslog_outside s₁
    ⟨lineFormat, [.str ((fatalText engine caller outside log_fds f).take 255)], true⟩ hheap
  have hsyslog : ∃ logged', log_print_syslog_ts x.toSyslogExt engine.formatter lineFormat
      [.str ((fatalText engine caller outside log_fds f).take 255)] s₁ = ⟨logged', .ok ((), s₂)⟩ := by
    refine ⟨logged ++ [], ?_⟩
    unfold log_print_syslog_ts
    rw [Run.stateful_bind_ok hlog]
    rfl
  obtain ⟨logged', hsyslog⟩ := hsyslog
  obtain ⟨delay, ret, env₃, hdelay, hholds⟩ := delay_ticks_holds x 100000 s₂.env
  have hmsg₂ : HoldsStr s₂.sink.mem msg ((fatalText engine caller outside log_fds f).take 255) := by
    refine hmsg.frame fun i hi => hkept _ (inWindow_add ?_ (by omega))
    have := List.length_take_le 255 (fatalText engine caller outside log_fds f)
    omega
  obtain ⟨mem, s', hpanic, hstored⟩ := log_panic_eq panicMsg lineFormat
    [.str ((fatalText engine caller outside log_fds f).take 255)] { s₂ with env := env₃ }
    (show (engine lineFormat _).length < 2 ^ 32 by rw [hline]; exact Nat.lt_of_le_of_lt hlength (by omega))
    (by rw [hline]; exact htext)
  rw [hline] at hpanic hstored
  refine ⟨handed, chunks, logged', delay, mem, s', ?_, hstrings, hflatten, hholds, hstored⟩
  have htail : (stringAt msg fuel >>= fun text => log_panic engine panicMsg lineFormat [.str text] : FatalM ε Unit)
      { s₂ with env := env₃ } = ⟨[.panic panicMsg (BitVec.ofNat 32 text.length) mem], .ok ((), s')⟩ := by
    rw [Run.stateful_bind_silent (stringAt_eq (s := { s₂ with env := env₃ }) hmsg₂ hshort)]
    exact hpanic
  have hlogs : (fun s => (log_print_syslog_ts x.toSyslogExt engine.formatter lineFormat
      [.str ((fatalText engine caller outside log_fds f).take 255)] s).mapTrace .syslog : FatalM ε Unit) s₁ =
      ⟨logged'.map .syslog, .ok ((), s₂)⟩ := by
    show Run.mapTrace _ _ = _
    rw [hsyslog]
    rfl
  have hdelays : (fun s => do
      let (_, env) ← (delay_ticks x 100000 s.env).mapTrace .delay
      return ((), { s with env := env }) : FatalM ε Unit) s₂ = ⟨delay.map .delay, .ok ((), { s₂ with env := env₃ })⟩ := by
    show ((delay_ticks x 100000 s₂.env).mapTrace FatalEvent.delay >>= fun p => (pure ((), { s₂ with env := p.2 }) : Run _ _ _)) = _
    rw [hdelay, Run.bind_ok _ rfl]
    exact congrArg (Run.mk · _) (List.append_nil _)
  unfold log_fatal_exit
  rw [hcalls, Run.stateful_bind_silent (Run.stateful_modify _ _)]
  rw [Run.stateful_bind_silent (stringAt_eq (s := s₁) hmsg hshort), Run.stateful_bind_ok hconsole,
    Run.stateful_bind_ok hlogs, Run.stateful_bind_ok hdelays, htail]

end Whole

/-! ## A run -/

/-- A kernel with a block, a queue and a timer to give. -/
def oneOfEach : FatalExt Unit where
  toSyslogExt := oneBlock
  iosGetCurrentThreadId := fun env => (1, env)
  iosGetCurrentProcessId := fun env => (2, env)
  iosCreateMessageQueue := fun env => (3, env)
  iosDestroyMessageQueue := fun _ env => env
  iosCreateTimer := fun _ _ env => (4, env)
  iosReceiveMessage := fun _ env => env
  iosDestroyTimer := fun _ env => env

/-- A number with zeros in front of it, and its sign before these. -/
def zeroPadded (width : Nat) (n : U32) : List U8 :=
  let sign := if n.toInt < 0 then [0x2D] else []
  let digits := decimal 10 n.toInt.natAbs
  sign ++ List.replicate (width - sign.length - digits.length) 0x30 ++ digits

/-- An engine that knows the format of the time as well. -/
def clockEngine : Engine := fun fmt args =>
  match args with
  | [.int hrs, .int min, .int sec, .int msec] =>
    if fmt = stampFormat then
      zeroPadded 2 hrs ++ [0x3A] ++ zeroPadded 2 min ++ [0x3A] ++ zeroPadded 2 sec ++ [0x3A] ++ zeroPadded 3 msec ++
        [0x3A, 0x20]
    else plainEngine fmt args
  | _ => plainEngine fmt args

theorem decimal_length_le (fuel n : Nat) : (decimal fuel n).length ≤ fuel := by
  induction fuel generalizing n with
  | zero => exact Nat.le_refl 0
  | succ fuel ih =>
    unfold decimal
    rw [List.length_append]
    split
    · exact Nat.succ_le_succ (Nat.zero_le fuel)
    · exact Nat.succ_le_succ (ih (n / 10))

theorem zeroPadded_length_le {width : Nat} (h : width ≤ 11) (n : U32) : (zeroPadded width n).length ≤ 11 := by
  have hdigits := decimal_length_le 10 n.toInt.natAbs
  unfold zeroPadded
  simp only [List.length_append, List.length_replicate]
  split
  · simp only [List.length_singleton]
    omega
  · simp only [List.length_nil]
    omega

theorem clockEngine_line (t : CStr) : clockEngine lineFormat [.str t] = 0x0A :: t ++ [0x0A] := by
  simp [clockEngine, lineFormat, cstr, plainEngine]

/-- As `main` gives up, with no handle of its own. -/
def givesUp : Fatal := ⟨0x20, cstr "bsp_main.c", cstr "main", 0x97, cstr "exiting", []⟩

theorem givesUp_place : assertText clockEngine ⟨1, 2⟩ givesUp =
    cstr "ASSERT: file=bsp_main.c, function=main(), line=151, processID=2, threadID=1, " := by
  unfold assertText givesUp
  simp only [cstr, String.reduceToList, List.map_cons, List.map_nil, Char.reduceToNat]
  decide +kernel

theorem givesUp_name : log_get_fd (fun _ => noLog) (Vector.replicate 0x20 noLog) givesUp.handle = none := rfl

theorem givesUp_message : clockEngine givesUp.message givesUp.ap = cstr "exiting" := by
  unfold givesUp
  simp only [cstr, String.reduceToList, List.map_cons, List.map_nil, Char.reduceToNat]
  decide +kernel

theorem oneBlock_apart : HeapApart oneBlock clockEngine 0x2000 where
  block := by
    intro env a _ hin hblock
    have hin' : (a - 0x2000).toNat < 256 := hin
    have hblock' : (a - 0x1000).toNat < 256 := hblock
    bv_omega
  stamp := fun s => by
    have hhrs := zeroPadded_length_le (show 2 ≤ 11 by decide) s.hrs
    have hmin := zeroPadded_length_le (show 2 ≤ 11 by decide) s.min
    have hsec := zeroPadded_length_le (show 2 ≤ 11 by decide) s.sec
    have hmsec := zeroPadded_length_le (show 3 ≤ 11 by decide) s.msec
    unfold clockEngine Stamp.args
    dsimp only
    rw [if_pos rfl]
    simp only [List.length_append, List.length_cons, List.length_nil]
    omega

/-- What is written of it. -/
theorem givesUp_text : fatalText clockEngine ⟨1, 2⟩ (fun _ => noLog) (Vector.replicate 0x20 noLog) givesUp =
    cstr "ASSERT: file=bsp_main.c, function=main(), line=151, processID=2, threadID=1, exiting" := by
  unfold fatalText
  rw [givesUp_name, givesUp_place, givesUp_message]
  simp [nameText, cstr]

theorem givesUp_exit :
    let text := 0x0A :: (fatalText clockEngine ⟨1, 2⟩ (fun _ => noLog) (Vector.replicate 0x20 noLog) givesUp).take 255 ++ [0x0A]
    ∃ (handed : List Handed) (chunks : List CStr) (logged : List SyslogEvent) (delay : List DelayEvent) (mem : Mem)
        (s' : Syslog Unit),
      log_fatal_exit oneOfEach clockEngine true (fun _ => noLog) (Vector.replicate 0x20 noLog) 0x2000 0x3000 givesUp 256
          Syslog.start =
        ⟨handed.map .printed ++ (logged.map .syslog ++ (delay.map .delay ++
          [.panic 0x3000 (BitVec.ofNat 32 text.length) mem])), .ok ((), s')⟩ ∧
      handed.map Handed.string = chunks.map some ∧ chunks.flatten = text ∧
      holding.run ⟨none, none⟩ delay = some ⟨none, none⟩ ∧ HoldsStr mem 0x3000 (text.take 127) := by
  have hplace : (nameText clockEngine (log_get_fd (fun _ => noLog) (Vector.replicate 0x20 noLog) givesUp.handle) ++
      assertText clockEngine ⟨1, 2⟩ givesUp).length ≤ 256 := by
    rw [givesUp_name, givesUp_place]
    simp [nameText, cstr]
  have hlen : (clockEngine givesUp.message givesUp.ap).length < 2 ^ 32 := by
    rw [givesUp_message]
    simp [cstr]
  have hne : ∀ c ∈ fatalText clockEngine ⟨1, 2⟩ (fun _ => noLog) (Vector.replicate 0x20 noLog) givesUp, c ≠ 0 := by
    rw [givesUp_text]
    simp only [cstr, String.reduceToList, List.map_cons, List.map_nil, Char.reduceToNat]
    decide +kernel
  exact fatal_exit true clockEngine_line oneBlock_apart rfl rfl hplace hlen hne (by decide)

end Iosu.Bsp
