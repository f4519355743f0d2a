/-
  Iosu.Bsp.Server — the message loop of /dev/bsp (`main` in `bsp_main.c`).

  `mainIter` is one turn of the `for (;;)`, from a received message to its reply. What
  is kept between turns is the fd table, the process, and `result`, which is declared
  outside the loop. The client's memory comes with each message: the loop reads the
  request from it at `inPtr` and hands out the bytes at `outPtr`, when it needs them.
  The trace of a turn has its replies, what it does to the table, the handlers it
  starts and what these call.
-/

import Iosu.Bsp.HwRev
import Iosu.Entity.Methods
import Iosu.Lib.Switch
import Mathlib.Data.Fin.Basic

namespace Iosu.Bsp

open Iosu.Lib Iosu.Lib.Switch Iosu.Libc Iosu.Entity Iosu.Ios

variable {ε : Type}

/-! ## Messages and state -/

/-- The fields of an `IOSMessage` that the loop reads, as they stand in it, and
    `arg2`, the length of an IOCTL's input, which it does not. -/
structure IOSMessage where
  command : U32
  clientFD : U32
  arg0 : U32
  arg1 : U32
  arg2 : U32
  arg3 : U32
  arg4 : U32
  deriving DecidableEq, Repr

/-- `fd_t`. -/
structure FdT where
  active : Bool
  permissions : U32
  deriving DecidableEq, Repr

abbrev FdTable := Vector FdT 0x20

structure Server (ε : Type) where
  bsp_fdtable : FdTable
  result : U32
  process : Process ε

/-- The handlers of the nine commands. -/
inductive Handler where
  | getEntityVersion
  | getHardwareVersion
  | getConsoleMask
  | query
  | read
  | write
  | init
  | shutdown
  | getConsoleType
  deriving DecidableEq, Repr

inductive Event (σ : Type) where
  | opened (fd : Fin 0x20) (permissions : U32)
  | closed (fd : Fin 0x20)
  /-- An IOCTL comes to the switch. -/
  | dispatch (fd : Fin 0x20) (cmd : U32)
  /-- A handler is started, with these credentials if it takes any. -/
  | handler (h : Handler) (clientCredentials : Option U32)
  | call (c : Call σ)
  | reply (result : U32)

abbrev Turn (ε α : Type) := Run (Event (Process ε)) Fault α

/-! ## The request at `inPtr` -/

/-- What an IOCTL's cases share. -/
structure IoctlArgs where
  inPtr : U32
  outPtr : U32
  permissions : U32

namespace IoctlArgs

variable (args : IoctlArgs) (mem : Mem)

def entityName : CStr := (mem.view args.inPtr).bytes 0 32
def inst : U32 := bswap32 ((mem.view args.inPtr).load32 0x20)
def attributeName : CStr := (mem.view args.inPtr).bytes 0x24 32
def size : U32 := bswap32 ((mem.view args.inPtr).load32 0x44)
def inData : Buf := (mem.view args.inPtr).drop 0x48
def outData : Buf := mem.view args.outPtr

end IoctlArgs

/-! ## The cases of the switch -/

/-- What the cases read and write. -/
structure Ioctl (ε : Type) where
  result : U32
  process : Process ε
  mem : Mem

/-- A handler, started. -/
def start {α : Type} (h : Handler) (clientCredentials : Option U32) (p : Prog (Process ε) α) : Turn ε α := do
  Run.emit (.handler h clientCredentials)
  p.mapTrace .call

/-- One that takes credentials: it is handed those that the event shows. -/
abbrev startAs {α : Type} (h : Handler) (clientCredentials : U32) (p : U32 → Prog (Process ε) α) : Turn ε α :=
  start h (some clientCredentials) (p clientCredentials)

section Cases

variable [DataMem (Process ε)] (fuel : Nat) (x : Ext ε) (bspEntityList : List (BspEntity (Process ε)))
  (args : IoctlArgs)

/-- `if (__builtin_bswap32(args->size) != 4)`, as four of the cases have it. -/
def sizedCase (body : Ioctl ε → Turn ε (Ioctl ε)) (s : Ioctl ε) : Turn ε (Ioctl ε) :=
  if args.size s.mem ≠ 4 then pure { s with result := BSP_RVAL_SPECIFIED_SIZE_INVALID } else body s

def caseGetEntityVersion : Ioctl ε → Turn ε (Ioctl ε) := sizedCase args fun s => do
  let (ret, version) ← start .getEntityVersion none (bspGetEntityVersion bspEntityList (args.entityName s.mem))
  match version with
  | none => return { s with result := ret }
  | some version => return { s with result := ret, mem := s.mem.store args.outPtr (Buf.ofU32 version) }

def caseGetHardwareVersion : Ioctl ε → Turn ε (Ioctl ε) := sizedCase args fun s => do
  let ((ret, version), process) ← start .getHardwareVersion none (Run.lift (bspMethodGetHardwareVersion x s.process))
  return { result := ret, process := process, mem := s.mem.store args.outPtr (Buf.ofU32 version) }

def caseGetConsoleMask : Ioctl ε → Turn ε (Ioctl ε) := sizedCase args fun s => do
  let (ret, mask) ← start .getConsoleMask none (pure (bspGetConsoleMask s.process.bspBoardConfig))
  return { s with result := ret, mem := s.mem.store args.outPtr (Buf.ofU32 mask) }

def caseQuery (s : Ioctl ε) : Turn ε (Ioctl ε) := do
  let (ret, out, process) ← startAs .query args.permissions fun clientCredentials =>
    bspMethodQuery bspEntityList (args.entityName s.mem) (args.inst s.mem) (args.attributeName s.mem)
      (args.size s.mem) (args.outData s.mem) clientCredentials s.process
  return { result := ret, process := process, mem := Mem.put args.outPtr out }

def caseRead (s : Ioctl ε) : Turn ε (Ioctl ε) := do
  let (ret, out, process) ← startAs .read args.permissions fun clientCredentials =>
    bspMethodRead bspEntityList (args.entityName s.mem) (args.inst s.mem) (args.attributeName s.mem)
      (args.size s.mem) (args.outData s.mem) clientCredentials s.process
  return { result := ret, process := process, mem := Mem.put args.outPtr out }

def caseWrite (s : Ioctl ε) : Turn ε (Ioctl ε) := do
  let (ret, process) ← startAs .write args.permissions fun clientCredentials =>
    bspMethodWrite bspEntityList (args.entityName s.mem) (args.inst s.mem) (args.attributeName s.mem)
      (args.size s.mem) (args.inData s.mem) clientCredentials s.process
  return { s with result := ret, process := process }

def caseInit (s : Ioctl ε) : Turn ε (Ioctl ε) := do
  let (ret, process) ← startAs .init args.permissions fun clientCredentials =>
    bspMethodInit bspEntityList (args.entityName s.mem) (args.inst s.mem) (args.attributeName s.mem) fuel
      (args.size s.mem) (some (args.inData s.mem)) clientCredentials s.process
  return { s with result := ret, process := process }

def caseShutdown (s : Ioctl ε) : Turn ε (Ioctl ε) := do
  let (ret, process) ← startAs .shutdown args.permissions fun clientCredentials =>
    bspMethodShutdown bspEntityList (args.entityName s.mem) (args.inst s.mem) (args.attributeName s.mem)
      clientCredentials s.process
  return { s with result := ret, process := process }

def caseGetConsoleType : Ioctl ε → Turn ε (Ioctl ε) := sizedCase args fun s => do
  let (ret, consoleType) ← start .getConsoleType none (pure (bspGetConsoleType s.process.bspBoardConfig))
  return { s with result := ret, mem := s.mem.store args.outPtr (Buf.ofU32 consoleType) }

def caseDefault (s : Ioctl ε) : Turn ε (Ioctl ε) := return { s with result := IOS_ERROR_INVALID }

/-- The cases in their order. None of them ends in a `break`. -/
def ioctlCases : List (Case U32 (Event (Process ε)) Fault (Ioctl ε)) :=
  [{ label := BSP_IOCTL_GET_ENTITY_VERSION, body := caseGetEntityVersion bspEntityList args, breaks := false },
   { label := BSP_IOCTL_GET_HARDWARE_VERSION, body := caseGetHardwareVersion x args, breaks := false },
   { label := BSP_IOCTL_GET_CONSOLE_MASK, body := caseGetConsoleMask args, breaks := false },
   { label := BSP_IOCTL_METHOD_QUERY, body := caseQuery bspEntityList args, breaks := false },
   { label := BSP_IOCTL_METHOD_READ, body := caseRead bspEntityList args, breaks := false },
   { label := BSP_IOCTL_METHOD_WRITE, body := caseWrite bspEntityList args, breaks := false },
   { label := BSP_IOCTL_METHOD_INIT, body := caseInit fuel bspEntityList args, breaks := false },
   { label := BSP_IOCTL_METHOD_SHUTDOWN, body := caseShutdown bspEntityList args, breaks := false },
   { label := BSP_IOCTL_GET_CONSOLE_TYPE, body := caseGetConsoleType args, breaks := false }]

end Cases

/-! ## The fd table -/

/-- `fd > 0x1F || !bsp_fdtable[fd].active`: the slot, when the check lets it pass. -/
def activeSlot (bsp_fdtable : FdTable) (fd : Int) : Res Fault (Option (Fin 0x20)) :=
  if 0x1F < fd then .ok none
  else if h : 0 ≤ fd ∧ fd < 0x20 then
    let slot : Fin 0x20 := ⟨fd.toNat, by omega⟩
    if (bsp_fdtable.get slot).active then .ok (some slot) else .ok none
  else .fault (.fdIndex fd)

/-- The first slot that is not in use. -/
def freeSlot (bsp_fdtable : FdTable) : Option (Fin 0x20) := Fin.find? fun fd => !(bsp_fdtable.get fd).active

/-- `clientFD` as the loop takes it. -/
def IOSMessage.fd (msg : IOSMessage) : Int := (bswap32 msg.clientFD).toInt

def IOSMessage.args (msg : IOSMessage) (permissions : U32) : IoctlArgs where
  inPtr := bswap32 msg.arg1
  outPtr := bswap32 msg.arg3
  permissions := permissions

/-! ## One turn of the loop -/

/-- `reply:`. -/
def reply (srv : Server ε) (mem : Mem) : Turn ε (Server ε × Mem) := do
  Run.emit (.reply srv.result)
  return (srv, mem)

/-- One turn of the `for (;;)`. `mem` is the client's memory, taken to lie apart from
    what the server itself keeps: no pointer of a request reaches the fd table, the
    configuration or another of the server's own data. -/
def mainIter [DataMem (Process ε)] (fuel : Nat) (x : Ext ε) (bspEntityList : List (BspEntity (Process ε)))
    (srv : Server ε) (msg : IOSMessage) (mem : Mem) : Turn ε (Server ε × Mem) := do
  let cmd := bswap32 msg.command
  if cmd = IOS_CLOSE then
    match ← Run.lift (activeSlot srv.bsp_fdtable msg.fd) with
    | none => reply { srv with result := IOS_ERROR_NOEXISTS } mem
    | some fd =>
      Run.emit (.closed fd)
      reply { srv with bsp_fdtable := srv.bsp_fdtable.set fd ⟨false, 0⟩ fd.isLt } mem
  else if cmd = IOS_IOCTL then
    match ← Run.lift (activeSlot srv.bsp_fdtable msg.fd) with
    | none => reply { srv with result := IOS_ERROR_NOEXISTS } mem
    | some fd =>
      let cmd := bswap32 msg.arg0
      Run.emit (.dispatch fd cmd)
      let s ← switch cmd (ioctlCases fuel x bspEntityList (msg.args (srv.bsp_fdtable.get fd).permissions)) caseDefault
        { result := srv.result, process := srv.process, mem := mem }
      reply { srv with result := s.result, process := s.process } s.mem
  else if cmd = IOS_OPEN then
    let perms_l := bswap32 msg.arg4
    match freeSlot srv.bsp_fdtable with
    | none => reply srv mem
    | some fd =>
      Run.emit (.opened fd perms_l)
      reply { srv with bsp_fdtable := srv.bsp_fdtable.set fd ⟨true, perms_l⟩ fd.isLt } mem
  else reply { srv with result := IOS_ERROR_INVALID } mem

/-! ## The turns, one by one -/

theorem reply_trace (srv : Server ε) (mem : Mem) : (reply srv mem).trace = [.reply srv.result] := by
  unfold reply
  rw [Run.emit_bind_trace]
  rfl

theorem reply_res (srv : Server ε) (mem : Mem) : (reply srv mem).res = .ok (srv, mem) := by
  unfold reply
  rw [Run.emit_bind_res]
  rfl

theorem reply_eq (srv : Server ε) (mem : Mem) : reply srv mem = ⟨[.reply srv.result], .ok (srv, mem)⟩ := by
  ext1
  · exact reply_trace srv mem
  · exact reply_res srv mem

/-- An fd in range stands for its slot, if that is active. -/
theorem activeSlot_inRange {t : FdTable} {fd : Int} {slot : Fin 0x20} (hfd : fd = (slot.val : Int)) :
    activeSlot t fd = if (t.get slot).active then .ok (some slot) else .ok none := by
  have hlt := slot.isLt
  have h1 : ¬ 0x1F < fd := by omega
  have h2 : 0 ≤ fd ∧ fd < 0x20 := by omega
  have hslot : (⟨fd.toNat, by omega⟩ : Fin 0x20) = slot := by
    apply Fin.ext
    show fd.toNat = slot.val
    omega
  unfold activeSlot
  rw [if_neg h1, dif_pos h2]
  dsimp only
  rw [hslot]

theorem activeSlot_active {t : FdTable} {fd : Int} {slot : Fin 0x20} (hfd : fd = (slot.val : Int))
    (ha : (t.get slot).active = true) : activeSlot t fd = .ok (some slot) := by
  rw [activeSlot_inRange hfd, if_pos ha]

theorem activeSlot_inactive {t : FdTable} {fd : Int} {slot : Fin 0x20} (hfd : fd = (slot.val : Int))
    (ha : (t.get slot).active = false) : activeSlot t fd = .ok none := by
  rw [activeSlot_inRange hfd, if_neg (by simp [ha])]

theorem activeSlot_above {t : FdTable} {fd : Int} (h : 0x1F < fd) : activeSlot t fd = .ok none := if_pos h

/-- A negative fd passes the check of the upper bound. -/
theorem activeSlot_negative {t : FdTable} {fd : Int} (h : fd < 0) : activeSlot t fd = .fault (.fdIndex fd) := by
  unfold activeSlot
  rw [if_neg (by omega), dif_neg (by omega)]

/-- Every outcome of the check. -/
theorem activeSlot_cases (t : FdTable) (fd : Int) :
    (fd < 0 ∧ activeSlot t fd = .fault (.fdIndex fd)) ∨
    ((0x1F < fd ∨ ∃ slot : Fin 0x20, fd = (slot.val : Int) ∧ (t.get slot).active = false) ∧ activeSlot t fd = .ok none) ∨
    ∃ slot : Fin 0x20, fd = (slot.val : Int) ∧ (t.get slot).active = true ∧ activeSlot t fd = .ok (some slot) := by
  by_cases hneg : fd < 0
  · exact Or.inl ⟨hneg, activeSlot_negative hneg⟩
  · by_cases habove : 0x1F < fd
    · exact Or.inr (Or.inl ⟨Or.inl habove, activeSlot_above habove⟩)
    · obtain ⟨n, rfl⟩ := Int.eq_ofNat_of_zero_le (not_lt.mp hneg)
      have hn : n < 0x20 := by omega
      cases ha : (t.get ⟨n, hn⟩).active with
      | false => exact Or.inr (Or.inl ⟨Or.inr ⟨⟨n, hn⟩, rfl, ha⟩, activeSlot_inactive rfl ha⟩)
      | true => exact Or.inr (Or.inr ⟨⟨n, hn⟩, rfl, ha, activeSlot_active rfl ha⟩)

/-- What the cases find when an IOCTL comes to the switch. -/
def Server.ioctl (srv : Server ε) (mem : Mem) : Ioctl ε where
  result := srv.result
  process := srv.process
  mem := mem

/-- The IOCTL's arguments, with the credentials of its session. -/
def Server.args (srv : Server ε) (msg : IOSMessage) (fd : Fin 0x20) : IoctlArgs :=
  msg.args (srv.bsp_fdtable.get fd).permissions

section Turns

variable [DataMem (Process ε)] {fuel : Nat} {x : Ext ε} {es : List (BspEntity (Process ε))} {srv : Server ε}
  {msg : IOSMessage} {mem : Mem}

theorem ioctl_ne_close : IOS_IOCTL ≠ IOS_CLOSE := by decide
theorem open_ne_close : IOS_OPEN ≠ IOS_CLOSE := by decide
theorem open_ne_ioctl : IOS_OPEN ≠ IOS_IOCTL := by decide

/-- A CLOSE or an IOCTL of an fd that names no session. -/
theorem mainIter_noSession (hc : bswap32 msg.command = IOS_CLOSE ∨ bswap32 msg.command = IOS_IOCTL)
    (hs : activeSlot srv.bsp_fdtable msg.fd = .ok none) :
    mainIter fuel x es srv msg mem = reply { srv with result := IOS_ERROR_NOEXISTS } mem := by
  rcases hc with hc | hc
  · simp only [mainIter, hc, if_true, hs, Run.lift_ok_bind]
  · simp only [mainIter, hc, hs, Run.lift_ok_bind]
    rw [if_neg ioctl_ne_close, if_pos trivial]

theorem mainIter_badFd (hc : bswap32 msg.command = IOS_CLOSE ∨ bswap32 msg.command = IOS_IOCTL) {f : Fault}
    (hs : activeSlot srv.bsp_fdtable msg.fd = .fault f) : mainIter fuel x es srv msg mem = Run.fault f := by
  rcases hc with hc | hc
  · simp only [mainIter, hc, if_true, hs, Run.lift_fault_bind]
  · simp only [mainIter, hc, hs, Run.lift_fault_bind]
    rw [if_neg ioctl_ne_close, if_pos trivial]

theorem mainIter_close (hc : bswap32 msg.command = IOS_CLOSE) {fd : Fin 0x20}
    (hs : activeSlot srv.bsp_fdtable msg.fd = .ok (some fd)) :
    mainIter fuel x es srv msg mem = (Run.emit (.closed fd) >>= fun _ =>
      reply { srv with bsp_fdtable := srv.bsp_fdtable.set fd ⟨false, 0⟩ fd.isLt } mem) := by
  simp only [mainIter, hc, if_true, hs, Run.lift_ok_bind]

theorem mainIter_ioctl (hc : bswap32 msg.command = IOS_IOCTL) {fd : Fin 0x20}
    (hs : activeSlot srv.bsp_fdtable msg.fd = .ok (some fd)) :
    mainIter fuel x es srv msg mem = (Run.emit (.dispatch fd (bswap32 msg.arg0)) >>= fun _ =>
      switch (bswap32 msg.arg0) (ioctlCases fuel x es (srv.args msg fd)) caseDefault (srv.ioctl mem) >>= fun s =>
      reply { srv with result := s.result, process := s.process } s.mem) := by
  simp only [mainIter, hc, hs, Run.lift_ok_bind]
  rw [if_neg ioctl_ne_close, if_pos trivial]
  rfl

theorem mainIter_open (hc : bswap32 msg.command = IOS_OPEN) {fd : Fin 0x20}
    (hs : freeSlot srv.bsp_fdtable = some fd) :
    mainIter fuel x es srv msg mem = (Run.emit (.opened fd (bswap32 msg.arg4)) >>= fun _ =>
      reply { srv with bsp_fdtable := srv.bsp_fdtable.set fd ⟨true, bswap32 msg.arg4⟩ fd.isLt } mem) := by
  simp only [mainIter, hc, hs]
  rw [if_neg open_ne_close, if_neg open_ne_ioctl, if_pos trivial]

theorem mainIter_openFull (hc : bswap32 msg.command = IOS_OPEN) (hs : freeSlot srv.bsp_fdtable = none) :
    mainIter fuel x es srv msg mem = reply srv mem := by
  simp only [mainIter, hc, hs]
  rw [if_neg open_ne_close, if_neg open_ne_ioctl, if_pos trivial]

theorem mainIter_other (h1 : bswap32 msg.command ≠ IOS_CLOSE) (h2 : bswap32 msg.command ≠ IOS_IOCTL)
    (h3 : bswap32 msg.command ≠ IOS_OPEN) :
    mainIter fuel x es srv msg mem = reply { srv with result := IOS_ERROR_INVALID } mem := by
  simp only [mainIter]
  rw [if_neg h1, if_neg h2, if_neg h3]

/-- Everything that one turn can be. -/
theorem mainIter_cases (fuel : Nat) (x : Ext ε) (es : List (BspEntity (Process ε))) (srv : Server ε) (msg : IOSMessage)
    (mem : Mem) :
    (msg.fd < 0 ∧ mainIter fuel x es srv msg mem = Run.fault (.fdIndex msg.fd)) ∨
    (∃ r, mainIter fuel x es srv msg mem = ⟨[.reply r], .ok ({ srv with result := r }, mem)⟩) ∨
    (∃ fd : Fin 0x20, bswap32 msg.command = IOS_CLOSE ∧ msg.fd = (fd.val : Int) ∧
      mainIter fuel x es srv msg mem = ⟨[.closed fd, .reply srv.result],
        .ok ({ srv with bsp_fdtable := srv.bsp_fdtable.set fd ⟨false, 0⟩ fd.isLt }, mem)⟩) ∨
    (∃ fd : Fin 0x20, bswap32 msg.command = IOS_IOCTL ∧ msg.fd = (fd.val : Int) ∧ (srv.bsp_fdtable.get fd).active = true ∧
      mainIter fuel x es srv msg mem = (Run.emit (.dispatch fd (bswap32 msg.arg0)) >>= fun _ =>
        switch (bswap32 msg.arg0) (ioctlCases fuel x es (srv.args msg fd)) caseDefault (srv.ioctl mem) >>= fun s =>
        reply { srv with result := s.result, process := s.process } s.mem)) ∨
    (∃ fd : Fin 0x20, bswap32 msg.command = IOS_OPEN ∧ freeSlot srv.bsp_fdtable = some fd ∧
      mainIter fuel x es srv msg mem = ⟨[.opened fd (bswap32 msg.arg4), .reply srv.result],
        .ok ({ srv with bsp_fdtable := srv.bsp_fdtable.set fd ⟨true, bswap32 msg.arg4⟩ fd.isLt }, mem)⟩) := by
  by_cases hclose : bswap32 msg.command = IOS_CLOSE
  · rcases activeSlot_cases srv.bsp_fdtable msg.fd with ⟨hneg, hs⟩ | ⟨-, hs⟩ | ⟨fd, hfd, -, hs⟩
    · exact Or.inl ⟨hneg, mainIter_badFd (Or.inl hclose) hs⟩
    · refine Or.inr (Or.inl ⟨IOS_ERROR_NOEXISTS, ?_⟩)
      rw [mainIter_noSession (Or.inl hclose) hs, reply_eq]
    · refine Or.inr (Or.inr (Or.inl ⟨fd, hclose, hfd, ?_⟩))
      rw [mainIter_close hclose hs, reply_eq]
      rfl
  by_cases hioctl : bswap32 msg.command = IOS_IOCTL
  · rcases activeSlot_cases srv.bsp_fdtable msg.fd with ⟨hneg, hs⟩ | ⟨-, hs⟩ | ⟨fd, hfd, ha, hs⟩
    · exact Or.inl ⟨hneg, mainIter_badFd (Or.inr hioctl) hs⟩
    · refine Or.inr (Or.inl ⟨IOS_ERROR_NOEXISTS, ?_⟩)
      rw [mainIter_noSession (Or.inr hioctl) hs, reply_eq]
    · exact Or.inr (Or.inr (Or.inr (Or.inl ⟨fd, hioctl, hfd, ha, mainIter_ioctl hioctl hs⟩)))
  by_cases hopen : bswap32 msg.command = IOS_OPEN
  · cases hs : freeSlot srv.bsp_fdtable with
    | none =>
      refine Or.inr (Or.inl ⟨srv.result, ?_⟩)
      rw [mainIter_openFull hopen hs, reply_eq]
    | some fd =>
      refine Or.inr (Or.inr (Or.inr (Or.inr ⟨fd, hopen, rfl, ?_⟩)))
      rw [mainIter_open hopen hs, reply_eq]
      rfl
  · refine Or.inr (Or.inl ⟨IOS_ERROR_INVALID, ?_⟩)
    rw [mainIter_other hclose hioctl hopen, reply_eq]

end Turns

/-- The table and the process when the loop begins: `result` is not set. -/
def Server.boot (result : U32) (process : Process ε) : Server ε where
  bsp_fdtable := Vector.replicate 0x20 ⟨false, 0⟩
  result := result
  process := process

/-! ## A server at rest -/

section Rest

/-- Surroundings in which nothing happens. -/
def idleExt : Ext Unit where
  gpio := ⟨fun _ _ env => (BSP_RVAL_OK, env), fun env => (BSP_RVAL_OK, 1, env)⟩
  hwChiprevid := fun _ => 0
  ltChiprevid := fun _ => 0
  bspCheckCortado := fun env => (0, 0, env)
  bspEepromRead := fun _ word env => (IOS_ERROR_OK, word, env)
  iosCreateSemaphore := fun env => (0, env)
  iosWaitSemaphore := fun _ env => (IOS_ERROR_OK, env)
  iosSignalSemaphore := fun _ env => env

def freshProcess : Process Unit where
  drv := { status := .uninitialised, env := (), wire := [] }
  bspHardwareVersion := 0
  bspBoardConfig := BcConfig.zero
  pvr := ⟨0, 0⟩
  eePVRAddr := 0x0042
  bc_log_handle := -1
  bc_initialised := false
  s_crc32Value := 0
  log := { log_mutex := -1, log_fds := Vector.replicate 0x20 ⟨[], 0, false, 0⟩, active_log_fds := 0 }

instance : DataMem (Process Unit) := ⟨fun _ _ => 0⟩

/-- A session on fd 0. -/
def oneSession (permissions : U32) : Server Unit where
  bsp_fdtable := (Vector.replicate 0x20 ⟨false, 0⟩).set 0 ⟨true, permissions⟩
  result := 0
  process := freshProcess

/-- A request, at address 0, that declares a size. -/
def sizeMem (size : U8) : Mem := fun a => if a = 0x44 then size else 0

end Rest

end Iosu.Bsp
