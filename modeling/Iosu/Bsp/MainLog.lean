/-
  Iosu.Bsp.MainLog — the handle that `main` hands to `log_fatal` (`bsp_main.c`, `log.c`).

  `log_get_fd` turns away the handles from 0x20 on, but no negative one: with -1 it looks at
  what lies in front of `log_fds` (`handleSafe_iff`). That is what `log_fd` starts with and
  what a `log_open` that fails returns, so a run of `main` that ends before `log_open`, or in
  which that fails, comes to `log_fatal` with it (`main_log_fd`).
-/

import Iosu.Bsp.Boot
import Iosu.Bsp.LogFatal
import Iosu.Bsp.LogTable
import Iosu.Bsp.Server

namespace Iosu.Bsp

open Iosu.Lib Iosu.Libc Iosu.Entity Iosu.Ios

variable {ε : Type}

/-! ## Handles -/

/-- Where `log_get_fd` looks at `log_fds`, if it does. -/
def log_get_fd_index (handle : U32) : Option Int := if handle.toInt < 0x20 then some handle.toInt else none

/-- Nothing but the 32 slots is looked at, and every other handle is that of no log. -/
structure HandleSafe (handle : U32) : Prop where
  index : ∀ i, log_get_fd_index handle = some i → 0 ≤ i ∧ i < 0x20
  getFd : ∀ outside outside' log_fds, log_get_fd outside log_fds handle = log_get_fd outside' log_fds handle
  fatal : ∀ engine caller outside outside' log_fds msg (f : Fatal) mem, f.handle = handle →
    log_fatal engine caller outside log_fds msg f mem = log_fatal engine caller outside' log_fds msg f mem
  noLog : handle.toInt < 0 ∨ 0x20 ≤ handle.toInt → ∀ outside log_fds, log_get_fd outside log_fds handle = none

theorem handleSafe_of_nonneg {handle : U32} (h : 0 ≤ handle.toInt) : HandleSafe handle := by
  have hgetFd : ∀ outside outside' log_fds, log_get_fd outside log_fds handle = log_get_fd outside' log_fds handle := by
    intro outside outside' log_fds
    unfold log_get_fd
    by_cases hlt : handle.toInt < 0x20
    · have hnat : handle.toNat < 0x20 := by
        rw [BitVec.toInt_eq_toNat_cond] at h hlt
        split at hlt <;> omega
      simp only [hnat, dif_pos]
    · rw [if_neg hlt, if_neg hlt]
  refine ⟨?_, hgetFd, ?_, ?_⟩
  · intro i hi
    unfold log_get_fd_index at hi
    split at hi
    · cases hi
      exact ⟨h, by assumption⟩
    · cases hi
  · intro engine caller outside outside' log_fds msg f mem hhandle
    unfold log_fatal
    rw [hhandle, hgetFd outside outside' log_fds]
  · intro hout outside log_fds
    unfold log_get_fd
    rw [if_neg (by omega)]

/-- The check of the upper bound is all there is. -/
theorem handleSafe_iff (handle : U32) : HandleSafe handle ↔ 0 ≤ handle.toInt := by
  refine ⟨fun h => ?_, handleSafe_of_nonneg⟩
  by_cases hlt : handle.toInt < 0x20
  · exact (h.index handle.toInt (if_pos hlt)).1
  · omega

/-! ## `main` -/

/-- What `main` calls of the kernel. -/
structure MainExt (ε : Type) extends Boot.BootExt ε where
  iosCreateCrossProcessHeap : ε → IosError × ε
  iosCreateMessageQueue : ε → U32 × ε
  /-- Of /dev/bsp, with the queue. -/
  iosRegisterResourceManager : U32 → ε → IosError × ε
  iosDeviceAssosciate : ε → IosError × ε
  iosSetBSPReady : ε → ε
  /-- The answer, and the message with the memory it points into. -/
  iosReceiveMessage : U32 → ε → IosError × IOSMessage × Mem × ε
  iosResourceReply : IOSMessage → U32 → Mem → ε → ε

/-- How `main` comes to its end. -/
inductive MainEnd where
  /-- It returns without a heap. -/
  | returns
  /-- `report_err`, with what `log_fd` is there. -/
  | log_fatal (log_fd ioserr bsperr : U32)
  deriving DecidableEq, Repr

section Main

variable (x : MainExt ε)

/-- `bspInitEssential`, with the `log_fd` that it sets. -/
def bspInitEssentialLog : BootM ε (U32 × BspRval) := do
  Boot.observed (callExt fun env => ((), x.clearEntities env))
  let log_fd ← Boot.observed (log_open x.toExt (cstr "BSP") 1 3)
  Boot.observed (callExt fun env => ((), x.enableExi env))
  let error ← Boot.bootVersions x.toBootExt
  return (log_fd, error)

/-- The installations that it goes on with are commented out. -/
def bspInstall : BootM ε (U32 × BspRval) := bspInitEssentialLog x

/-- The `for (;;)`, for at most `turns` messages. -/
def mainLoop [DataMem (Process ε)] (fuel : Nat) (bspEntityList : List (BspEntity (Process ε))) (devbsp_msgqueue_id : U32) :
    Nat → Server ε → Res Fault (Process ε)
  | 0, _ => .spin
  | turns + 1, srv => do
    let (ret, msg, mem, env) := x.iosReceiveMessage devbsp_msgqueue_id srv.process.drv.env
    let srv := { srv with process := { srv.process with drv := { srv.process.drv with env := env } } }
    if ret ≠ IOS_ERROR_OK then return srv.process
    let (srv, mem) ← (mainIter fuel x.toExt bspEntityList srv msg mem).res
    let env := x.iosResourceReply msg srv.result mem srv.process.drv.env
    mainLoop fuel bspEntityList devbsp_msgqueue_id turns
      { srv with process := { srv.process with drv := { srv.process.drv with env := env } } }

/-- `result` is what the variable of the loop holds before the first message. -/
def mainServes [DataMem (Process ε)] (fuel turns : Nat) (bspEntityList : List (BspEntity (Process ε)))
    (devbsp_msgqueue_id result : U32) : BspM ε Unit := fun b => do
  let b ← mainLoop x fuel bspEntityList devbsp_msgqueue_id turns (Server.boot result b)
  return ((), b)

def main [DataMem (Process ε)] (fuel turns : Nat) (bspEntityList : List (BspEntity (Process ε))) (result : U32) :
    BspM ε MainEnd := do
  let ret ← callExt x.iosCreateCrossProcessHeap
  if ret.toInt < IOS_ERROR_OK.toInt then return .returns
  let devbsp_msgqueue_id ← callExt x.iosCreateMessageQueue
  if devbsp_msgqueue_id.toInt < IOS_ERROR_OK.toInt then return .log_fatal (-1) devbsp_msgqueue_id 0
  let ret ← callExt (x.iosRegisterResourceManager devbsp_msgqueue_id)
  if ret ≠ IOS_ERROR_OK then return .log_fatal (-1) ret 0
  let ret ← callExt x.iosDeviceAssosciate
  if ret ≠ IOS_ERROR_OK then return .log_fatal (-1) ret 0
  let (log_fd, ret) ← fun b => (bspInstall x b).res
  if ret ≠ 0 then return .log_fatal log_fd 0 ret
  callExt fun env => ((), x.iosSetBSPReady env)
  mainServes x fuel turns bspEntityList devbsp_msgqueue_id result
  return .log_fatal log_fd 0 0

/-- With the handle left out, it is `bspInitEssential`. -/
theorem bspInitEssentialLog_boot (b : Process ε) :
    Boot.bspInitEssential x.toBootExt b = (bspInitEssentialLog x >>= fun p => pure p.2) b := by
  obtain ⟨log_fd, log, env, hopens⟩ := Boot.initEssential_opens x.toBootExt b
  have hboot : Boot.bspInitEssential x.toBootExt b = Boot.bootVersions x.toBootExt (b.logged log env) :=
    hopens fun _ => Boot.bootVersions x.toBootExt
  have hlog : bspInitEssentialLog x b = (Boot.bootVersions x.toBootExt >>= fun error => pure (log_fd, error) : BootM ε _)
      (b.logged log env) := hopens fun log_fd => Boot.bootVersions x.toBootExt >>= fun error => pure (log_fd, error)
  rw [hboot, Run.stateful_bind, hlog, Run.stateful_bind]
  rcases Boot.bootVersions x.toBootExt (b.logged log env) with ⟨t, r⟩
  cases r with
  | ok p =>
    show (⟨t, .ok p⟩ : Run BootEvent Fault (BspRval × Process ε)) = ⟨(t ++ []) ++ [], .ok p⟩
    rw [List.append_nil, List.append_nil]
  | fault f => rfl
  | spin => rfl

end Main

/-! ## The way to `log_open` -/

section Answers

variable (x : MainExt ε) (env : ε)

def queueAnswer : U32 × ε := x.iosCreateMessageQueue (x.iosCreateCrossProcessHeap env).2

def managerAnswer : IosError × ε := x.iosRegisterResourceManager (queueAnswer x env).1 (queueAnswer x env).2

def deviceAnswer : IosError × ε := x.iosDeviceAssosciate (managerAnswer x env).2

def semaphoreAnswer : U32 × ε := x.iosCreateSemaphore (x.clearEntities (deviceAnswer x env).2)

def waitAnswer : IosError × ε := x.iosWaitSemaphore (semaphoreAnswer x env).1 (semaphoreAnswer x env).2

/-- `main` comes to its `log_open`, and that has the semaphore. -/
structure LogOpens : Prop where
  queue : 0 ≤ (queueAnswer x env).1.toInt
  manager : (managerAnswer x env).1 = IOS_ERROR_OK
  device : (deviceAnswer x env).1 = IOS_ERROR_OK
  semaphore : 0 ≤ (semaphoreAnswer x env).1.toInt
  wait : (waitAnswer x env).1 = IOS_ERROR_OK

end Answers

theorem none_not_safe : ¬ HandleSafe (-1) := by
  rw [handleSafe_iff]
  decide

theorem callExt_start {α : Type} (f : ε → α × ε) (env : ε) :
    callExt f (Process.start env) = .ok ((f env).1, Process.start (f env).2) := rfl

/-- The first `log_open` of the process gets slot 0, or none. -/
theorem log_open_first (x : Ext ε) (c : LogCall) (env : ε) :
    ∃ handle b', log_open x c.name c.unk1 c.unk2 (Process.start env) = .ok (handle, b') ∧
      (HandleSafe handle ↔ 0 ≤ (x.iosCreateSemaphore env).1.toInt ∧
        (x.iosWaitSemaphore (x.iosCreateSemaphore env).1 (x.iosCreateSemaphore env).2).1 = IOS_ERROR_OK) := by
  have hmutex : (Process.start env).log.log_mutex.toInt < 0 := by
    show (-1 : U32).toInt < 0
    decide
  by_cases hcreated : ((Process.start env).created x).log.log_mutex.toInt < 0
  · refine ⟨-1, _, log_open_uncreated c hmutex hcreated, iff_of_false none_not_safe fun h => ?_⟩
    exact absurd h.1 (Int.not_le.mpr hcreated)
  rw [log_open_creates c hmutex hcreated]
  have hpos : 0 ≤ (x.iosCreateSemaphore env).1.toInt := Int.not_lt.mp hcreated
  by_cases hwait : (x.iosWaitSemaphore (x.iosCreateSemaphore env).1 (x.iosCreateSemaphore env).2).1 = IOS_ERROR_OK
  · have hfree : findLog c.name ((Process.start env).created x).log.log_fds.toList 0 none = (some 0, false) :=
      (blank_start env).finds_free (Nat.zero_lt_succ 31) (Or.inl rfl)
    refine ⟨_, _, log_open_scans (i := ⟨0, Nat.zero_lt_succ 31⟩) c hcreated hwait hfree, ?_⟩
    exact iff_of_true (handleSafe_of_nonneg (by decide)) ⟨hpos, hwait⟩
  · exact ⟨-1, _, log_open_refused c hcreated hwait, iff_of_false none_not_safe fun h => hwait h.2⟩

/-- What `log_fd` is behind `bspInstall`. -/
theorem bspInstall_log_fd (x : MainExt ε) (env : ε) {log_fd : U32} {ret : BspRval} {b : Process ε}
    (h : (bspInstall x (Process.start env)).res = .ok ((log_fd, ret), b)) :
    HandleSafe log_fd ↔ 0 ≤ (x.iosCreateSemaphore (x.clearEntities env)).1.toInt ∧
      (x.iosWaitSemaphore (x.iosCreateSemaphore (x.clearEntities env)).1
        (x.iosCreateSemaphore (x.clearEntities env)).2).1 = IOS_ERROR_OK := by
  obtain ⟨handle, b', hopen, hsafe⟩ := log_open_first x.toExt ⟨cstr "BSP", 1, 3⟩ (x.clearEntities env)
  unfold bspInstall bspInitEssentialLog at h
  rw [Run.stateful_bind_silent (Boot.observed_callExt _ _)] at h
  obtain ⟨p, hlog, h⟩ := Run.bind_res_ok.mp h
  obtain rfl : p = (handle, b') := Res.ok.inj (hlog.symm.trans hopen)
  -- what is behind leaves the handle
  obtain ⟨_, -, h⟩ := Run.bind_res_ok.mp h
  cases h
  exact hsafe

/-- `log_get_fd` is safe with the handles that are not negative. So a run of `main` that
    comes to `log_fatal` does so with a handle that is safe exactly when the kernel let it
    get to its `log_open`, and gave that the semaphore. -/
theorem main_log_fd [DataMem (Process ε)] (x : MainExt ε) (fuel turns : Nat) (es : List (BspEntity (Process ε)))
    (result : U32) (env : ε) :
    (∀ handle, HandleSafe handle ↔ 0 ≤ handle.toInt) ∧
      ∀ log_fd ioserr bsperr b,
        main x fuel turns es result (Process.start env) = .ok (.log_fatal log_fd ioserr bsperr, b) →
          (HandleSafe log_fd ↔ LogOpens x env) := by
  refine ⟨handleSafe_iff, fun log_fd ioserr bsperr b h => ?_⟩
  unfold main at h
  rw [bspM_bind_ok (callExt_start _ _)] at h
  split at h
  · cases h
  rw [bspM_bind_ok (callExt_start _ _)] at h
  split at h
  · rename_i hqueue
    cases h
    exact iff_of_false none_not_safe fun hopens => absurd hopens.queue (Int.not_le.mpr hqueue)
  rename_i hqueue
  rw [bspM_bind_ok (callExt_start _ _)] at h
  split at h
  · rename_i hmanager
    cases h
    exact iff_of_false none_not_safe fun hopens => hmanager hopens.manager
  rename_i hmanager
  rw [bspM_bind_ok (callExt_start _ _)] at h
  split at h
  · rename_i hdevice
    cases h
    exact iff_of_false none_not_safe fun hopens => hdevice hopens.device
  rename_i hdevice
  rw [bspM_bind] at h
  obtain ⟨⟨⟨fd, ret⟩, b₁⟩, hinstall, h⟩ := Res.bind_eq_ok.mp h
  have hsafe := bspInstall_log_fd x _ hinstall
  have hfd : log_fd = fd := by
    dsimp only at h
    split at h
    · cases h
      rfl
    · obtain ⟨_, -, h⟩ := Res.bind_eq_ok.mp h
      cases h
      rfl
  rw [hfd, hsafe]
  constructor
  · intro hlog
    exact ⟨Int.not_lt.mp hqueue, not_not.mp hmanager, not_not.mp hdevice, hlog.1, hlog.2⟩
  · intro hopens
    exact ⟨hopens.semaphore, hopens.wait⟩

/-- A kernel in which nothing happens, and which answers `queue` to IOS_CreateMessageQueue. -/
def MainExt.idle (queue : U32) : MainExt Unit where
  toExt := idleExt
  clearEntities := id
  enableExi := id
  bspRegisterEntity := fun _ env => (BSP_RVAL_OK, env)
  iosCreateCrossProcessHeap := fun env => (IOS_ERROR_OK, env)
  iosCreateMessageQueue := fun env => (queue, env)
  iosRegisterResourceManager := fun _ env => (IOS_ERROR_OK, env)
  iosDeviceAssosciate := fun env => (IOS_ERROR_OK, env)
  iosSetBSPReady := id
  iosReceiveMessage := fun _ env => (IOS_ERROR_INVALID, ⟨0, 0, 0, 0, 0, 0, 0⟩, fun _ => 0, env)
  iosResourceReply := fun _ _ _ env => env

/-- With its queue, `main` ends behind `log_open`. -/
theorem idle_log_fd : HandleSafe 0 ↔ LogOpens (MainExt.idle 0) () :=
  (main_log_fd (MainExt.idle 0) 0 0 [] 0 ()).2 0 0 0x800 _ rfl

/-- Without it, before. -/
theorem queue_log_fd : ∃ b, main (MainExt.idle IOS_ERROR_INVALID) 0 0 [] 0 (Process.start ()) =
    .ok (.log_fatal (-1) IOS_ERROR_INVALID 0, b) ∧ ¬ HandleSafe (-1) :=
  ⟨_, rfl, fun h => absurd (h.index (-1) rfl).1 (by decide)⟩

end Iosu.Bsp
