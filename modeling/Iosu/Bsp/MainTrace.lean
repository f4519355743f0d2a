/-
  Iosu.Bsp.MainTrace — `main` as its kernel sees it, and the protocol it keeps.

  `Traced.main` is `main` (`bsp_main.c`) with what it does in its trace: the answer of each
  call of the kernel, the boot events of `bspInstall`, and each turn of the loop between the
  message's arrival and its IOS_ResourceReply. With the trace left out it is `Bsp.main`
  (`main_erases`).

  `protocol` is what a kernel may rely on, as a monitor: the stages of the initialisation
  in their order, each only behind one that was answered well; then messages, one at a
  time, each answered once and with what its own turn came to, before the next is received;
  and nothing behind the call that made `main` give up. `main_protocol`: it accepts every
  run of `main`, also one that faults or never ends, and where the run ends, it ends as
  the last answer demands.
-/

import Iosu.Bsp.MainLog
import Iosu.Bsp.Replies
import Iosu.Lib.Monitor

namespace Iosu.Bsp

open Iosu.Lib Iosu.Lib.Switch Iosu.Libc Iosu.Entity Iosu.Ios

variable {ε : Type}

/-! ## `main`, with a trace -/

/-- What `main` does. -/
inductive MainEvent (ε : Type) where
  | createHeap (ret : IosError)
  | createQueue (devbsp_msgqueue_id : U32)
  | registerManager (devbsp_msgqueue_id : U32) (ret : IosError)
  | associateDevice (ret : IosError)
  | boot (e : BootEvent)
  /-- `bspInstall` is back, with this `log_fd`. -/
  | installed (log_fd : U32) (ret : BspRval)
  | setReady
  | receive (devbsp_msgqueue_id : U32) (ret : IosError) (msg : IOSMessage)
  | turn (e : Logged ε)
  | resourceReply (msg : IOSMessage) (result : U32)

abbrev MainM (ε : Type) := StateT (Process ε) (Run (MainEvent ε) Fault)

namespace Traced

/-- A call of the kernel. -/
def kernel {α : Type} (f : ε → α × ε) (e : α → MainEvent ε) : MainM ε α := fun b =>
  ⟨[e (f b.drv.env).1], callExt f b⟩

section Main

variable (x : MainExt ε)

def bspInstall : MainM ε (U32 × BspRval) := fun b => do
  let ((log_fd, ret), b) ← (Bsp.bspInstall x b).mapTrace .boot
  Run.emit (.installed log_fd ret)
  return ((log_fd, ret), b)

/-- The `for (;;)`, for at most `turns` messages. -/
def mainLoop [DataMem (Process ε)] (fuel : Nat) (bspEntityList : List (BspEntity (Process ε))) (devbsp_msgqueue_id : U32) :
    Nat → Server ε → Run (MainEvent ε) Fault (Process ε)
  | 0, _ => Run.spin
  | turns + 1, srv => do
    let (ret, msg, mem, env) := x.iosReceiveMessage devbsp_msgqueue_id srv.process.drv.env
    Run.emit (.receive devbsp_msgqueue_id ret msg)
    let srv := { srv with process := { srv.process with drv := { srv.process.drv with env := env } } }
    if ret ≠ IOS_ERROR_OK then return srv.process
    let (srv, mem) ← (mainIter fuel x.toExt bspEntityList srv msg mem).mapTrace fun e => .turn (msg, e)
    let env := x.iosResourceReply msg srv.result mem srv.process.drv.env
    Run.emit (.resourceReply msg srv.result)
    mainLoop fuel bspEntityList devbsp_msgqueue_id turns
      { srv with process := { srv.process with drv := { srv.process.drv with env := env } } }

def mainServes [DataMem (Process ε)] (fuel turns : Nat) (bspEntityList : List (BspEntity (Process ε)))
    (devbsp_msgqueue_id result : U32) : MainM ε Unit := fun b => do
  let b ← mainLoop x fuel bspEntityList devbsp_msgqueue_id turns (Server.boot result b)
  return ((), b)

def main [DataMem (Process ε)] (fuel turns : Nat) (bspEntityList : List (BspEntity (Process ε))) (result : U32) :
    MainM ε MainEnd := do
  let ret ← kernel x.iosCreateCrossProcessHeap .createHeap
  if ret.toInt < IOS_ERROR_OK.toInt then return .returns
  let devbsp_msgqueue_id ← kernel x.iosCreateMessageQueue .createQueue
  if devbsp_msgqueue_id.toInt < IOS_ERROR_OK.toInt then return .log_fatal (-1) devbsp_msgqueue_id 0
  let ret ← kernel (x.iosRegisterResourceManager devbsp_msgqueue_id) (.registerManager devbsp_msgqueue_id)
  if ret ≠ IOS_ERROR_OK then return .log_fatal (-1) ret 0
  let ret ← kernel x.iosDeviceAssosciate .associateDevice
  if ret ≠ IOS_ERROR_OK then return .log_fatal (-1) ret 0
  let (log_fd, ret) ← bspInstall x
  if ret ≠ 0 then return .log_fatal log_fd 0 ret
  kernel (fun env => ((), x.iosSetBSPReady env)) fun _ => .setReady
  mainServes x fuel turns bspEntityList devbsp_msgqueue_id result
  return .log_fatal log_fd 0 0

end Main

/-! ## Without the trace -/

/-- The function with its trace left out. -/
def Erases {α : Type} (m : MainM ε α) (m' : BspM ε α) : Prop := ∀ b, (m b).res = m' b

theorem Erases.bind {α β : Type} {m : MainM ε α} {m' : BspM ε α} {k : α → MainM ε β} {k' : α → BspM ε β}
    (hm : Erases m m') (hk : ∀ a, Erases (k a) (k' a)) : Erases (m >>= k) (m' >>= k') := by
  intro b
  rw [Run.stateful_bind, bspM_bind, Run.bind_res, hm b]
  exact congrArg (Res.bind _) (funext fun p => hk p.1 p.2)

theorem Erases.ite {α : Type} {c : Prop} [Decidable c] {m n : MainM ε α} {m' n' : BspM ε α} (hm : Erases m m')
    (hn : Erases n n') : Erases (if c then m else n) (if c then m' else n') := by
  split
  · exact hm
  · exact hn

theorem erases_pure {α : Type} (a : α) : Erases (pure a : MainM ε α) (pure a) := fun _ => rfl

theorem erases_kernel {α : Type} (f : ε → α × ε) (e : α → MainEvent ε) : Erases (kernel f e) (callExt f) := fun _ => rfl

section Erasure

variable (x : MainExt ε)

theorem bspInstall_erases : Erases (bspInstall x) (fun b => (Bsp.bspInstall x b).res) := by
  intro b
  unfold bspInstall
  rw [Run.bind_res, Run.mapTrace_res]
  show _ = (Bsp.bspInstall x b).res
  rcases (Bsp.bspInstall x b).res with p | f | _ <;> rfl

variable [DataMem (Process ε)] (fuel : Nat) (es : List (BspEntity (Process ε)))

theorem mainLoop_erases (devbsp_msgqueue_id : U32) (turns : Nat) (srv : Server ε) :
    (mainLoop x fuel es devbsp_msgqueue_id turns srv).res = Bsp.mainLoop x fuel es devbsp_msgqueue_id turns srv := by
  induction turns generalizing srv with
  | zero => rfl
  | succ turns ih =>
    unfold mainLoop Bsp.mainLoop
    rcases x.iosReceiveMessage devbsp_msgqueue_id srv.process.drv.env with ⟨ret, msg, mem, env⟩
    dsimp only
    rw [Run.emit_bind_res]
    split
    · rfl
    · rw [Run.bind_res, Run.mapTrace_res]
      refine congrArg (Res.bind _) (funext fun p => ?_)
      obtain ⟨srv', mem'⟩ := p
      dsimp only
      rw [Run.emit_bind_res]
      exact ih _

theorem mainServes_erases (turns : Nat) (devbsp_msgqueue_id result : U32) :
    Erases (mainServes x fuel turns es devbsp_msgqueue_id result)
      (Bsp.mainServes x fuel turns es devbsp_msgqueue_id result) := by
  intro b
  unfold mainServes Bsp.mainServes
  rw [Run.bind_res, mainLoop_erases]
  rfl

/-- With its trace left out, it is `main`. -/
theorem main_erases (turns : Nat) (result : U32) : Erases (main x fuel turns es result) (Bsp.main x fuel turns es result) := by
  unfold main Bsp.main
  refine (erases_kernel _ _).bind fun ret => Erases.ite (erases_pure _) ?_
  refine (erases_kernel _ _).bind fun id => Erases.ite (erases_pure _) ?_
  refine (erases_kernel _ _).bind fun ret => Erases.ite (erases_pure _) ?_
  refine (erases_kernel _ _).bind fun ret => Erases.ite (erases_pure _) ?_
  refine (bspInstall_erases x).bind fun p => ?_
  obtain ⟨log_fd, ret⟩ := p
  refine Erases.ite (erases_pure _) ?_
  exact (erases_kernel _ _).bind fun _ => (mainServes_erases x fuel es turns id result).bind fun _ => erases_pure _

end Erasure

end Traced

/-! ## The protocol -/

/-- How far `main` is. -/
inductive Stage where
  | begun
  | heap
  | queue (devbsp_msgqueue_id : U32)
  | managed (devbsp_msgqueue_id : U32)
  | associated (devbsp_msgqueue_id : U32)
  | installed (devbsp_msgqueue_id log_fd : U32)
  | serving (devbsp_msgqueue_id log_fd : U32)
  /-- A message is being served; what its `reply:` came to, once it is reached. -/
  | handling (devbsp_msgqueue_id log_fd : U32) (msg : IOSMessage) (answer : Option U32)
  | over (e : MainEnd)
  deriving DecidableEq

/-- What `main` may do at each stage. -/
def protocol : Monitor (MainEvent ε) Stage
  | .begun, .createHeap ret => some (if ret.toInt < IOS_ERROR_OK.toInt then .over .returns else .heap)
  | .heap, .createQueue id => some (if id.toInt < IOS_ERROR_OK.toInt then .over (.log_fatal (-1) id 0) else .queue id)
  | .queue id, .registerManager id' ret =>
    if id' = id then some (if ret ≠ IOS_ERROR_OK then .over (.log_fatal (-1) ret 0) else .managed id) else none
  | .managed id, .associateDevice ret =>
    some (if ret ≠ IOS_ERROR_OK then .over (.log_fatal (-1) ret 0) else .associated id)
  | .associated id, .boot _ => some (.associated id)
  | .associated id, .installed log_fd ret =>
    some (if ret ≠ 0 then .over (.log_fatal log_fd 0 ret) else .installed id log_fd)
  | .installed id log_fd, .setReady => some (.serving id log_fd)
  | .serving id log_fd, .receive id' ret msg =>
    if id' = id then some (if ret ≠ IOS_ERROR_OK then .over (.log_fatal log_fd 0 0) else .handling id log_fd msg none)
    else none
  | .handling id log_fd msg none, .turn (msg', e) =>
    if msg' = msg then some (.handling id log_fd msg e.replied) else none
  | .handling id log_fd msg (some r), .resourceReply msg' r' =>
    if msg' = msg ∧ r' = r then some (.serving id log_fd) else none
  | _, _ => none

section Protocol

variable [DataMem (Process ε)]

/-- Everything that a turn shows: up to its reply, which it makes when it ends and not
    before, it is silent. -/
theorem mainIter_shape (fuel : Nat) (x : Ext ε) (es : List (BspEntity (Process ε))) (srv : Server ε) (msg : IOSMessage)
    (mem : Mem) :
    (∃ before srv' mem', (∀ e ∈ before, e.replied = none) ∧
      mainIter fuel x es srv msg mem = ⟨before ++ [.reply srv'.result], .ok (srv', mem')⟩) ∨
    ((∀ e ∈ (mainIter fuel x es srv msg mem).trace, e.replied = none) ∧
      Run.Stuck (mainIter fuel x es srv msg mem)) := by
  rcases mainIter_cases fuel x es srv msg mem with
    ⟨-, he⟩ | ⟨r, he⟩ | ⟨fd, -, -, he⟩ | ⟨fd, hc, hfd, ha, he⟩ | ⟨fd, -, -, he⟩
  · refine Or.inr ?_
    rw [he]
    exact ⟨by simp, fun a h => by cases h⟩
  · exact Or.inl ⟨[], { srv with result := r }, mem, by simp, he⟩
  · refine Or.inl ⟨[.closed fd], { srv with bsp_fdtable := srv.bsp_fdtable.set fd ⟨false, 0⟩ fd.isLt }, mem, ?_, he⟩
    simp [Event.replied]
  · have hs : activeSlot srv.bsp_fdtable msg.fd = .ok (some fd) := activeSlot_active hfd ha
    have hquiet : ∀ e ∈ Event.dispatch fd (bswap32 msg.arg0) ::
        (switch (bswap32 msg.arg0) (ioctlCases fuel x es (srv.args msg fd)) caseDefault (srv.ioctl mem)).trace,
        e.replied = none := by
      intro e hmem
      rcases List.mem_cons.mp hmem with rfl | hmem
      · rfl
      · rcases switch_events hmem with ⟨h, cr, rfl, -⟩ | ⟨c, rfl⟩ <;> rfl
    cases hsw : (switch (bswap32 msg.arg0) (ioctlCases fuel x es (srv.args msg fd)) caseDefault (srv.ioctl mem)).res with
    | ok s =>
      refine Or.inl ⟨_, { srv with result := s.result, process := s.process }, s.mem, hquiet, ?_⟩
      rw [turn_of_switch hc hs hsw]
      rfl
    | fault f =>
      refine Or.inr ?_
      rw [he, Run.bind_fault _ hsw]
      exact ⟨hquiet, fun a h => by cases h⟩
    | spin =>
      refine Or.inr ?_
      rw [he, Run.bind_spin _ hsw]
      exact ⟨hquiet, fun a h => by cases h⟩
  · refine Or.inl ⟨[.opened fd (bswap32 msg.arg4)],
      { srv with bsp_fdtable := srv.bsp_fdtable.set fd ⟨true, bswap32 msg.arg4⟩ fd.isLt }, mem, ?_, he⟩
    simp [Event.replied]

omit [DataMem (Process ε)] in
theorem protocol_quiet (id log_fd : U32) (msg : IOSMessage) {t : List (Event (Process ε))}
    (h : ∀ e ∈ t, e.replied = none) :
    protocol.run (.handling id log_fd msg none) (t.map fun e => MainEvent.turn (msg, e)) =
      some (.handling id log_fd msg none) := by
  induction t with
  | nil => rfl
  | cons e t ih =>
    have he : e.replied = none := h e List.mem_cons_self
    rw [List.map_cons, Monitor.run_cons]
    simp only [protocol, if_true, he, Option.bind_some]
    exact ih fun e' he' => h e' (List.mem_cons_of_mem e he')

/-- A turn, from the message's arrival to its reply. -/
theorem turn_protocol (fuel : Nat) (x : Ext ε) (es : List (BspEntity (Process ε))) (srv : Server ε) (msg : IOSMessage)
    (mem : Mem) (id log_fd : U32) :
    protocol.Keeps (.handling id log_fd msg none)
      ((mainIter fuel x es srv msg mem).mapTrace fun e => MainEvent.turn (msg, e))
      fun p stage => stage = .handling id log_fd msg (some p.1.result) := by
  rcases mainIter_shape fuel x es srv msg mem with ⟨before, srv', mem', hquiet, he⟩ | ⟨hquiet, hstuck⟩
  · have hrun : protocol.run (.handling id log_fd msg none)
        ((before ++ [Event.reply srv'.result]).map fun e => MainEvent.turn (msg, e)) =
          some (.handling id log_fd msg (some srv'.result)) := by
      rw [List.map_append, Monitor.run_append, protocol_quiet id log_fd msg hquiet, Option.bind_some]
      simp [protocol, Event.replied]
    rw [he]
    refine Monitor.keeps_mapTrace hrun fun p hp => ?_
    cases hp
    rfl
  · exact Monitor.keeps_mapTrace (protocol_quiet id log_fd msg hquiet) fun p hp => absurd hp (hstuck p)

theorem mainLoop_protocol (x : MainExt ε) (fuel : Nat) (es : List (BspEntity (Process ε))) (id log_fd : U32)
    (turns : Nat) (srv : Server ε) :
    protocol.Keeps (.serving id log_fd) (Traced.mainLoop x fuel es id turns srv)
      fun _ stage => stage = .over (.log_fatal log_fd 0 0) := by
  induction turns generalizing srv with
  | zero => exact Monitor.keeps_spin
  | succ turns ih =>
    unfold Traced.mainLoop
    rcases x.iosReceiveMessage id srv.process.drv.env with ⟨ret, msg, mem, env⟩
    dsimp only
    by_cases hret : ret = IOS_ERROR_OK
    · have hstep : protocol (.serving id log_fd) (MainEvent.receive (ε := ε) id ret msg) =
          some (.handling id log_fd msg none) := by
        simp [protocol, hret]
      refine Monitor.keeps_emit_bind hstep ?_
      rw [if_neg (not_not.mpr hret)]
      refine (turn_protocol fuel x.toExt es _ msg mem id log_fd).bind fun p stage _ hstage => ?_
      subst hstage
      have hreply : protocol (.handling id log_fd msg (some p.1.result))
          (MainEvent.resourceReply (ε := ε) msg p.1.result) = some (.serving id log_fd) := by
        simp [protocol]
      exact Monitor.keeps_emit_bind hreply (ih _)
    · have hstep : protocol (.serving id log_fd) (MainEvent.receive (ε := ε) id ret msg) =
          some (.over (.log_fatal log_fd 0 0)) := by
        simp [protocol, hret]
      refine Monitor.keeps_emit_bind hstep ?_
      rw [if_pos hret]
      exact Monitor.keeps_pure rfl

/-- The run of `main` has ended as the monitor says. -/
def Ended (p : MainEnd × Process ε) (stage : Stage) : Prop := stage = .over p.1

omit [DataMem (Process ε)] in
/-- A call of the kernel, after which `main` gives up or goes on. -/
theorem kernel_protocol {α : Type} {f : ε → α × ε} {e : α → MainEvent ε} {k : α → MainM ε MainEnd} {stage : Stage}
    {giveUp : α → Prop} [DecidablePred giveUp] {ends : α → MainEnd} (next : α → Stage)
    (hstep : ∀ a, protocol stage (e a) = some (if giveUp a then .over (ends a) else next a))
    (hk : ∀ a b, protocol.Keeps (next a) (k a b) Ended) (b : Process ε) :
    protocol.Keeps stage ((Traced.kernel f e >>= fun a => if giveUp a then pure (ends a) else k a) b) Ended := by
  have hcall : protocol.Keeps stage (Traced.kernel f e b) fun p s =>
      s = if giveUp p.1 then .over (ends p.1) else next p.1 := by
    refine ⟨if giveUp (f b.drv.env).1 then .over (ends (f b.drv.env).1) else next (f b.drv.env).1, ?_, fun p hp => ?_⟩
    · simp [Traced.kernel, hstep]
    · cases hp
      rfl
  refine hcall.stateful_bind ?_
  rintro a b' s - rfl
  by_cases hgive : giveUp a
  · rw [if_pos hgive, if_pos hgive]
    exact Monitor.keeps_pure rfl
  · rw [if_neg hgive, if_neg hgive]
    exact hk a b'

omit [DataMem (Process ε)] in
theorem install_protocol (x : MainExt ε) (id : U32) (b : Process ε) :
    protocol.Keeps (.associated id) (Traced.bspInstall x b) fun p stage =>
      stage = if p.1.2 ≠ 0 then .over (.log_fatal p.1.1 0 p.1.2) else .installed id p.1.1 := by
  unfold Traced.bspInstall
  have hboot : ∀ t : List BootEvent, protocol.run (.associated id) (t.map (MainEvent.boot (ε := ε))) =
      some (.associated id) := by
    intro t
    induction t with
    | nil => rfl
    | cons e t ih => simpa [protocol] using ih
  refine (Monitor.keeps_mapTrace (Q := fun _ s => s = .associated id) (hboot _) fun _ _ => rfl).bind ?_
  rintro ⟨⟨log_fd, ret⟩, b'⟩ s - rfl
  have hstep : protocol (.associated id) (MainEvent.installed (ε := ε) log_fd ret) =
      some (if ret ≠ 0 then .over (.log_fatal log_fd 0 ret) else .installed id log_fd) := rfl
  exact Monitor.keeps_emit_bind hstep (Monitor.keeps_pure rfl)

theorem serves_protocol (x : MainExt ε) (fuel turns : Nat) (es : List (BspEntity (Process ε))) (id log_fd result : U32)
    (b : Process ε) :
    protocol.Keeps (.installed id log_fd)
      ((Traced.kernel (fun env => ((), x.iosSetBSPReady env)) (fun _ => .setReady) >>= fun _ =>
        Traced.mainServes x fuel turns es id result >>= fun _ => pure (.log_fatal log_fd 0 0) : MainM ε MainEnd) b)
      Ended := by
  have hready : protocol.Keeps (.installed id log_fd)
      (Traced.kernel (fun env => ((), x.iosSetBSPReady env)) (fun _ => .setReady) b) fun _ s => s = .serving id log_fd :=
    ⟨.serving id log_fd, rfl, fun _ _ => rfl⟩
  refine hready.stateful_bind ?_
  rintro - b' s - rfl
  have hserves : protocol.Keeps (.serving id log_fd) (Traced.mainServes x fuel turns es id result b') fun _ s =>
      s = .over (.log_fatal log_fd 0 0) :=
    (mainLoop_protocol x fuel es id log_fd turns _).bind fun _ _ _ hs => Monitor.keeps_pure hs
  exact hserves.stateful_bind fun _ _ _ _ hs => Monitor.keeps_pure hs

theorem main_keeps_protocol (x : MainExt ε) (fuel turns : Nat) (es : List (BspEntity (Process ε))) (result : U32)
    (b : Process ε) : protocol.Keeps .begun (Traced.main x fuel turns es result b) Ended := by
  unfold Traced.main
  refine kernel_protocol (fun _ => .heap) (fun ret => rfl) (fun _ b => ?_) b
  refine kernel_protocol .queue (fun id => rfl) (fun id b => ?_) b
  refine kernel_protocol (fun _ => .managed id) (fun ret => by simp [protocol]) (fun _ b => ?_) b
  refine kernel_protocol (fun _ => .associated id) (fun ret => rfl) (fun _ b => ?_) b
  refine (install_protocol x id b).stateful_bind ?_
  rintro ⟨log_fd, ret⟩ b' s - rfl
  dsimp only
  by_cases hret : ret ≠ 0
  · rw [if_pos hret, if_pos hret]
    exact Monitor.keeps_pure rfl
  · rw [if_neg hret, if_neg hret]
    exact serves_protocol x fuel turns es id log_fd result b'

/-- The protocol holds of every run of `main`, from any process. -/
theorem main_protocol (x : MainExt ε) (fuel turns : Nat) (es : List (BspEntity (Process ε))) (result : U32)
    (b : Process ε) :
    protocol.Keeps .begun (Traced.main x fuel turns es result b) Ended ∧
      (Traced.main x fuel turns es result b).res = main x fuel turns es result b :=
  ⟨main_keeps_protocol x fuel turns es result b, Traced.main_erases x fuel es turns result b⟩

end Protocol

/-! ## Monitors of the loop -/

/-- The event is one of the message loop. -/
def MainEvent.ofLoop : MainEvent ε → Bool
  | .receive _ _ _ | .turn _ | .resourceReply _ _ => true
  | _ => false

/-- A monitor that stays where it is until the loop keeps a run of `main` if it keeps the
    loop. -/
theorem main_keeps [DataMem (Process ε)] {σ : Type} {M : Monitor (MainEvent ε) σ} {s : σ} {x : MainExt ε}
    {fuel turns : Nat} {es : List (BspEntity (Process ε))} {result : U32}
    (hquiet : ∀ e : MainEvent ε, e.ofLoop = false → M s e = some s)
    (hloop : ∀ id b, M.Keeps s (Traced.mainLoop x fuel es id turns (Server.boot result b)) fun _ _ => True)
    (b : Process ε) : M.Keeps s (Traced.main x fuel turns es result b) fun _ _ => True := by
  have hkernel : ∀ {α : Type} {f : ε → α × ε} {e : α → MainEvent ε} {k : α → MainM ε MainEnd} (b : Process ε),
      (∀ a, (e a).ofLoop = false) → (∀ a b, M.Keeps s (k a b) fun _ _ => True) →
      M.Keeps s ((Traced.kernel f e >>= k) b) fun _ _ => True := by
    intro α f e k b he hk
    have hcall : M.Keeps s (Traced.kernel f e b) fun _ s' => s' = s :=
      ⟨s, by simp [Traced.kernel, hquiet _ (he _)], fun _ _ => rfl⟩
    exact hcall.stateful_bind fun a b' s' _ hs => hs ▸ hk a b'
  have hboot : ∀ t : List BootEvent, M.run s (t.map MainEvent.boot) = some s := by
    intro t
    induction t with
    | nil => rfl
    | cons e t ih => simpa [hquiet (.boot e) rfl] using ih
  have hinstall : ∀ b, M.Keeps s (Traced.bspInstall x b) fun _ s' => s' = s := by
    intro b
    unfold Traced.bspInstall
    refine (Monitor.keeps_mapTrace (Q := fun _ s' => s' = s) (hboot _) fun _ _ => rfl).bind ?_
    rintro ⟨⟨log_fd, ret⟩, b'⟩ s' - rfl
    exact Monitor.keeps_emit_bind (hquiet _ rfl) (Monitor.keeps_pure rfl)
  unfold Traced.main
  refine hkernel b (fun _ => rfl) fun ret b => ?_
  split
  · exact Monitor.keeps_pure trivial
  refine hkernel b (fun _ => rfl) fun id b => ?_
  split
  · exact Monitor.keeps_pure trivial
  refine hkernel b (fun _ => rfl) fun ret b => ?_
  split
  · exact Monitor.keeps_pure trivial
  refine hkernel b (fun _ => rfl) fun ret b => ?_
  split
  · exact Monitor.keeps_pure trivial
  refine (hinstall b).stateful_bind ?_
  rintro ⟨log_fd, ret⟩ b' s' - rfl
  dsimp only
  split
  · exact Monitor.keeps_pure trivial
  refine hkernel b' (fun _ => rfl) fun _ b => ?_
  have hserves : M.Keeps s' (Traced.mainServes x fuel turns es id result b) fun _ _ => True :=
    (hloop id b).bind fun _ _ _ _ => Monitor.keeps_pure trivial
  exact hserves.stateful_bind fun _ _ _ _ _ => Monitor.keeps_pure trivial

/-! ## Every reply is to the last message -/

/-- The two steps that come to a message being served. -/
theorem step_handling {stage : Stage} {e : MainEvent ε} {id log_fd : U32} {msg : IOSMessage} {answer : Option U32}
    (h : protocol stage e = some (.handling id log_fd msg answer)) :
    (e = .receive id IOS_ERROR_OK msg ∧ answer = none) ∨
      ∃ ev, stage = .handling id log_fd msg none ∧ e = .turn (msg, ev) ∧ answer = ev.replied := by
  unfold protocol at h
  split at h
  case h_8 =>
    rename_i id' ret msg'
    split at h
    · rename_i hid
      split at h
      · cases h
      · rename_i hret
        cases h
        obtain rfl : ret = IOS_ERROR_OK := not_not.mp hret
        exact Or.inl ⟨by rw [hid], rfl⟩
    · cases h
  case h_9 =>
    rename_i ev
    split at h
    · rename_i hmsg
      cases h
      exact Or.inr ⟨ev, rfl, by rw [hmsg], rfl⟩
    · cases h
  all_goals simp at h
  all_goals split at h <;> simp at h

/-- What lies between a message and the stage at which it is being served. -/
theorem handling_shape {t : List (MainEvent ε)} {id log_fd : U32} {msg : IOSMessage} {answer : Option U32}
    (h : protocol.run .begun t = some (.handling id log_fd msg answer)) :
    ∃ earlier es, t = earlier ++ .receive id IOS_ERROR_OK msg :: es.map (fun e => MainEvent.turn (msg, e)) ∧
      replies es = answer.toList := by
  induction t using List.reverseRecOn generalizing answer with
  | nil => cases h
  | append_singleton t e ih =>
    obtain ⟨stage, hstage, he⟩ := Monitor.run_snoc_eq_some.mp h
    rcases step_handling he with ⟨rfl, rfl⟩ | ⟨ev, rfl, rfl, rfl⟩
    · exact ⟨t, [], rfl, rfl⟩
    · obtain ⟨earlier, es, rfl, hes⟩ := ih hstage
      refine ⟨earlier, es ++ [ev], by simp, ?_⟩
      rw [show replies (es ++ [ev]) = replies es ++ replies [ev] from List.filterMap_append, hes]
      cases hr : ev.replied <;> simp [replies, hr]

/-- In every run of `main`: an IOS_ResourceReply is to the message received last, which was
    not replied to before, and hands out the one answer that its turn came to. -/
theorem main_inTurn [DataMem (Process ε)] {x : MainExt ε} {fuel turns : Nat} {es : List (BspEntity (Process ε))}
    {result : U32} {b : Process ε} {before after : List (MainEvent ε)} {msg : IOSMessage} {r : U32}
    (h : (Traced.main x fuel turns es result b).trace = before ++ .resourceReply msg r :: after) :
    ∃ earlier id turn, before = earlier ++ .receive id IOS_ERROR_OK msg :: turn.map (fun e => MainEvent.turn (msg, e)) ∧
      replies turn = [r] := by
  obtain ⟨stage, hrun, -⟩ := main_keeps_protocol x fuel turns es result b
  rw [h] at hrun
  obtain ⟨s₁, s₂, hbefore, hstep, -⟩ := Monitor.step_of_split hrun
  cases s₁ with
  | handling id log_fd msg' answer =>
    cases answer with
    | none => cases hstep
    | some r' =>
      simp only [protocol] at hstep
      split at hstep
      · rename_i heq
        obtain ⟨rfl, rfl⟩ := heq
        obtain ⟨earlier, turn, ht, hanswer⟩ := handling_shape hbefore
        exact ⟨earlier, id, turn, ht, hanswer⟩
      · cases hstep
  | _ => cases hstep

end Iosu.Bsp
