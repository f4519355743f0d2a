/-
  Iosu.Bsp.Ready — what is settled when `main` comes to its loop.

  `main` falls into what it does before it tells the kernel that it is ready (`mainBoots`) and
  the loop (`main_boots`). `bspInstall` comes to 0 on a Latte only: without one there is no
  GPIO entity, and its error stays in the result. So the version is known by then, and the
  loop never loses it: in every state in which `main` asks for a message (`Serves`) the
  version and the console are answered as they were at first (`main_ready`).
-/

import Iosu.Bsp.Accounts
import Iosu.Bsp.MainTrace

namespace Iosu.Bsp

open Iosu.Lib Iosu.Lib.Microwire Iosu.Libc Iosu.Entity Iosu.Entities Iosu.Ios Iosu.Eeprom

variable {ε : Type}

/-! ## The two parts of `main` -/

namespace Traced

variable (x : MainExt ε)

/-- Up to IOS_SetBSPReady: how `main` ends without a loop, or its queue and `log_fd`. -/
def mainBoots : MainM ε (Except MainEnd (U32 × U32)) := do
  let ret ← kernel x.iosCreateCrossProcessHeap .createHeap
  if ret.toInt < IOS_ERROR_OK.toInt then return .error .returns
  let devbsp_msgqueue_id ← kernel x.iosCreateMessageQueue .createQueue
  if devbsp_msgqueue_id.toInt < IOS_ERROR_OK.toInt then return .error (.log_fatal (-1) devbsp_msgqueue_id 0)
  let ret ← kernel (x.iosRegisterResourceManager devbsp_msgqueue_id) (.registerManager devbsp_msgqueue_id)
  if ret ≠ IOS_ERROR_OK then return .error (.log_fatal (-1) ret 0)
  let ret ← kernel x.iosDeviceAssosciate .associateDevice
  if ret ≠ IOS_ERROR_OK then return .error (.log_fatal (-1) ret 0)
  let (log_fd, ret) ← bspInstall x
  if ret ≠ 0 then return .error (.log_fatal log_fd 0 ret)
  kernel (fun env => ((), x.iosSetBSPReady env)) fun _ => .setReady
  return .ok (devbsp_msgqueue_id, log_fd)

def mainGoesOn [DataMem (Process ε)] (fuel turns : Nat) (bspEntityList : List (BspEntity (Process ε))) (result : U32) :
    Except MainEnd (U32 × U32) → MainM ε MainEnd
  | .error e => return e
  | .ok (devbsp_msgqueue_id, log_fd) => do
    mainServes x fuel turns bspEntityList devbsp_msgqueue_id result
    return .log_fatal log_fd 0 0

/-- A call of the kernel, and what depends on its answer. -/
theorem bind_goesOn {α β γ : Type} {m : MainM ε α} {k : α → MainM ε γ} {k' : α → MainM ε β} {g : β → MainM ε γ}
    (hk : ∀ a, k a = k' a >>= g) : m >>= k = (m >>= k') >>= g := by
  funext b
  simp only [Run.stateful_bind, Run.bind_assoc, hk]

theorem ite_goesOn {β γ : Type} {c : Prop} [Decidable c] {a n : MainM ε γ} {a' n' : MainM ε β} {g : β → MainM ε γ}
    (ha : a = a' >>= g) (hn : n = n' >>= g) : (if c then a else n) = (if c then a' else n') >>= g := by
  split
  · exact ha
  · exact hn

theorem main_boots [DataMem (Process ε)] (fuel turns : Nat) (es : List (BspEntity (Process ε))) (result : U32) :
    main x fuel turns es result = mainBoots x >>= mainGoesOn x fuel turns es result := by
  unfold main mainBoots
  refine bind_goesOn fun ret => ite_goesOn rfl ?_
  refine bind_goesOn fun id => ite_goesOn rfl ?_
  refine bind_goesOn fun ret => ite_goesOn rfl ?_
  refine bind_goesOn fun ret => ite_goesOn rfl ?_
  refine bind_goesOn fun p => ?_
  obtain ⟨log_fd, ret⟩ := p
  exact ite_goesOn rfl (bind_goesOn fun _ => rfl)

end Traced

/-! ## What a boot that succeeds has found -/

section Found

/-- The process, after something has happened outside. -/
def Process.inEnv (b : Process ε) (env : ε) : Process ε := { b with drv := { b.drv with env := env } }

variable {b b' : Process ε}

/-- The variant does not reach what makes it a Latte's. -/
theorem latteVersion_isLatte {x : Ext ε} (env : ε) (low : U32) : BSP_IS_LATTE (latteVersion x env ||| low) = true := by
  have hfamily : latteVersion x env &&& 0x0F000000 ≠ 0 := by
    refine latteVersion_cases (x := x) (fun v => v &&& 0x0F000000 ≠ 0) ?_ env
    intro v hv
    rcases hv with rfl | rfl | rfl | rfl | rfl | rfl | rfl
    all_goals decide
  refine decide_eq_true fun hzero => hfamily ?_
  rw [BitVec.and_or_distrib_right] at hzero
  exact (BitVec.or_eq_zero_iff.mp hzero).1

/-- On a Latte, the version that is answered is one. -/
theorem method_isLatte {x : Ext ε} (h0 : b.bspHardwareVersion = 0) (hlatte : latteDetected x b.drv.env) {ret : BspRval}
    {version : U32} (h : bspMethodGetHardwareVersion x b = .ok ((ret, version), b')) : BSP_IS_LATTE version = true := by
  rcases readBoard_cases x b.bspBoardConfig b with ⟨-, hread⟩ | hread
  · rw [method_latte_fault h0 hlatte hread] at h
    cases h
  · obtain ⟨ret, config, b₁, hread⟩ :
        ∃ ret config b₁, bspReadBoardConfig x b.bspBoardConfig b = .ok ((ret, config), b₁) := by
      rcases hread with ⟨-, -, ret, b₁, -, hread, -⟩ | ⟨-, b₀, b₁, -, hread, -⟩
      · exact ⟨_, _, _, hread⟩
      · exact ⟨_, _, _, hread⟩
    rw [method_latte_read h0 hlatte hread] at h
    cases h
    exact latteVersion_isLatte _ _

/-- Where all of the boot's functions return 0, the registers show a Latte. -/
theorem bootVersions_ready {x : Boot.BootExt ε} (hfixed : Boot.FixedRegisters x.toExt) (h0 : b.bspHardwareVersion = 0)
    (h : (Boot.bootVersions x b).res = .ok (0, b')) :
    latteDetected x.toExt b.drv.env ∧ BSP_IS_LATTE b'.bspHardwareVersion = true := by
  unfold Boot.bootVersions at h
  obtain ⟨⟨error, version⟩, b₁, hinit, h, -⟩ := Run.stateful_bind_returns h
  dsimp only at h
  rw [Run.stateful_bind_silent (Run.stateful_modify _ b₁)] at h
  obtain ⟨ret, b₂, hgpio, h, -⟩ := Run.stateful_bind_returns h
  rw [Run.stateful_bind_silent (Run.stateful_modify _ b₂)] at h
  obtain ⟨⟨ret', version'⟩, b₃, hmethod, h, -⟩ := Run.stateful_bind_returns h
  -- no error is lost on the way
  obtain ⟨hzero, hb'⟩ := Prod.mk.inj (Res.ok.inj h)
  have hret : ret = 0 := (BitVec.or_eq_zero_iff.mp (BitVec.or_eq_zero_iff.mp hzero).1).2
  have hlatte : latteDetected x.toExt b.drv.env := by
    by_contra hother
    have hnone : ∀ env, ¬ latteDetected x.toExt env := fun env hl => hother (hfixed.detected hl)
    obtain ⟨error', version₁, b₁', hinit', hcache⟩ := Boot.initASIC_other h0 hother
    rw [hinit'] at hinit
    cases hinit
    obtain ⟨b₂', hgpio'⟩ := Boot.gpioInstall_none (x := x) (b := { b₁ with bspHardwareVersion := version })
      (hnone _) hcache
    rw [hgpio'] at hgpio
    cases hgpio
    exact absurd hret (by decide)
  refine ⟨hlatte, ?_⟩
  rw [← hb']
  have hfound : bspMethodGetHardwareVersion x.toExt { b₂ with bspHardwareVersion := 0 } = .ok ((ret', version'), b₃) :=
    (Boot.method_erases x _).symm.trans hmethod
  exact method_isLatte rfl (hfixed.detected hlatte) hfound

theorem bspInstall_ready {x : MainExt ε} (hfixed : Boot.FixedRegisters x.toExt) (h0 : b.bspHardwareVersion = 0)
    {log_fd : U32} (h : (Traced.bspInstall x b).res = .ok ((log_fd, 0), b')) :
    latteDetected x.toExt b.drv.env ∧ BSP_IS_LATTE b'.bspHardwareVersion = true := by
  have hinstall : (bspInitEssentialLog x b).res = .ok ((log_fd, 0), b') := (Traced.bspInstall_erases x b).symm.trans h
  obtain ⟨_, log, env, hopens⟩ := Boot.initEssential_opens x.toBootExt b
  rw [show bspInitEssentialLog x b = _ from
    hopens fun log_fd => Boot.bootVersions x.toBootExt >>= fun error => pure (log_fd, error)] at hinstall
  obtain ⟨error, b₁, hversions, hend, -⟩ := Run.stateful_bind_returns hinstall
  cases hend
  obtain ⟨hlatte, hready⟩ := bootVersions_ready (b := b.logged log env) hfixed h0 hversions
  exact ⟨hfixed.detected hlatte, hready⟩

/-- What a call of the kernel leaves alone. -/
theorem kernel_inEnv {α : Type} {f : ε → α × ε} {e : α → MainEvent ε} {a : α} (h : (Traced.kernel f e b).res = .ok (a, b')) :
    ∃ env, b' = b.inEnv env := by
  cases h
  exact ⟨_, rfl⟩

theorem mainBoots_ready {x : MainExt ε} (hfixed : Boot.FixedRegisters x.toExt) (h0 : b.bspHardwareVersion = 0)
    {id log_fd : U32} (h : (Traced.mainBoots x b).res = .ok (.ok (id, log_fd), b')) :
    latteDetected x.toExt b.drv.env ∧ BSP_IS_LATTE b'.bspHardwareVersion = true := by
  unfold Traced.mainBoots at h
  obtain ⟨ret, b₁, hheap, h, -⟩ := Run.stateful_bind_returns h
  obtain ⟨env₁, rfl⟩ := kernel_inEnv hheap
  split at h
  · cases h
  obtain ⟨queue, b₂, hqueue, h, -⟩ := Run.stateful_bind_returns h
  obtain ⟨env₂, rfl⟩ := kernel_inEnv hqueue
  split at h
  · cases h
  obtain ⟨ret, b₃, hmanager, h, -⟩ := Run.stateful_bind_returns h
  obtain ⟨env₃, rfl⟩ := kernel_inEnv hmanager
  split at h
  · cases h
  obtain ⟨ret, b₄, hdevice, h, -⟩ := Run.stateful_bind_returns h
  obtain ⟨env₄, rfl⟩ := kernel_inEnv hdevice
  split at h
  · cases h
  obtain ⟨⟨fd, ret⟩, b₅, hinstall, h, -⟩ := Run.stateful_bind_returns h
  dsimp only at h
  split at h
  · cases h
  rename_i hret
  obtain rfl : ret = 0 := not_not.mp hret
  obtain ⟨hlatte, hready⟩ := bspInstall_ready hfixed (b := b.inEnv env₄) h0 hinstall
  obtain ⟨_, b₆, hset, hend, -⟩ := Run.stateful_bind_returns h
  obtain ⟨env₅, rfl⟩ := kernel_inEnv hset
  cases hend
  exact ⟨hfixed.detected hlatte, hready⟩

end Found

/-! ## The states of the loop -/

/-- Nothing of the boot is a message. -/
theorem mainBoots_quiet (x : MainExt ε) (b : Process ε) : ∀ e ∈ (Traced.mainBoots x b).trace, e.ofLoop = false := by
  have hbind : ∀ {α β : Type} {m : MainM ε α} {k : α → MainM ε β} {b : Process ε},
      (∀ e ∈ (m b).trace, e.ofLoop = false) → (∀ a b', ∀ e ∈ (k a b').trace, e.ofLoop = false) →
      ∀ e ∈ ((m >>= k) b).trace, e.ofLoop = false := by
    intro α β m k b hm hk e he
    rcases Run.mem_bind_trace.mp (Run.stateful_bind m k b ▸ he) with he | ⟨p, -, he⟩
    · exact hm e he
    · exact hk _ _ e he
  have hend : ∀ {α : Type} (a : α) (b : Process ε), ∀ e ∈ ((pure a : MainM ε α) b).trace, e.ofLoop = false :=
    fun _ _ _ he => absurd he List.not_mem_nil
  have hkernel : ∀ {α : Type} {f : ε → α × ε} {e : α → MainEvent ε} {b : Process ε}, (∀ a, (e a).ofLoop = false) →
      ∀ e' ∈ (Traced.kernel f e b).trace, e'.ofLoop = false := by
    intro α f e b he e' he'
    rw [List.mem_singleton.mp he']
    exact he _
  have hinstall : ∀ b, ∀ e ∈ (Traced.bspInstall x b).trace, e.ofLoop = false := by
    intro b e he
    rcases Run.mem_bind_trace.mp he with he | ⟨p, -, he⟩
    · obtain ⟨e', -, rfl⟩ := List.mem_map.mp (Run.mapTrace_trace _ _ ▸ he)
      rfl
    · rw [Run.emit_bind_trace] at he
      rcases List.mem_cons.mp he with rfl | he
      · rfl
      · cases he
  unfold Traced.mainBoots
  refine hbind (hkernel fun _ => rfl) fun ret b => ?_
  split
  · exact hend _ b
  refine hbind (hkernel fun _ => rfl) fun id b => ?_
  split
  · exact hend _ b
  refine hbind (hkernel fun _ => rfl) fun ret b => ?_
  split
  · exact hend _ b
  refine hbind (hkernel fun _ => rfl) fun ret b => ?_
  split
  · exact hend _ b
  refine hbind (hinstall b) fun p b => ?_
  obtain ⟨log_fd, ret⟩ := p
  dsimp only
  split
  · exact hend _ b
  · exact hbind (hkernel fun _ => rfl) fun _ b => hend _ b

section Serves

variable [DataMem (Process ε)] {x : MainExt ε} {fuel turns : Nat} {es : List (BspEntity (Process ε))} {result : U32}
  {b : Process ε}

def Server.inEnv (srv : Server ε) (env : ε) : Server ε := { srv with process := srv.process.inEnv env }

/-- The states in which `main`, started in `b`, asks for a message. -/
inductive Serves (x : MainExt ε) (fuel : Nat) (es : List (BspEntity (Process ε))) (result : U32) (b : Process ε)
    (id : U32) : Server ε → Prop
  | ready {log_fd : U32} {b₀ : Process ε} :
      (Traced.mainBoots x b).res = .ok (.ok (id, log_fd), b₀) → Serves x fuel es result b id (Server.boot result b₀)
  | turn {srv srv' : Server ε} {msg : IOSMessage} {mem mem' : Mem} {env : ε} :
      Serves x fuel es result b id srv → x.iosReceiveMessage id srv.process.drv.env = (IOS_ERROR_OK, msg, mem, env) →
      (mainIter fuel x.toExt es (srv.inEnv env) msg mem).res = .ok (srv', mem') →
      Serves x fuel es result b id (srv'.inEnv (x.iosResourceReply msg srv'.result mem' srv'.process.drv.env))

/-- The message is received in such a state. -/
def ReceivedIn (x : MainExt ε) (fuel : Nat) (es : List (BspEntity (Process ε))) (result : U32) (b : Process ε)
    (id : U32) (ret : IosError) (msg : IOSMessage) : Prop :=
  ∃ srv, Serves x fuel es result b id srv ∧ (x.iosReceiveMessage id srv.process.drv.env).1 = ret ∧
    (x.iosReceiveMessage id srv.process.drv.env).2.1 = msg

theorem mainLoop_receives {id : U32} {srv : Server ε} (hsrv : Serves x fuel es result b id srv) {id' : U32} {ret : IosError}
    {msg : IOSMessage} (h : .receive id' ret msg ∈ (Traced.mainLoop x fuel es id turns srv).trace) :
    id' = id ∧ ReceivedIn x fuel es result b id ret msg := by
  induction turns generalizing srv with
  | zero => cases h
  | succ turns ih =>
    unfold Traced.mainLoop at h
    rcases hreceive : x.iosReceiveMessage id srv.process.drv.env with ⟨ret₁, msg₁, mem, env⟩
    rw [hreceive] at h
    dsimp only at h
    rw [Run.emit_bind_trace] at h
    rcases List.mem_cons.mp h with hfirst | hrest
    · cases hfirst
      exact ⟨rfl, srv, hsrv, by rw [hreceive], by rw [hreceive]⟩
    by_cases hret : ret₁ = IOS_ERROR_OK
    · subst hret
      rw [if_neg (not_not.mpr rfl)] at hrest
      rcases Run.mem_bind_trace.mp hrest with hin | ⟨⟨srv', mem'⟩, hturn, hin⟩
      · obtain ⟨e, -, he⟩ := List.mem_map.mp (Run.mapTrace_trace _ _ ▸ hin)
        cases he
      · dsimp only at hin
        rw [Run.emit_bind_trace] at hin
        rcases List.mem_cons.mp hin with hreply | hlater
        · cases hreply
        · exact ih (.turn hsrv hreceive ((Run.mapTrace_res _ _).symm.trans hturn)) hlater
    · rw [if_pos hret] at hrest
      cases hrest

/-- Every message of a run of `main`. -/
theorem main_receives {id : U32} {ret : IosError} {msg : IOSMessage}
    (h : .receive id ret msg ∈ (Traced.main x fuel turns es result b).trace) : ReceivedIn x fuel es result b id ret msg := by
  rw [Traced.main_boots, Run.stateful_bind] at h
  rcases Run.mem_bind_trace.mp h with hboot | ⟨⟨boots, b₀⟩, hboots, hloop⟩
  · cases mainBoots_quiet x b _ hboot
  cases boots with
  | error e => cases hloop
  | ok p =>
    obtain ⟨id₀, log_fd⟩ := p
    dsimp only [Traced.mainGoesOn] at hloop
    rw [Run.stateful_bind] at hloop
    rcases Run.mem_bind_trace.mp hloop with hserves | ⟨p, -, hend⟩
    · unfold Traced.mainServes at hserves
      rcases Run.mem_bind_trace.mp hserves with hserves | ⟨p, -, hend⟩
      · obtain ⟨rfl, hreceived⟩ := mainLoop_receives (.ready hboots) hserves
        exact hreceived
      · cases hend
    · cases hend

/-- Once the boot is through, `main` asks for one. -/
theorem main_asks {id log_fd : U32} {b₀ : Process ε} (h : (Traced.mainBoots x b).res = .ok (.ok (id, log_fd), b₀)) :
    .receive id (x.iosReceiveMessage id b₀.drv.env).1 (x.iosReceiveMessage id b₀.drv.env).2.1 ∈
      (Traced.main x fuel (turns + 1) es result b).trace := by
  rw [Traced.main_boots, Run.stateful_bind]
  refine Run.mem_bind_trace.mpr (Or.inr ⟨_, h, ?_⟩)
  dsimp only [Traced.mainGoesOn]
  rw [Run.stateful_bind]
  refine Run.mem_bind_trace.mpr (Or.inl (Run.mem_bind_trace.mpr (Or.inl ?_)))
  exact List.mem_cons_self

/-- What the boot came to, and what the loop has kept of it since. -/
theorem Serves.rel {F : Frame (Process ε)} (henv : ∀ b env, F.rel b (Process.inEnv b env))
    (hversion : Stays F (bspMethodGetHardwareVersion x.toExt)) (hes : ∀ c : Call (Process ε), c.Of es → c.Within F) {id : U32}
    {srv : Server ε} (h : Serves x fuel es result b id srv) :
    ∃ log_fd b₀, (Traced.mainBoots x b).res = .ok (.ok (id, log_fd), b₀) ∧ F.rel b₀ srv.process := by
  induction h with
  | ready hboots => exact ⟨_, _, hboots, F.refl _⟩
  | turn _ hreceive hturn ih =>
    obtain ⟨log_fd, b₀, hboots, hrel⟩ := ih
    have hkept := mainIter_rel hversion hes hturn
    exact ⟨log_fd, b₀, hboots, F.trans hrel (F.trans (henv _ _) (F.trans hkept (henv _ _)))⟩

/-- On registers that show the same throughout, with callbacks that leave the version and
    the board's configuration alone: `main` asks for messages on a Latte only, and in every
    state in which it does, the version that the boot has found, which is a Latte's, and the
    console are answered as they were in the first. -/
theorem main_ready (hfixed : Boot.FixedRegisters x.toExt) (h0 : b.bspHardwareVersion = 0)
    (hes : ∀ c : Call (Process ε), c.Of es → c.Within boardFrame) {id : U32} {ret : IosError} {msg : IOSMessage}
    (h : .receive id ret msg ∈ (Traced.main x fuel turns es result b).trace) :
    latteDetected x.toExt b.drv.env ∧ ReceivedIn x fuel es result b id ret msg ∧
      ∃ log_fd b₀, (Traced.mainBoots x b).res = .ok (.ok (id, log_fd), b₀) ∧ BSP_IS_LATTE b₀.bspHardwareVersion = true ∧
        ∀ srv, Serves x fuel es result b id srv →
          bspMethodGetHardwareVersion x.toExt srv.process = .ok ((BSP_RVAL_OK, b₀.bspHardwareVersion), srv.process) ∧
          bspGetConsoleMask srv.process.bspBoardConfig = bspGetConsoleMask b₀.bspBoardConfig ∧
          bspGetConsoleType srv.process.bspBoardConfig = bspGetConsoleType b₀.bspBoardConfig := by
  have hreceived : ReceivedIn x fuel es result b id ret msg := main_receives h
  have hkept : ∀ srv, Serves x fuel es result b id srv →
      ∃ log_fd b₀, (Traced.mainBoots x b).res = .ok (.ok (id, log_fd), b₀) ∧ boardFrame.rel b₀ srv.process :=
    fun srv hsrv => hsrv.rel (fun _ _ hknown => ⟨hknown, rfl⟩) known_stays hes
  obtain ⟨srv, hsrv, -⟩ := hreceived
  obtain ⟨log_fd, b₀, hboots, -⟩ := hkept srv hsrv
  obtain ⟨hlatte, hversion⟩ := mainBoots_ready hfixed h0 hboots
  refine ⟨hlatte, main_receives h, log_fd, b₀, hboots, hversion, fun srv hsrv => ?_⟩
  have hknown : b₀.bspHardwareVersion ≠ 0 := by
    intro hzero
    rw [hzero] at hversion
    exact absurd hversion (by decide)
  obtain ⟨log_fd', b₀', hboots', hrel⟩ := hkept srv hsrv
  cases hboots.symm.trans hboots'
  obtain ⟨hknown', hsame⟩ := hrel hknown
  obtain ⟨hv, hconfig⟩ := Prod.mk.inj hsame
  rw [getHardwareVersion_known hknown', hv, hconfig]
  exact ⟨rfl, rfl, rfl⟩

end Serves

/-! ## A boot -/

/-- A Latte whose board configuration is one word, and a kernel that has an OPEN for it. -/
def latteMain : MainExt Device where
  toBootExt := Boot.latteBoard
  iosCreateCrossProcessHeap := fun env => (IOS_ERROR_OK, env)
  iosCreateMessageQueue := fun env => (0, env)
  iosRegisterResourceManager := fun _ env => (IOS_ERROR_OK, env)
  iosDeviceAssosciate := fun env => (IOS_ERROR_OK, env)
  iosSetBSPReady := id
  iosReceiveMessage := fun _ env => (IOS_ERROR_OK, openMsg, fun _ => 0, env)
  iosResourceReply := fun _ _ _ env => env

def latteEntities : List (BspEntity (Process Device)) := [bspEE_entity (eeCallbacks latteMain.toExt default)]

/-- The boot has come through, with its queue and log. -/
def Booted (id log_fd : U32) : Res Fault (Except MainEnd (U32 × U32) × Process Device) → Bool
  | .ok (.ok (id', log_fd'), _) => id' = id ∧ log_fd' = log_fd
  | _ => false

theorem latteMain_boots : ∃ b₀, (Traced.mainBoots latteMain (boardProcess tinyImage)).res = .ok (.ok (0, 0), b₀) := by
  have hbooted : Booted 0 0 (Traced.mainBoots latteMain (boardProcess tinyImage)).res = true := by decide +kernel
  rcases hr : (Traced.mainBoots latteMain (boardProcess tinyImage)).res with ⟨_ | ⟨id, log_fd⟩, b₀⟩ | f | _ <;>
    rw [hr] at hbooted
  · cases hbooted
  · obtain ⟨rfl, rfl⟩ := of_decide_eq_true hbooted
    exact ⟨b₀, rfl⟩
  · cases hbooted
  · cases hbooted

theorem latteMain_ready : ∃ log_fd b₀, (Traced.mainBoots latteMain (boardProcess tinyImage)).res = .ok (.ok (0, log_fd), b₀) ∧
    BSP_IS_LATTE b₀.bspHardwareVersion = true := by
  obtain ⟨b₀, hboots⟩ := latteMain_boots
  have hes : ∀ c : Call (Process Device), c.Of latteEntities → c.Within boardFrame := by
    rintro c ⟨e, he, t, ht, ha⟩
    obtain rfl := List.mem_singleton.mp he
    obtain rfl := List.mem_singleton.mp ht
    exact ee_pinned ha
  have hasks : .receive 0 IOS_ERROR_OK openMsg ∈ (Traced.main latteMain 0 1 latteEntities 0 (boardProcess tinyImage)).trace :=
    main_asks hboots
  obtain ⟨-, -, log_fd, b₁, hb₁, hlatte, -⟩ := main_ready (fun _ _ => ⟨rfl, rfl⟩) rfl hes hasks
  exact ⟨log_fd, b₁, hb₁, hlatte⟩

end Iosu.Bsp
