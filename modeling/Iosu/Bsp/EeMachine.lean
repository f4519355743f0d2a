/-
  Iosu.Bsp.EeMachine — what the EE entity and `bc.c` are, on a board with a SEEPROM.

  `EeMachine` says it without driver, pins or frames: a store of words that is open or not,
  and the flag of `bcInit`. Its `run` is each call's answer and effect, for the callbacks of
  `bsp_ee.c` and for `bcInit` alike. `ee_follows`: over any sequence of these calls the code
  gives the machine's answers, one by one, up to the end or to the fault that the machine has
  too. What is shown of the machine below and in the modules that build on it is so shown of
  the code, bit-banging included.
-/

import Iosu.Bsp.BoardImage
import Iosu.Bsp.EeStore
import Iosu.Bsp.Shared
import Iosu.Lib.Frame
import Iosu.Lib.Simulation

namespace Iosu.Bsp

open Iosu.Lib Iosu.Lib.Serial Iosu.Lib.Microwire Iosu.Lib.Microwire.Device Iosu.Libc Iosu.Entity Iosu.Ios Iosu.Eeprom

variable {ε : Type}

/-! ## The calls -/

/-- A callback of the EE entity, or `bcInit`. -/
inductive EeCall where
  | read (inst : U32) (pReadData : Buf)
  | write (inst : U32) (pWrittenData : Buf)
  | control (inst : U32) (pWrittenData : Buf)
  | controlInit (inst : U32)
  | controlShutdown (inst : U32)
  | bcRead (inst : U32) (pReadData : BcConfig)
  | bcInit

/-- What a call returns, with what it leaves at its data pointer. -/
inductive EeAnswer where
  | rval (ret : BspRval)
  | data (ret : BspRval) (pReadData : Buf)
  | config (ret : BspRval) (pReadData : BcConfig)
  | err (err : IosError)

def EeAnswer.ret : EeAnswer → U32
  | .rval ret | .data ret _ | .config ret _ | .err ret => ret

def EeCall.run (x : Ext ε) : EeCall → BspM ε EeAnswer
  | .read inst pReadData => do
    let (ret, pReadData) ← bspEE_access_read x inst pReadData
    return .data ret pReadData
  | .write inst pWrittenData => do
    let ret ← bspEE_access_write x inst pWrittenData
    return .rval ret
  | .control inst pWrittenData => do
    let ret ← bspEE_control_write x inst pWrittenData
    return .rval ret
  | .controlInit inst => do
    let ret ← bspEE_control_init x inst
    return .rval ret
  | .controlShutdown inst => do
    let ret ← bspEE_control_shutdown x inst
    return .rval ret
  | .bcRead inst pReadData => do
    let (ret, pReadData) ← bspEE_bc_read x inst pReadData
    return .config ret pReadData
  | .bcInit => do
    let err ← Bsp.bcInit x
    return .err err

/-- A call, with its answer in the trace. -/
def eeStep (x : Ext ε) (b : Process ε) (c : EeCall) : Run (EeCall × EeAnswer) Fault (Process ε) := do
  let (answer, b) ← Run.lift (c.run x b)
  Run.emit (c, answer)
  return b

/-! ## The machine -/

structure EeMachine where
  status : EepromStatus
  store : Store
  bc_initialised : Bool

/-- `bcGet` of what the SEEPROM holds. -/
def boardOf (image : U8 → U16) (config : BcConfig) : Res Fault (IosError × BcConfig) :=
  let n := (image 0x1E).toNat / 2
  if 0x24 < n then .ok (IOS_ERROR_INVALID, config)
  else if n = 0 ∨ n = 0x24 then .fault .frameIndex
  else .ok (if Accepted n (imageWords image (2 * n)) then IOS_ERROR_OK else IOS_ERROR_INVALID,
    patched (imageWords image (2 * n)))

namespace EeMachine

/-- A call of the open driver, for its effect and its answer there. -/
def whenOpen (m : EeMachine) (store : Store) (answer refused : EeAnswer) : EeAnswer × EeMachine :=
  if m.status = .opened then (answer, { m with store := store }) else (refused, m)

@[simp] theorem whenOpen_opened {m : EeMachine} (h : m.status = .opened) (store : Store) (answer refused : EeAnswer) :
    m.whenOpen store answer refused = (answer, { m with store := store }) := if_pos h

@[simp] theorem whenOpen_refused {m : EeMachine} (h : m.status ≠ .opened) (store : Store) (answer refused : EeAnswer) :
    m.whenOpen store answer refused = (refused, m) := if_neg h

def run (m : EeMachine) : EeCall → Res Fault (EeAnswer × EeMachine)
  | .read inst p => .ok (m.whenOpen m.store (.data BSP_RVAL_OK (p.store (Buf.ofU16 (m.store.mem (eeAddress inst)))))
      (.data BSP_RVAL_DEVICE_ERROR p))
  | .write inst p => .ok (m.whenOpen (m.store.program (Function.update m.store.mem (eeAddress inst) (p.load16 0)))
      (.rval BSP_RVAL_OK) (.rval BSP_RVAL_DEVICE_ERROR))
  | .control _ p =>
    if p.load32 0 = 1 then
      .ok (m.whenOpen { m.store with enabled := true } (.rval BSP_RVAL_OK) (.rval BSP_RVAL_DEVICE_ERROR))
    else if p.load32 0 = 2 then
      .ok (m.whenOpen { m.store with enabled := false } (.rval BSP_RVAL_OK) (.rval BSP_RVAL_DEVICE_ERROR))
    else .ok (.rval BSP_RVAL_INVALID_PARAMETER, m)
  | .controlInit _ => .ok (.rval BSP_RVAL_OK, { m with status := .opened, store := { m.store with enabled := false } })
  | .controlShutdown _ =>
    if m.status = .opened then .ok (.rval BSP_RVAL_OK, { m with status := .closed })
    else .ok (.rval BSP_RVAL_DEVICE_ERROR, m)
  | .bcRead _ config =>
    if m.status = .opened then do
      let (err, config) ← boardOf m.store.mem config
      .ok (.config (if err ≠ IOS_ERROR_OK then BSP_RVAL_CFG_CORRUPTED else BSP_RVAL_OK) config, m)
    else .ok (.config BSP_RVAL_CFG_CORRUPTED config, m)
  | .bcInit =>
    if m.bc_initialised then .ok (.err IOS_ERROR_OK, m)
    else .ok (.err IOS_ERROR_OK, { m with status := .opened, bc_initialised := true })

def step (m : EeMachine) (c : EeCall) : Run (EeCall × EeAnswer) Fault EeMachine := do
  let (answer, m) ← Run.lift (m.run c)
  Run.emit (c, answer)
  return m

end EeMachine

/-! ## The board -/

/-- A SEEPROM on the pins, and a kernel that leaves it alone. -/
structure Board (x : Ext ε) (dev : ε → Device) : Prop extends Attached x.gpio dev where
  create_dev : ∀ env, dev (x.iosCreateSemaphore env).2 = dev env
  wait_dev : ∀ id env, dev (x.iosWaitSemaphore id env).2 = dev env
  signal_dev : ∀ id env, dev (x.iosSignalSemaphore id env) = dev env

/-- The machine stands for the process. -/
structure Stands (dev : ε → Device) (b : Process ε) (m : EeMachine) : Prop where
  status : b.drv.status = m.status
  rest : AtRest (dev b.drv.env)
  store : (dev b.drv.env).store = m.store
  initialised : b.bc_initialised = m.bc_initialised

/-- The device is left alone. -/
def sameDevice (dev : ε → Device) : Frame (Process ε) where
  rel b b' := dev b'.drv.env = dev b.drv.env
  refl := fun _ => rfl
  trans := fun h h' => h'.trans h

section LogOpen

variable {α : Type} {x : Ext ε} {dev : ε → Device} {F : Frame (Process ε)}

theorem stays_raise (f : Fault) : Stays F (raise f : BspM ε α) := by
  intro b a b' h
  cases h

theorem stays_callExt {f : ε → α × ε} (hf : ∀ b : Process ε, F.rel b { b with drv := { b.drv with env := (f b.drv.env).2 } }) :
    Stays F (callExt f) := by
  intro b a b' h
  cases h
  exact hf b

theorem log_open_stays (hx : Board x dev) (name : CStr) (unk1 unk2 : U32) :
    Stays (sameDevice dev) (log_open x name unk1 unk2) := by
  have hmodify : ∀ f : Process ε → LogState, Stays (sameDevice dev) (modify fun b => { b with log := f b } : BspM ε PUnit) :=
    fun f => stays_modify fun _ => rfl
  have hcreate : Stays (sameDevice dev) (callExt x.iosCreateSemaphore) := stays_callExt fun _ => hx.create_dev _
  have hwait : ∀ id, Stays (sameDevice dev) (callExt (x.iosWaitSemaphore id)) := fun id => stays_callExt fun _ => hx.wait_dev id _
  have hsignal : ∀ id, Stays (sameDevice dev) (callExt fun env => ((), x.iosSignalSemaphore id env)) :=
    fun id => stays_callExt fun _ => hx.signal_dev id _
  unfold log_open
  refine stays_get.bind fun b => ?_
  dsimp only
  split
  on_goal 1 => refine hcreate.bind fun _ => (hmodify _).bind fun _ => ?_
  -- from here on the two paths are one
  all_goals
    refine stays_get.bind fun _ => ?_
    split
    · exact stays_pure _
    refine (hwait _).bind fun err => ?_
    split
    · exact stays_pure _
    refine stays_get.bind fun b => ?_
    split
    · exact (hsignal _).bind fun _ => stays_pure _
    · split
      · exact (hmodify _).bind fun _ => (hsignal _).bind fun _ => stays_pure _
      · exact stays_raise _

end LogOpen

/-! ## The driver's calls on the board -/

section Calls

variable {x : Ext ε} {dev : ε → Device} {b : Process ε}

/-- Letting the lines go changes nothing in a device at rest. -/
theorem lower_device (hx : Attached x.gpio dev) {env : ε} (h : AtRest (dev env)) :
    AtRest (dev (x.gpio.after lowerScript env)) ∧ (dev (x.gpio.after lowerScript env)).store = (dev env).store := by
  have hrx := rx_after hx lowerScript env
  have hlow : Receiver.decode (dev env).rx (edgesOf lowerScript) = Receiver.idle (dev env).rx.frames := by
    rw [h.1]
    simp [edgesOf, lowerScript, Pin.line, Receiver.decode, Receiver.next, Receiver.idle]
  rw [hlow] at hrx
  obtain ⟨hstore, hbusy⟩ := (reaches_after hx lowerScript env).idle [] (by rw [hrx, List.append_nil]; rfl) (by simp)
  refine ⟨⟨?_, free_of_imp hbusy h.2⟩, hstore⟩
  rw [hrx]
  rfl

theorem lowered_device (hx : Attached x.gpio dev) {d : Drv ε} (h : AtRest (dev d.env)) :
    AtRest (dev (lowered x.gpio d).env) ∧ (dev (lowered x.gpio d).env).store = (dev d.env).store := by
  rw [(lowered_follows (g := x.gpio) d).2.1]
  exact lower_device hx h

theorem reopened_device (hx : Attached x.gpio dev) {d : Drv ε} (h : AtRest (dev d.env)) :
    AtRest (dev (reopened x.gpio d).env) ∧ (dev (reopened x.gpio d).env).store = (dev d.env).store := by
  obtain ⟨hrest, hstore⟩ := lowered_device (d := { d with status := .uninitialised }) hx h
  obtain ⟨hrest', hstore'⟩ :=
    lowered_device (d := { lowered x.gpio { d with status := .uninitialised } with status := .initialised }) hx hrest
  exact ⟨hrest', hstore'.trans hstore⟩

theorem deliveredFrom_device (hx : Attached x.gpio dev) (n i : Nat) {d : Drv ε} (h : d.status = .opened)
    (hrest : AtRest (dev d.env)) :
    AtRest (dev (deliveredFrom x.gpio n i d).2.env) ∧
      (dev (deliveredFrom x.gpio n i d).2.env).store = (dev d.env).store := by
  induction n generalizing i d with
  | zero => exact ⟨hrest, rfl⟩
  | succ n ih =>
    obtain ⟨hstore, hrest'⟩ := device_read hx (BitVec.ofNat 8 (i + 0x1c)) h hrest
    obtain ⟨hrest'', hstore'⟩ := ih (i + 1) ((readWord_status (g := x.gpio) _ d).trans h) hrest'
    exact ⟨hrest'', hstore'.trans hstore⟩

/-- `bcGet`, on an open driver. -/
theorem bcGet_board (hx : Attached x.gpio dev) (hb : Ready dev b) (config : BcConfig) :
    Res.Rel (fun p q => p.1 = q ∧ Ready dev p.2 ∧ (dev p.2.drv.env).store = (dev b.drv.env).store ∧
        p.2.bc_initialised = b.bc_initialised) (bcGet x config b) (boardOf (dev b.drv.env).store.mem config) := by
  have hd := delivers_attached hx hb.1 hb.2
  have hcount := hd.wordCount_eq
  obtain ⟨hstore, hrest⟩ := device_read hx 0x1E hb.1 hb.2
  have hstatus := (readWord_status (g := x.gpio) 0x1E b.drv).trans hb.1
  unfold boardOf
  simp only
  rw [← hcount]
  by_cases hlong : 0x24 < wordCount x b
  · rw [if_pos hlong, bcGet_tooLong hb.1 hlong]
    exact ⟨rfl, ⟨hstatus, hrest⟩, hstore, rfl⟩
  rw [if_neg hlong]
  by_cases hover : wordCount x b = 0 ∨ wordCount x b = 0x24
  · rw [if_pos hover, bcGet_overruns hb.1 hover]
    rfl
  · obtain ⟨hrest', hstore'⟩ := deliveredFrom_device hx (wordCount x b) 0 hstatus hrest
    rw [if_neg hover, bcGet_loaded hb.1 (by omega) (by omega), hd.loadedWords_eq, hd.byteCount_eq]
    exact ⟨rfl, ⟨deliveredFrom_status _ _ hstatus, hrest'⟩, hstore'.trans hstore, rfl⟩

end Calls

/-! ## Each call -/

section Follows

variable {x : Ext ε} {dev : ε → Device} {b : Process ε} {m : EeMachine}

/-- The two outcomes are one: the same answer, and a machine that stands for the process. -/
def SameAnswer (dev : ε → Device) (p : EeAnswer × Process ε) (q : EeAnswer × EeMachine) : Prop :=
  p.1 = q.1 ∧ Stands dev p.2 q.2

theorem Stands.ready (h : Stands dev b m) (hm : m.status = .opened) : Ready dev b := ⟨h.status.trans hm, h.rest⟩

/-- What a call of the open driver leaves. -/
theorem Stands.opened (h : Stands dev b m) (hm : m.status = .opened) {b' : Process ε} {store : Store} (hb : Ready dev b')
    (hstore : (dev b'.drv.env).store = store) (hinit : b'.bc_initialised = b.bc_initialised) :
    Stands dev b' { m with store := store } :=
  ⟨hb.1.trans hm.symm, hb.2, hstore, hinit.trans h.initialised⟩

theorem read_follows (hx : Board x dev) (h : Stands dev b m) (inst : U32) (p : Buf) :
    Res.Rel (SameAnswer dev) ((EeCall.read inst p).run x b) (m.run (.read inst p)) := by
  show Res.Rel _ ((bspEE_access_read x inst p >>= fun q => pure (.data q.1 q.2) : BspM ε EeAnswer) b)
    (.ok (m.whenOpen _ _ _))
  by_cases hm : m.status = .opened
  · obtain ⟨b', hcall, hready, hstore⟩ := access_read_spec hx.toAttached inst p (h.ready hm)
    have hop : (EeOp.read inst p).call x b = .ok (BSP_RVAL_OK, b') := by
      show (bspEE_access_read x inst p >>= _) b = _
      rw [bspM_bind_ok hcall]
      rfl
    rw [bspM_bind_ok hcall, EeMachine.whenOpen_opened hm, h.store]
    exact ⟨rfl, h.opened hm hready (hstore.trans h.store) (ee_gate hop).1⟩
  · have hcall : bspEE_access_read x inst p b = .ok ((BSP_RVAL_DEVICE_ERROR, p), b) := by
      unfold bspEE_access_read
      rw [bspM_bind_ok (call_readWord x.gpio b _), readWord_refused (h.status ▸ hm)]
      rfl
    rw [bspM_bind_ok hcall, EeMachine.whenOpen_refused hm]
    exact ⟨rfl, h⟩

theorem write_follows (hx : Board x dev) (h : Stands dev b m) (inst : U32) (p : Buf) :
    Res.Rel (SameAnswer dev) ((EeCall.write inst p).run x b) (m.run (.write inst p)) := by
  show Res.Rel _ ((bspEE_access_write x inst p >>= fun ret => pure (.rval ret) : BspM ε EeAnswer) b)
    (.ok (m.whenOpen _ _ _))
  by_cases hm : m.status = .opened
  · obtain ⟨b', hcall, hready, hstore⟩ := access_write_spec hx.toAttached inst p (h.ready hm)
    rw [h.store] at hstore
    have hop : (EeOp.write inst p).call x b = .ok (BSP_RVAL_OK, b') := hcall
    rw [bspM_bind_ok hcall, EeMachine.whenOpen_opened hm]
    exact ⟨rfl, h.opened hm hready hstore (ee_gate hop).1⟩
  · have hcall : bspEE_access_write x inst p b = .ok (BSP_RVAL_DEVICE_ERROR, b) := by
      unfold bspEE_access_write
      rw [bspM_bind_ok (call_writeWord x.gpio b _ _), writeWord_refused (h.status ▸ hm)]
      rfl
    rw [bspM_bind_ok hcall, EeMachine.whenOpen_refused hm]
    exact ⟨rfl, h⟩

/-- "control" hands the driver's answer on, for the two commands it knows. -/
theorem control_write_refused (hopen : b.drv.status ≠ .opened) (inst : U32) (p : Buf) :
    bspEE_control_write x inst p b =
      .ok (if p.load32 0 = 1 ∨ p.load32 0 = 2 then BSP_RVAL_DEVICE_ERROR else BSP_RVAL_INVALID_PARAMETER, b) := by
  have hrefused : ∀ cmd, (do
      let err ← callDrv (eepromDrvSetWriteControl x.gpio 0 cmd)
      if err ≠ IOS_ERROR_OK then return BSP_RVAL_DEVICE_ERROR
      return BSP_RVAL_OK : BspM ε BspRval) b = .ok (BSP_RVAL_DEVICE_ERROR, b) := by
    intro cmd
    rw [bspM_bind_ok (call_setWriteControl x.gpio b cmd), setWriteControl_refused hopen]
    rfl
  unfold bspEE_control_write controlCommand
  by_cases h1 : p.load32 0 = 1
  · simp only [h1, if_true, true_or]
    exact hrefused _
  · by_cases h2 : p.load32 0 = 2
    · simp only [h2, if_true, or_true]
      exact hrefused _
    · simp only [h1, h2, if_false, or_self]
      rfl

theorem control_follows (hx : Board x dev) (h : Stands dev b m) (inst : U32) (p : Buf) :
    Res.Rel (SameAnswer dev) ((EeCall.control inst p).run x b) (m.run (.control inst p)) := by
  show Res.Rel _ ((bspEE_control_write x inst p >>= fun ret => pure (.rval ret) : BspM ε EeAnswer) b) _
  by_cases hm : m.status = .opened
  · obtain ⟨b', hcall, hready, hstore⟩ := control_write_spec hx.toAttached inst p (h.ready hm)
    have hop : (EeOp.control inst p).call x b = .ok ((EeOp.control inst p).answer, b') := hcall
    have hinit := (ee_gate hop).1
    rw [h.store] at hstore
    rw [bspM_bind_ok hcall]
    have hstands := h.opened hm hready hstore hinit
    unfold EeMachine.run EeOp.answer
    simp only [EeOp.store, EeOp.enables] at hstands
    by_cases h1 : p.load32 0 = 1
    · simp only [h1, if_true, EeMachine.whenOpen_opened hm, true_or] at hstands ⊢
      exact ⟨rfl, hstands⟩
    · by_cases h2 : p.load32 0 = 2
      · simp only [h2, if_true, EeMachine.whenOpen_opened hm, or_true] at hstands ⊢
        exact ⟨rfl, hstands⟩
      · simp only [h1, h2, if_false, or_self] at hstands ⊢
        exact ⟨rfl, hstands⟩
  · rw [bspM_bind_ok (control_write_refused (h.status ▸ hm) inst p)]
    unfold EeMachine.run
    by_cases h1 : p.load32 0 = 1
    · simp only [h1, if_true, EeMachine.whenOpen_refused hm, true_or]
      exact ⟨rfl, h⟩
    · by_cases h2 : p.load32 0 = 2
      · simp only [h2, if_true, EeMachine.whenOpen_refused hm, or_true]
        exact ⟨rfl, h⟩
      · simp only [h1, h2, if_false, or_self]
        exact ⟨rfl, h⟩

theorem control_init_opens (inst : U32) (hlow : x.gpio.AllOk lowerScript b.drv.env)
    (hok : (setWriteControl x.gpio EEPROM_WRITE_DISABLE (reopened x.gpio b.drv)).1 = IOS_ERROR_OK) :
    bspEE_control_init x inst b =
      .ok (BSP_RVAL_OK, { b with drv := (setWriteControl x.gpio EEPROM_WRITE_DISABLE (reopened x.gpio b.drv)).2 }) := by
  have hlast : (do
      let err ← callDrv (eepromDrvSetWriteControl x.gpio 0 EEPROM_WRITE_DISABLE)
      if err ≠ IOS_ERROR_OK then return BSP_RVAL_DEVICE_ERROR
      return BSP_RVAL_OK : BspM ε BspRval) { b with drv := reopened x.gpio b.drv } =
      .ok (BSP_RVAL_OK, { b with drv := (setWriteControl x.gpio EEPROM_WRITE_DISABLE (reopened x.gpio b.drv)).2 }) := by
    rw [bspM_bind_ok (call_setWriteControl x.gpio _ EEPROM_WRITE_DISABLE), hok]
    rfl
  unfold bspEE_control_init
  rw [bspM_bind_ok (call_init x.gpio b), init_ok hlow]
  show (callDrv (eepromDrvOpen x.gpio 0) >>= _) _ = _
  rw [bspM_bind_ok (call_open x.gpio _), openCtx_opened (Or.inr rfl)]
  exact hlast

/-- The control's init opens the driver, from whatever state, and disables programming. -/
theorem controlInit_follows (hx : Board x dev) (h : Stands dev b m) (inst : U32) :
    Res.Rel (SameAnswer dev) ((EeCall.controlInit inst).run x b) (m.run (.controlInit inst)) := by
  obtain ⟨hrest, hstore⟩ := reopened_device hx.toAttached h.rest
  obtain ⟨hok, hstore', hrest'⟩ := device_switch hx.toAttached EEPROM_WRITE_DISABLE (f := ewds)
    (d := reopened x.gpio b.drv) rfl (by decide) rfl hrest
  have hstatus : (setWriteControl x.gpio EEPROM_WRITE_DISABLE (reopened x.gpio b.drv)).2.status = .opened :=
    setWriteControl_status (g := x.gpio) EEPROM_WRITE_DISABLE (reopened x.gpio b.drv)
  have hcall := control_init_opens inst (hx.toAttached.allOk lowerScript b.drv.env) hok
  rw [hstore, h.store] at hstore'
  show Res.Rel _ ((bspEE_control_init x inst >>= fun ret => pure (.rval ret) : BspM ε EeAnswer) b) _
  rw [bspM_bind_ok hcall]
  -- so that nothing below runs the driver
  generalize (setWriteControl x.gpio EEPROM_WRITE_DISABLE (reopened x.gpio b.drv)).2 = d at hstatus hstore' hrest' ⊢
  exact ⟨rfl, hstatus, hrest', hstore', h.initialised⟩

theorem controlShutdown_follows (hx : Board x dev) (h : Stands dev b m) (inst : U32) :
    Res.Rel (SameAnswer dev) ((EeCall.controlShutdown inst).run x b) (m.run (.controlShutdown inst)) := by
  show Res.Rel _ ((bspEE_control_shutdown x inst >>= fun ret => pure (.rval ret) : BspM ε EeAnswer) b) _
  unfold EeMachine.run
  by_cases hm : m.status = .opened
  · have hcall : bspEE_control_shutdown x inst b =
        .ok (BSP_RVAL_OK, { b with drv := { lowered x.gpio b.drv with status := .closed } }) := by
      unfold bspEE_control_shutdown
      rw [bspM_bind_ok (call_shutdown x.gpio b), shutdown_opened (h.status.trans hm)]
      rfl
    obtain ⟨hrest, hstore⟩ := lowered_device hx.toAttached h.rest
    simp only [if_pos hm]
    rw [bspM_bind_ok hcall]
    exact ⟨rfl, rfl, hrest, hstore.trans h.store, h.initialised⟩
  · have hcall : bspEE_control_shutdown x inst b = .ok (BSP_RVAL_DEVICE_ERROR, b) := by
      unfold bspEE_control_shutdown
      rw [bspM_bind_ok (call_shutdown x.gpio b), shutdown_refused (h.status ▸ hm)]
      rfl
    simp only [if_neg hm]
    rw [bspM_bind_ok hcall]
    exact ⟨rfl, h⟩

theorem bcRead_follows (hx : Board x dev) (h : Stands dev b m) (inst : U32) (config : BcConfig) :
    Res.Rel (SameAnswer dev) ((EeCall.bcRead inst config).run x b) (m.run (.bcRead inst config)) := by
  show Res.Rel _ ((bspEE_bc_read x inst config >>= fun q => pure (.config q.1 q.2) : BspM ε EeAnswer) b) _
  unfold EeMachine.run
  by_cases hm : m.status = .opened
  · have hboard := bcGet_board hx.toAttached (h.ready hm) config
    simp only [if_pos hm]
    rw [h.store] at hboard
    unfold bspEE_bc_read
    rw [bspM_bind, bspM_bind]
    cases hb : boardOf m.store.mem config with
    | ok q =>
      obtain ⟨err, config'⟩ := q
      cases hget : bcGet x config b with
      | ok p =>
        obtain ⟨⟨err', config''⟩, b'⟩ := p
        rw [hb, hget] at hboard
        obtain ⟨heq, hready, hstore, hinit⟩ := hboard
        cases heq
        have hstands := h.opened hm hready hstore hinit
        show Res.Rel _ (((if err ≠ IOS_ERROR_OK then pure (BSP_RVAL_CFG_CORRUPTED, config')
          else pure (BSP_RVAL_OK, config') : BspM ε (BspRval × BcConfig)) b') >>= _)
          (.ok (EeAnswer.config (if err ≠ IOS_ERROR_OK then BSP_RVAL_CFG_CORRUPTED else BSP_RVAL_OK) config', m))
        by_cases herr : err ≠ IOS_ERROR_OK
        · rw [if_pos herr, if_pos herr]
          exact ⟨rfl, hstands⟩
        · rw [if_neg herr, if_neg herr]
          exact ⟨rfl, hstands⟩
      | fault f => rw [hb, hget] at hboard; exact absurd hboard id
      | spin => rw [hb, hget] at hboard; exact absurd hboard id
    | fault f =>
      cases hget : bcGet x config b with
      | fault f' => rw [hb, hget] at hboard; exact hboard
      | ok p => rw [hb, hget] at hboard; exact absurd hboard id
      | spin => rw [hb, hget] at hboard; exact absurd hboard id
    | spin =>
      cases hget : bcGet x config b with
      | spin => trivial
      | ok p => rw [hb, hget] at hboard; exact absurd hboard id
      | fault f => rw [hb, hget] at hboard; exact absurd hboard id
  · have hcall : bspEE_bc_read x inst config b = .ok ((BSP_RVAL_CFG_CORRUPTED, config), b) := by
      unfold bspEE_bc_read
      rw [bspM_bind_ok (bcGet_notReady (h.status ▸ hm) config)]
      rfl
    simp only [if_neg hm]
    rw [bspM_bind_ok hcall]
    exact ⟨rfl, h⟩

theorem bcInit_follows (hx : Board x dev) (h : Stands dev b m) :
    Res.Rel (SameAnswer dev) (EeCall.bcInit.run x b) (m.run .bcInit) := by
  obtain ⟨handle, log, env, hlog⟩ := log_open_onlyLogs x (cstr "BC") 0 1 b
  have hdev : dev env = dev b.drv.env := log_open_stays hx (cstr "BC") 0 1 b handle _ hlog
  -- behind its `log_open`
  have hopen : bcInit x b = bcOpen x { b.logged log env with bc_log_handle := handle } := by
    unfold bcInit
    rw [bspM_bind_ok hlog]
    rfl
  have hrest : AtRest (dev env) := hdev ▸ h.rest
  show Res.Rel _ ((Bsp.bcInit x >>= fun err => pure (.err err) : BspM ε EeAnswer) b) _
  unfold EeMachine.run
  cases hinit : m.bc_initialised with
  | true =>
    rw [bspM_bind_ok (hopen.trans (bcOpen_again (h.initialised.trans hinit)))]
    exact ⟨rfl, h.status, hrest, (congrArg Device.store hdev).trans h.store, h.initialised⟩
  | false =>
    have hok := hx.toAttached.allOk lowerScript env
    rw [bspM_bind_ok (hopen.trans (bcOpen_opens (h.initialised.trans hinit) hok))]
    obtain ⟨hrest', hstore⟩ := reopened_device (d := { b.drv with env := env }) hx.toAttached hrest
    exact ⟨rfl, rfl, hrest', (hstore.trans (congrArg Device.store hdev)).trans h.store, rfl⟩

theorem run_follows (hx : Board x dev) (h : Stands dev b m) (c : EeCall) :
    Res.Rel (SameAnswer dev) (c.run x b) (m.run c) := by
  cases c with
  | read inst p => exact read_follows hx h inst p
  | write inst p => exact write_follows hx h inst p
  | control inst p => exact control_follows hx h inst p
  | controlInit inst => exact controlInit_follows hx h inst
  | controlShutdown inst => exact controlShutdown_follows hx h inst
  | bcRead inst config => exact bcRead_follows hx h inst config
  | bcInit => exact bcInit_follows hx h

/-! ## Every run -/

theorem step_follows (hx : Board x dev) (h : Stands dev b m) (c : EeCall) :
    Run.Sim (Stands dev) (eeStep x b c) (m.step c) := by
  refine (Run.sim_lift (run_follows hx h c)).bind ?_
  rintro ⟨answer, b'⟩ ⟨answer', m'⟩ ⟨rfl, hstands⟩
  exact (Run.sim_emit _).bind fun _ _ _ => Run.sim_pure hstands

end Follows

/-- Over any sequence of calls the code answers what the machine answers. -/
theorem ee_follows {x : Ext ε} {dev : ε → Device} (hx : Board x dev) {b : Process ε} {m : EeMachine}
    (h : Stands dev b m) (calls : List EeCall) :
    Run.Sim (Stands dev) (Run.iter (eeStep x) b calls) (Run.iter EeMachine.step m calls) :=
  Run.sim_iter (fun _ _ c h => step_follows hx h c) calls h

/-- The process of a board at its start. -/
theorem start_stands (mem : U8 → U16) (enabled : Bool) :
    Stands id (Process.start (Device.fresh mem enabled)) ⟨.uninitialised, ⟨mem, enabled⟩, false⟩ :=
  ⟨rfl, Device.fresh_atRest mem enabled, rfl, rfl⟩

theorem seeprom_board : Board (Ext.quiet seeprom 0 0) id where
  toAttached := seeprom_attached
  create_dev := fun _ => rfl
  wait_dev := fun _ _ => rfl
  signal_dev := fun _ _ => rfl

/-- Programming is enabled, the size word of a blank SEEPROM is written and read back, and
    the board configuration is read. -/
def sizing : List EeCall :=
  [.controlInit 0, .control 0 (Buf.store (fun _ => 0) (Buf.ofU32 1)), .write 0x1E (Buf.store (fun _ => 0) (Buf.ofU16 2)),
    .read 0x1E fun _ => 0, .bcInit, .bcRead 0 BcConfig.zero]

/-- Each of them is answered, by the code as by the machine. -/
theorem sizing_follows :
    Run.Sim (Stands id)
        (Run.iter (eeStep (Ext.quiet seeprom 0 0)) (Process.start (Device.fresh (fun _ => 0) false)) sizing)
        (Run.iter EeMachine.step ⟨.uninitialised, ⟨fun _ => 0, false⟩, false⟩ sizing) ∧
      ((Run.iter EeMachine.step ⟨.uninitialised, ⟨fun _ => 0, false⟩, false⟩ sizing).trace.map fun e => e.2.ret) =
        [BSP_RVAL_OK, BSP_RVAL_OK, BSP_RVAL_OK, BSP_RVAL_OK, IOS_ERROR_OK, BSP_RVAL_OK] :=
  ⟨ee_follows seeprom_board (start_stands (fun _ => 0) false) sizing, by decide +kernel⟩

end Iosu.Bsp
