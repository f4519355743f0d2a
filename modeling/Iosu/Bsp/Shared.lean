/-
  Iosu.Bsp.Shared — one driver, two users.

  `bcInit` opens the driver once and remembers it in `bc_initialised`; the EE entity's
  control re-initialises and shuts down the same driver and leaves `bc_initialised` as it
  is. What `bcInit` relies on is `SharedInv`. A step keeps it unless it closes the driver
  behind a `bcInit`, or fails to initialise it anew (`sharedInv_step`); so `bcInit`
  answers IOS_ERROR_OK on an open driver throughout exactly the runs without such a
  step (`initOpens_iff_keeps`).
-/

import Iosu.Bsp.EeStore
import Iosu.Bsp.BoardWords

namespace Iosu.Bsp

open Iosu.Lib Iosu.Lib.Microwire Iosu.Entity Iosu.Ios Iosu.Eeprom

variable {ε : Type}

/-! ## The operations -/

inductive SharedOp where
  | bcInit
  | bcGet (config : BcConfig)
  | ee (op : EeOp)
  | controlInit (inst : U32)
  | controlShutdown (inst : U32)

def SharedOp.call (x : Ext ε) : SharedOp → BspM ε Unit
  | .bcInit => do
    let _ ← Bsp.bcInit x
    return
  | .bcGet config => do
    let _ ← Bsp.bcGet x config
    return
  | .ee op => do
    let _ ← op.call x
    return
  | .controlInit inst => do
    let _ ← bspEE_control_init x inst
    return
  | .controlShutdown inst => do
    let _ ← bspEE_control_shutdown x inst
    return

def sharedStep (x : Ext ε) (b : Process ε) (op : SharedOp) : Run WireEvent Fault (Process ε) :=
  Run.lift (op.call x b >>= fun p => .ok p.2)

/-! ## The invariant -/

def SharedInv (b : Process ε) : Prop := b.bc_initialised = true → b.drv.status = .opened

/-- Where `bcInit` answers IOS_ERROR_OK it leaves an open driver, and a `bcGet` behind it
    is not turned away. -/
def InitOpens (x : Ext ε) (b : Process ε) : Prop :=
  ∀ b', bcInit x b = .ok (IOS_ERROR_OK, b') → b'.drv.status = .opened ∧
    ∀ config err config' b'', bcGet x config b' = .ok ((err, config'), b'') → err ≠ IOS_ERROR_NOTREADY

/-- The step does not take the open driver away from `bcInit`. -/
def Keeps (x : Ext ε) (b : Process ε) : SharedOp → Prop
  | .controlInit _ => b.bc_initialised = true → x.gpio.AllOk lowerScript b.drv.env
  | .controlShutdown _ => b.bc_initialised = false
  | .bcInit => True
  | .bcGet _ => True
  | .ee _ => True

section Shared

variable {x : Ext ε}

/-- A call that leaves `bc_initialised` and the status. -/
def SameGate (b b' : Process ε) : Prop := b'.bc_initialised = b.bc_initialised ∧ b'.drv.status = b.drv.status

theorem SameGate.inv {b b' : Process ε} (h : SameGate b b') (hb : SharedInv b) : SharedInv b' := by
  intro hinit
  rw [h.2]
  exact hb (h.1 ▸ hinit)

theorem bcGet_gate {config config' : BcConfig} {err : IosError} {b b' : Process ε}
    (h : bcGet x config b = .ok ((err, config'), b')) :
    SameGate b b' ∧ (b.drv.status = .opened → err ≠ IOS_ERROR_NOTREADY) := by
  by_cases hopen : b.drv.status = .opened
  · have hstatus := readWord_status (g := x.gpio) 0x1E b.drv
    by_cases hlong : 0x24 < wordCount x b
    · rw [bcGet_tooLong hopen hlong] at h
      cases h
      exact ⟨⟨rfl, hstatus⟩, fun _ => by decide⟩
    · by_cases hover : wordCount x b = 0 ∨ wordCount x b = 0x24
      · rw [bcGet_overruns hopen hover] at h
        cases h
      · rw [bcGet_loaded hopen (by omega) (by omega)] at h
        cases h
        refine ⟨⟨rfl, ?_⟩, fun _ => ?_⟩
        · show (loads x b).2.status = b.drv.status
          rw [hopen]
          exact deliveredFrom_status _ _ (hstatus.trans hopen)
        · split
          · decide
          · decide
  · rw [bcGet_notReady hopen] at h
    cases h
    exact ⟨⟨rfl, rfl⟩, fun ho => absurd ho hopen⟩

theorem bcInit_inv {err : IosError} {b b' : Process ε} (h : bcInit x b = .ok (err, b')) (hb : SharedInv b) :
    SharedInv b' ∧ (err = IOS_ERROR_OK → b'.bc_initialised = true) := by
  obtain ⟨b₁, hlog, heq⟩ := bcInit_eq x b
  rw [heq] at h
  cases hinit : b₁.bc_initialised with
  | true =>
    rw [bcOpen_again hinit] at h
    cases h
    exact ⟨fun _ => hlog.status.trans (hb (hlog.initialised.symm.trans hinit)), fun _ => hinit⟩
  | false =>
    by_cases hok : x.gpio.AllOk lowerScript b₁.drv.env
    · rw [bcOpen_opens hinit hok] at h
      cases h
      exact ⟨fun _ => rfl, fun _ => rfl⟩
    · obtain ⟨err', herr, hfail⟩ := bcOpen_fails hinit hok
      rw [hfail] at h
      cases h
      refine ⟨fun hinit' => ?_, fun he => absurd he herr⟩
      rw [show b₁.bc_initialised = true from hinit'] at hinit
      cases hinit

/-- What `bcInit` relies on is what it promises. -/
theorem initOpens_iff (x : Ext ε) (b : Process ε) : InitOpens x b ↔ SharedInv b := by
  refine ⟨?_, ?_⟩
  · intro h hinit
    obtain ⟨b₁, hlog, heq⟩ := bcInit_eq x b
    rw [bcOpen_again (hlog.initialised.trans hinit)] at heq
    exact hlog.status.symm.trans (h _ heq).1
  · intro hb b' h
    obtain ⟨hinv, hinit⟩ := bcInit_inv h hb
    refine ⟨hinv (hinit rfl), ?_⟩
    intro config err config' b'' hget
    exact (bcGet_gate hget).2 (hinv (hinit rfl))

/-! ## The callbacks -/

theorem ee_gate {op : EeOp} {ret : BspRval} {b b' : Process ε} (h : op.call x b = .ok (ret, b')) : SameGate b b' := by
  cases op with
  | read inst p =>
    have hstatus := readWord_status (g := x.gpio) (eeAddress inst) b.drv
    change (bspEE_access_read x inst p >>= _) b = _ at h
    unfold bspEE_access_read at h
    rw [bspM_bind, bspM_bind_ok (call_readWord x.gpio b _)] at h
    dsimp only at h
    split at h
    · cases h
      exact ⟨rfl, hstatus⟩
    · cases h
      exact ⟨rfl, hstatus⟩
  | write inst p =>
    have hstatus := writeWord_status (g := x.gpio) (eeAddress inst) (p.load16 0) b.drv
    change bspEE_access_write x inst p b = _ at h
    unfold bspEE_access_write at h
    rw [bspM_bind_ok (call_writeWord x.gpio b _ _)] at h
    split at h
    · cases h
      exact ⟨rfl, hstatus⟩
    · cases h
      exact ⟨rfl, hstatus⟩
  | control inst p =>
    change bspEE_control_write x inst p b = _ at h
    unfold bspEE_control_write at h
    cases hcmd : controlCommand (p.load32 0) with
    | none =>
      rw [hcmd] at h
      cases h
      exact ⟨rfl, rfl⟩
    | some cmd =>
      have hstatus := setWriteControl_status (g := x.gpio) cmd b.drv
      rw [hcmd] at h
      dsimp only at h
      rw [bspM_bind_ok (call_setWriteControl x.gpio b _)] at h
      split at h
      · cases h
        exact ⟨rfl, hstatus⟩
      · cases h
        exact ⟨rfl, hstatus⟩

/-- A call of `eepromDrvSetWriteControl` that is turned into a `BSP_RVAL`. -/
theorem setWriteControl_gate (control : U32) (b : Process ε) :
    ∃ ret b', (do
        let err ← callDrv (eepromDrvSetWriteControl x.gpio 0 control)
        if err ≠ IOS_ERROR_OK then return BSP_RVAL_DEVICE_ERROR
        return BSP_RVAL_OK : BspM ε BspRval) b = .ok (ret, b') ∧ SameGate b b' := by
  have hstatus := setWriteControl_status (g := x.gpio) control b.drv
  rw [bspM_bind_ok (call_setWriteControl x.gpio b control)]
  split
  · exact ⟨_, _, rfl, rfl, hstatus⟩
  · exact ⟨_, _, rfl, rfl, hstatus⟩

/-- The control's init opens the driver exactly when the pins of `eepromDrvInit` succeed. -/
theorem control_init_gate (inst : U32) (b : Process ε) :
    ∃ ret b', bspEE_control_init x inst b = .ok (ret, b') ∧ b'.bc_initialised = b.bc_initialised ∧
      (b'.drv.status = .opened ↔ x.gpio.AllOk lowerScript b.drv.env) := by
  unfold bspEE_control_init
  rw [bspM_bind_ok (call_init x.gpio b)]
  by_cases hok : x.gpio.AllOk lowerScript b.drv.env
  · obtain ⟨ret, b', hrun, hsame⟩ :=
      setWriteControl_gate (x := x) EEPROM_WRITE_DISABLE { b with drv := reopened x.gpio b.drv }
    refine ⟨ret, b', ?_, hsame.1, fun _ => hok, fun _ => hsame.2⟩
    rw [init_ok hok]
    show (callDrv (eepromDrvOpen x.gpio 0) >>= _) _ = _
    rw [bspM_bind_ok (call_open x.gpio _), openCtx_opened (Or.inr rfl)]
    exact hrun
  · obtain ⟨herr, hdrv⟩ := init_fails hok
    refine ⟨BSP_RVAL_DEVICE_ERROR, { b with drv := lowered x.gpio { b.drv with status := .uninitialised } }, ?_, rfl, ?_⟩
    · rw [if_pos herr, hdrv]
      rfl
    · refine ⟨fun hopen => ?_, fun h => absurd h hok⟩
      change (lowered x.gpio { b.drv with status := .uninitialised }).status = _ at hopen
      rw [(lowered_follows (g := x.gpio) { b.drv with status := .uninitialised }).2.2] at hopen
      cases hopen

theorem control_shutdown_gate (inst : U32) (b : Process ε) :
    ∃ ret b', bspEE_control_shutdown x inst b = .ok (ret, b') ∧ b'.bc_initialised = b.bc_initialised ∧
      b'.drv.status ≠ .opened := by
  unfold bspEE_control_shutdown
  rw [bspM_bind_ok (call_shutdown x.gpio b)]
  by_cases hopen : b.drv.status = .opened
  · rw [shutdown_opened hopen]
    exact ⟨_, _, rfl, rfl, by simp⟩
  · rw [shutdown_refused hopen]
    exact ⟨_, _, rfl, rfl, hopen⟩

/-! ## Every run -/

theorem sharedStep_eq_ok {op : SharedOp} {b b' : Process ε} :
    (sharedStep x b op).res = .ok b' ↔ op.call x b = .ok ((), b') := by
  show (op.call x b >>= fun p => .ok p.2) = .ok b' ↔ _
  rw [Res.bind_eq_ok]
  refine ⟨?_, fun h => ⟨((), b'), h, rfl⟩⟩
  intro hsome
  obtain ⟨⟨u, b₁⟩, h, heq⟩ := hsome
  cases heq
  exact h

/-- A result that is dropped. -/
theorem drop_eq_ok {α : Type} {m : BspM ε α} {b b' : Process ε} :
    (do let _ ← m; return : BspM ε Unit) b = .ok ((), b') ↔ ∃ a, m b = .ok (a, b') := by
  rw [bspM_bind, Res.bind_eq_ok]
  refine ⟨?_, fun ⟨a, h⟩ => ⟨(a, b'), h, rfl⟩⟩
  intro hsome
  obtain ⟨⟨a, b₁⟩, h, heq⟩ := hsome
  cases heq
  exact ⟨a, h⟩

/-- The steps that keep the invariant. -/
theorem sharedInv_step (op : SharedOp) {b : Process ε} (hb : SharedInv b) :
    Keeps x b op ↔ ∀ b', (sharedStep x b op).res = .ok b' → SharedInv b' := by
  cases op with
  | bcInit =>
    refine ⟨fun _ b' h => ?_, fun _ => trivial⟩
    obtain ⟨err, h⟩ := drop_eq_ok.mp (sharedStep_eq_ok.mp h)
    exact (bcInit_inv h hb).1
  | bcGet config =>
    refine ⟨fun _ b' h => ?_, fun _ => trivial⟩
    obtain ⟨⟨err, config'⟩, h⟩ := drop_eq_ok.mp (sharedStep_eq_ok.mp h)
    exact (bcGet_gate h).1.inv hb
  | ee op =>
    refine ⟨fun _ b' h => ?_, fun _ => trivial⟩
    obtain ⟨ret, h⟩ := drop_eq_ok.mp (sharedStep_eq_ok.mp h)
    exact (ee_gate h).inv hb
  | controlInit inst =>
    obtain ⟨ret, b₁, hrun, hinit, hopen⟩ := control_init_gate (x := x) inst b
    refine ⟨fun hk b' h => ?_, fun h hinit' => ?_⟩
    · obtain ⟨ret', h⟩ := drop_eq_ok.mp (sharedStep_eq_ok.mp h)
      rw [hrun] at h
      cases h
      exact fun hinit' => hopen.mpr (hk (hinit ▸ hinit'))
    · exact hopen.mp (h b₁ (sharedStep_eq_ok.mpr (drop_eq_ok.mpr ⟨ret, hrun⟩)) (hinit.trans hinit'))
  | controlShutdown inst =>
    obtain ⟨ret, b₁, hrun, hinit, hclosed⟩ := control_shutdown_gate (x := x) inst b
    refine ⟨fun hk b' h => ?_, fun h => ?_⟩
    · obtain ⟨ret', h⟩ := drop_eq_ok.mp (sharedStep_eq_ok.mp h)
      rw [hrun] at h
      cases h
      intro hinit'
      rw [hinit, show b.bc_initialised = false from hk] at hinit'
      cases hinit'
    · show b.bc_initialised = false
      cases hb' : b.bc_initialised with
      | false => rfl
      | true => exact absurd (h b₁ (sharedStep_eq_ok.mpr (drop_eq_ok.mpr ⟨ret, hrun⟩)) (hinit.trans hb')) hclosed

/-- In every state of a run `bcInit` answers IOS_ERROR_OK only on an open driver, which
    does not turn the next `bcGet` away, exactly when no step of the run takes the driver
    away from it. -/
theorem initOpens_iff_keeps {b : Process ε} (hb : SharedInv b) (ops : List SharedOp) :
    (∀ done rest b', ops = done ++ rest → (Run.iter (sharedStep x) b done).res = .ok b' → InitOpens x b') ↔
      Run.Throughout (sharedStep x) (Keeps x) b ops := by
  rw [Run.throughout_iff (fun b op hb => sharedInv_step op hb) hb ops]
  simp only [initOpens_iff]

/-- A first `bcInit`, on a SEEPROM. -/
theorem first_bcInit : ∃ b₁ b₂, LoggedFrom (Process.start (Device.fresh (fun _ => 0) false)) b₁ ∧
    b₂ = { b₁ with drv := reopened seeprom b₁.drv, bc_initialised := true } ∧
    (sharedStep (Ext.quiet seeprom 0 0) (Process.start (Device.fresh (fun _ => 0) false)) .bcInit).res = .ok b₂ := by
  obtain ⟨b₁, hlog, heq⟩ := bcInit_eq (Ext.quiet seeprom 0 0) (Process.start (Device.fresh (fun _ => 0) false))
  have hopens := bcOpen_opens (x := Ext.quiet seeprom 0 0) hlog.initialised (seeprom_attached.allOk lowerScript b₁.drv.env)
  exact ⟨b₁, _, hlog, rfl, sharedStep_eq_ok.mpr (drop_eq_ok.mpr ⟨_, heq.trans hopens⟩)⟩

/-- The EE entity's control is initialised behind `bcInit`, on pins that work. -/
theorem reinit_keeps_bc :
    ∃ b', (Run.iter (sharedStep (Ext.quiet seeprom 0 0)) (Process.start (Device.fresh (fun _ => 0) false))
        [.bcInit, .controlInit 0]).res = .ok b' ∧
      InitOpens (Ext.quiet seeprom 0 0) b' := by
  obtain ⟨b₁, b₂, -, -, hfirst⟩ := first_bcInit
  obtain ⟨ret, b₃, hsecond, -, -⟩ := control_init_gate (x := Ext.quiet seeprom 0 0) 0 b₂
  have hrun : (Run.iter (sharedStep (Ext.quiet seeprom 0 0)) (Process.start (Device.fresh (fun _ => 0) false))
      [.bcInit, .controlInit 0]).res = .ok b₃ :=
    Run.bind_res_ok.mpr ⟨b₂, hfirst, Run.bind_res_ok.mpr ⟨b₃, sharedStep_eq_ok.mpr (drop_eq_ok.mpr ⟨ret, hsecond⟩), rfl⟩⟩
  have hstart : SharedInv (Process.start (Device.fresh (fun _ => 0) false)) :=
    fun hinit => absurd hinit (by simp [Process.start])
  refine ⟨b₃, hrun, (initOpens_iff_keeps (x := Ext.quiet seeprom 0 0) hstart [.bcInit, .controlInit 0]).mpr
    ⟨trivial, fun b _ => ⟨fun _ => ?_, fun b _ => trivial⟩⟩ [.bcInit, .controlInit 0] [] b₃ rfl hrun⟩
  exact seeprom_attached.allOk lowerScript b.drv.env

/-- The control is shut down behind `bcInit`: a second `bcInit` answers IOS_ERROR_OK, with
    the driver closed. -/
theorem shutdown_closes_bc :
    ∃ b', (Run.iter (sharedStep (Ext.quiet seeprom 0 0)) (Process.start (Device.fresh (fun _ => 0) false))
        [.bcInit, .controlShutdown 0]).res = .ok b' ∧
      ¬ InitOpens (Ext.quiet seeprom 0 0) b' := by
  obtain ⟨b₁, b₂, -, rfl, hfirst⟩ := first_bcInit
  obtain ⟨ret, b₃, hshut, hinit, hclosed⟩ := control_shutdown_gate (x := Ext.quiet seeprom 0 0) 0
    { b₁ with drv := reopened seeprom b₁.drv, bc_initialised := true }
  refine ⟨b₃, ?_, ?_⟩
  · exact Run.bind_res_ok.mpr ⟨_, hfirst, Run.bind_res_ok.mpr ⟨b₃, sharedStep_eq_ok.mpr (drop_eq_ok.mpr ⟨_, hshut⟩), rfl⟩⟩
  · rw [initOpens_iff]
    exact fun h => hclosed (h hinit)

end Shared

end Iosu.Bsp
