/-
  Iosu.Eeprom.Calls — the calls of the driver, script by script.

  An open driver answers a read, an EWDS and an EWEN with IOS_ERROR_OK whatever happened
  on the pins, and a write and an ERAL when a poll finds EEPROM_DI high afterwards: each
  `_opened` lemma says which accesses the call makes, and what its answer depends on.
-/

import Iosu.Eeprom.Script
import Iosu.Eeprom.Protocol

namespace Iosu.Eeprom

open Iosu.Lib Iosu.Lib.Serial Iosu.Entity Iosu.Ios

variable {ε : Type}

/-! ## The scripts of `eeprom.c` -/

def readScript (addr : U8) : List Access :=
  ([true, true, false] ++ msbFirst addr).flatMap cellScript ++ (List.replicate 16 pollScript).flatten

def writeScript (addr : U8) (data : U16) : List Access :=
  ([true, false, true] ++ msbFirst addr ++ msbFirst data).flatMap cellScript

/-- The bits of `eepromDrvSetWriteControl`. -/
def controlFrame (control : U32) : Option Frame :=
  if control = EEPROM_WRITE_ERASE then some eral
  else if control = EEPROM_WRITE_DISABLE then some ewds
  else if control = EEPROM_WRITE_ENABLE then some ewen
  else none

def lowerScript : List Access := [.write .eepromCS false, .write .eepromSK false, .write .eepromDO false]

theorem readScript_length (addr : U8) : (readScript addr).length = 4 * (11 + 16) := by
  unfold readScript msbFirst
  rw [List.length_append, cells_length, polls_length, List.length_append, bitsBelow_length]
  rfl

theorem writeScript_length (addr : U8) (data : U16) : (writeScript addr data).length = 4 * 27 := by
  unfold writeScript msbFirst
  rw [cells_length, List.length_append, List.length_append, bitsBelow_length, bitsBelow_length]
  rfl

theorem controlFrame_length {control : U32} {f : Frame} (h : controlFrame control = some f) : f.length = 11 := by
  unfold controlFrame at h
  split at h
  · cases h
    rfl
  · split at h
    · cases h
      rfl
    · split at h
      · cases h
        rfl
      · cases h

/-- After the bits of a command have been sent and let go, one of the 1000 polls finds
    EEPROM_DI high. -/
def Gpio.BecomesReady (g : Gpio ε) (script : List Access) (env : ε) : Prop :=
  g.readyWithin 1000 (g.after (script ++ (releaseScript 2 ++ [.write .eepromDO false])) env) = true

/-- `eepromDrvWaitForReady` with `k` polls. -/
def waitScript (k : Nat) : List Access :=
  [.write .eepromDO false] ++ ((List.replicate k pollScript).flatten ++ releaseScript 2)

/-- The last of `k` polls finds EEPROM_DI high. -/
def Gpio.SawReady (g : Gpio ε) (k : Nat) (env : ε) : Prop :=
  ∃ j, k = j + 1 ∧ g.sample (g.after (List.replicate j pollScript).flatten env) = true

/-! ## The functions and their scripts -/

section Calls

variable {g : Gpio ε}

/-- The polling stops at the first poll that finds EEPROM_DI high. -/
theorem follows_pollReady (n : Nat) (d : Drv ε) :
    ∃ k, FollowsFrom g (pollReady g n) d (List.replicate k pollScript).flatten ∧
      (g.readyWithin n d.env = true → g.SawReady k d.env) := by
  induction n generalizing d with
  | zero => exact ⟨0, follows_pure true d, fun h => absurd h (by decide : ¬ false = true)⟩
  | succ n ih =>
    have hbit := readBit_value (g := g) d
    unfold pollReady
    cases hs : g.sample d.env with
    | true =>
      rw [hs] at hbit
      refine ⟨1, (follows_readBit g d).bind (r := []) ?_, fun _ => ⟨0, rfl, hs⟩⟩
      rw [if_pos (by rw [hbit]; decide)]
      exact follows_pure false _
    | false =>
      rw [hs] at hbit
      obtain ⟨k, hk, hsaw⟩ := ih (eepromDrvReadBit g d).2
      refine ⟨k + 1, ?_, ?_⟩
      · rw [List.replicate_succ, List.flatten_cons]
        refine (follows_readBit g d).bind ?_
        rw [if_neg (by rw [hbit]; decide)]
        exact hk
      · intro hready
        unfold Gpio.readyWithin at hready
        rw [g.samples_succ, hs] at hready
        rw [(follows_readBit g d).2.1] at hsaw
        obtain ⟨j, hj, hlast⟩ := hsaw hready
        refine ⟨j + 1, by rw [hj], ?_⟩
        rw [List.replicate_succ, List.flatten_cons, g.after_append]
        exact hlast

/-- Waiting with `n` polls: it ends well when one of them finds EEPROM_DI high. -/
theorem wait_spec (n : Nat) (d : Drv ε) :
    let wait : DrvM ε IosError := do
      let _ ← eepromDrvSetDO g 0
      let timeout ← pollReady g n
      eepromDrvFinishCommand g 2
      if timeout then return IOS_ERROR_FAIL_INTERNAL
      return IOS_ERROR_OK
    (∃ k, FollowsFrom g wait d (waitScript k) ∧ (g.readyWithin n (g.after [.write .eepromDO false] d.env) = true →
        g.SawReady k (g.after [.write .eepromDO false] d.env))) ∧
      ((wait d).1 = IOS_ERROR_OK ↔ g.readyWithin n (g.after [.write .eepromDO false] d.env) = true) := by
  intro wait
  have henv : (eepromDrvSetDO g 0 d).2.env = g.after [.write .eepromDO false] d.env :=
    (follows_setPin g .eepromDO 0 d).2.1
  obtain ⟨k, hk, hsaw⟩ := follows_pollReady (g := g) n (eepromDrvSetDO g 0 d).2
  have hval := pollReady_value (g := g) n (eepromDrvSetDO g 0 d).2
  have hend : ∀ timeout : Bool, Follows g (do
      eepromDrvFinishCommand g 2
      if timeout then return IOS_ERROR_FAIL_INTERNAL
      return IOS_ERROR_OK) (releaseScript 2) := by
    intro timeout
    rw [← List.append_nil (releaseScript 2)]
    refine (follows_finishCommand g 2).bind fun _ => ?_
    split
    · exact follows_pure _
    · exact follows_pure _
  rw [henv] at hsaw
  refine ⟨⟨k, (follows_setPin g .eepromDO 0 d).bind (hk.bind (hend _ _)), hsaw⟩, ?_⟩
  have hrun : (wait d).1 =
      if (pollReady g n (eepromDrvSetDO g 0 d).2).1 then IOS_ERROR_FAIL_INTERNAL else IOS_ERROR_OK := by
    simp only [wait, run_bind]
    split
    · rw [run_pure]
    · rw [run_pure]
  rw [hrun, hval, henv]
  cases g.readyWithin n (g.after [.write .eepromDO false] d.env) with
  | true => exact ⟨fun _ => rfl, fun _ => rfl⟩
  | false => exact ⟨fun h => absurd h (by decide), fun h => absurd h (by decide)⟩

theorem waitForReady_spec (d : Drv ε) :
    (∃ k, FollowsFrom g (eepromDrvWaitForReady g) d (waitScript k) ∧
      (g.readyWithin 1000 (g.after [.write .eepromDO false] d.env) = true →
        g.SawReady k (g.after [.write .eepromDO false] d.env))) ∧
      ((eepromDrvWaitForReady g d).1 = IOS_ERROR_OK ↔
        g.readyWithin 1000 (g.after [.write .eepromDO false] d.env) = true) := by
  unfold eepromDrvWaitForReady
  exact wait_spec 1000 d

/-- The word that `eepromDrvReadWord` makes of the samples. -/
def delivered (g : Gpio ε) (addr : U8) (d : Drv ε) : U16 :=
  (readBitsFrom g 16 0 (eepromDrvSendBits g 11 (0x600 ||| addr.setWidth 32) d).2).1

/-- A read of the open driver. -/
theorem readWord_opened (addr : U8) {d : Drv ε} (h : d.status = .opened) :
    (readWord g addr d).1 = (IOS_ERROR_OK, some (delivered g addr d)) ∧
      FollowsFrom g (readWord g addr) d (readScript addr ++ releaseScript 2) := by
  have hok := sendBits_ok (g := g) (by omega : 11 ≤ 32) (0x600 ||| addr.setWidth 32) d
  have hsend := follows_sendBits g (by omega : 11 ≤ 32) (0x600 ||| addr.setWidth 32) d
  have hrun : readWord g addr d = (eepromDrvSendBits g 11 (0x600 ||| addr.setWidth 32) >>= fun ret =>
      if ret = IOS_ERROR_OK then readBitsFrom g 16 0 >>= fun read =>
        eepromDrvFinishCommand g 2 >>= fun _ => pure (ret, some read)
      else eepromDrvFinishCommand g 2 >>= fun _ => pure (ret, none)) d := by
    show (ite (d.status ≠ .opened) _ _ : DrvM ε (IosError × Option U16)) d = _
    rw [if_neg (not_not.mpr h)]
  refine ⟨?_, ?_⟩
  · rw [hrun, run_bind, if_pos hok, run_bind, run_bind, run_pure, hok]
    rfl
  · unfold FollowsFrom
    rw [hrun]
    unfold readScript
    rw [← bitsBelow_read addr, List.append_assoc]
    refine hsend.bind ?_
    rw [if_pos hok, ← List.append_nil (releaseScript 2)]
    exact ((follows_readBitsFrom g 16 0).bind fun _ => (follows_finishCommand g 2).bind fun _ => follows_pure _) _

/-- A command and the polling behind it, from `d`. -/
def Polls (g : Gpio ε) (m : DrvM ε IosError) (d : Drv ε) (script : List Access) : Prop :=
  (∃ k, FollowsFrom g m d (script ++ (releaseScript 2 ++ waitScript k)) ∧
    (g.BecomesReady script d.env →
      g.SawReady k (g.after (script ++ (releaseScript 2 ++ [.write .eepromDO false])) d.env))) ∧
    ((m d).1 = IOS_ERROR_OK ↔ g.BecomesReady script d.env)

/-- Bits sent and let go, and the polling behind them. -/
theorem polledCommand_spec {size : Nat} (hs : size ≤ 32) (data : U32) (d : Drv ε) :
    Polls g (do
      let ret ← eepromDrvSendBits g size data
      eepromDrvFinishCommand g 2
      if ret ≠ IOS_ERROR_OK then return ret
      eepromDrvWaitForReady g) d ((bitsBelow data size).flatMap cellScript) := by
  have hok := sendBits_ok (g := g) hs data d
  have hsend := follows_sendBits g hs data d
  have hfinish := follows_finishCommand g 2 (eepromDrvSendBits g size data d).2
  have hgate : ¬ (eepromDrvSendBits g size data d).1 ≠ IOS_ERROR_OK := not_not.mpr hok
  obtain ⟨⟨k, hwait, hsaw⟩, hiff⟩ :=
    waitForReady_spec (g := g) (eepromDrvFinishCommand g 2 (eepromDrvSendBits g size data d).2).2
  rw [hfinish.2.1, hsend.2.1, ← g.after_append, ← g.after_append] at hsaw hiff
  refine ⟨⟨k, hsend.bind (hfinish.bind ?_), hsaw⟩, ?_⟩
  · rw [if_neg hgate]
    exact hwait
  · rw [run_bind, run_bind, if_neg hgate]
    exact hiff

/-- Bits sent and let go. -/
theorem command_spec {size : Nat} (hs : size ≤ 32) (data : U32) (d : Drv ε) :
    let send : DrvM ε IosError := do
      let ret ← eepromDrvSendBits g size data
      eepromDrvFinishCommand g 2
      return ret
    FollowsFrom g send d ((bitsBelow data size).flatMap cellScript ++ releaseScript 2) ∧ (send d).1 = IOS_ERROR_OK := by
  intro send
  refine ⟨?_, ?_⟩
  · rw [← List.append_nil (releaseScript 2)]
    exact ((follows_sendBits g hs data).bind fun _ => (follows_finishCommand g 2).bind fun _ => follows_pure _) d
  · simp only [send, run_bind, run_pure]
    exact sendBits_ok hs data d

theorem writeWord_opened (addr : U8) (data : U16) {d : Drv ε} (h : d.status = .opened) :
    Polls g (writeWord g addr data) d (writeScript addr data) := by
  have hspec := polledCommand_spec (g := g) (by omega : 27 ≤ 32)
    ((((0x500 : U32) ||| addr.setWidth 32) <<< 16) ||| data.setWidth 32) d
  have hrun : writeWord g addr data d = (do
      let ret ← eepromDrvSendBits g 27 ((((0x500 : U32) ||| addr.setWidth 32) <<< 16) ||| data.setWidth 32)
      eepromDrvFinishCommand g 2
      if ret ≠ IOS_ERROR_OK then return ret
      eepromDrvWaitForReady g : DrvM ε IosError) d := by
    show (ite (d.status ≠ .opened) _ _ : DrvM ε IosError) d = _
    rw [if_neg (not_not.mpr h)]
  unfold Polls FollowsFrom writeScript
  rw [hrun, ← bitsBelow_write addr data]
  exact hspec

theorem setWriteControl_eq (control : U32) {d : Drv ε} (h : d.status = .opened) :
    setWriteControl g control d = (if control = EEPROM_WRITE_ERASE then do
        let ret ← eepromDrvSendBits g 11 0x480
        eepromDrvFinishCommand g 2
        if ret ≠ IOS_ERROR_OK then return ret
        eepromDrvWaitForReady g
      else if control = EEPROM_WRITE_DISABLE then do
        let ret ← eepromDrvSendBits g 11 0x400
        eepromDrvFinishCommand g 2
        return ret
      else if control = EEPROM_WRITE_ENABLE then do
        let ret ← eepromDrvSendBits g 11 0x4c0
        eepromDrvFinishCommand g 2
        return ret
      else return IOS_ERROR_INVALID : DrvM ε IosError) d := by
  show (ite (d.status ≠ .opened) _ _ : DrvM ε IosError) d = _
  rw [if_neg (not_not.mpr h)]

/-- ERAL. -/
theorem setWriteControl_erase {d : Drv ε} (h : d.status = .opened) :
    Polls g (setWriteControl g EEPROM_WRITE_ERASE) d (eral.flatMap cellScript) := by
  have hspec := polledCommand_spec (g := g) (by omega : 11 ≤ 32) 0x480 d
  unfold Polls FollowsFrom
  rw [setWriteControl_eq _ h, if_pos rfl]
  exact hspec

/-- EWDS and EWEN. -/
theorem setWriteControl_switch (control : U32) {f : Frame} {d : Drv ε} (h : d.status = .opened)
    (hne : control ≠ EEPROM_WRITE_ERASE) (hf : controlFrame control = some f) :
    FollowsFrom g (setWriteControl g control) d (f.flatMap cellScript ++ releaseScript 2) ∧
      (setWriteControl g control d).1 = IOS_ERROR_OK := by
  unfold controlFrame at hf
  unfold FollowsFrom
  rw [if_neg hne] at hf
  rw [setWriteControl_eq _ h, if_neg hne]
  by_cases hdisable : control = EEPROM_WRITE_DISABLE
  · rw [if_pos hdisable] at hf ⊢
    cases hf
    exact command_spec (g := g) (by omega : 11 ≤ 32) 0x400 d
  · rw [if_neg hdisable] at hf ⊢
    by_cases henable : control = EEPROM_WRITE_ENABLE
    · rw [if_pos henable] at hf ⊢
      cases hf
      exact command_spec (g := g) (by omega : 11 ≤ 32) 0x4c0 d
    · rw [if_neg henable] at hf
      cases hf

theorem setWriteControl_unknown {control : U32} {d : Drv ε} (h : d.status = .opened)
    (hf : controlFrame control = none) : setWriteControl g control d = (IOS_ERROR_INVALID, d) := by
  unfold controlFrame at hf
  rw [setWriteControl_eq _ h]
  by_cases herase : control = EEPROM_WRITE_ERASE
  · rw [if_pos herase] at hf
    cases hf
  · by_cases hdisable : control = EEPROM_WRITE_DISABLE
    · rw [if_neg herase, if_pos hdisable] at hf
      cases hf
    · by_cases henable : control = EEPROM_WRITE_ENABLE
      · rw [if_neg herase, if_neg hdisable, if_pos henable] at hf
        cases hf
      · rw [if_neg herase, if_neg hdisable, if_neg henable]
        rfl

/-- The three lines driven low, before anything else. -/
theorem follows_lower {α : Type} {k : DrvM ε α} (hk : Follows g k []) :
    Follows g (do
      let _ ← eepromDrvSetCS g 0
      let _ ← eepromDrvSetSK g 0
      let _ ← eepromDrvSetDO g 0
      k) lowerScript :=
  (follows_setPin g .eepromCS 0).bind fun _ => (follows_setPin g .eepromSK 0).bind fun _ =>
    (follows_setPin g .eepromDO 0).bind fun _ => hk

/-- The driver after the three lines were driven low. -/
theorem lowered_follows (d : Drv ε) :
    accesses (lowered g d).wire = accesses d.wire ++ g.log lowerScript d.env ∧
      (lowered g d).env = g.after lowerScript d.env ∧ (lowered g d).status = d.status :=
  follows_lower (g := g) (k := (pure () : DrvM ε Unit)) (follows_pure ()) d

theorem openCtx_opened {d : Drv ε} (h : d.status = .closed ∨ d.status = .initialised) :
    openCtx g d = (IOS_ERROR_OK, { lowered g d with status := .opened }) := by
  have hgate : ¬ (d.status ≠ .closed ∧ d.status ≠ .initialised) := by
    intro hno
    rcases h with h | h
    · exact hno.1 h
    · exact hno.2 h
  show (ite (d.status ≠ .closed ∧ d.status ≠ .initialised) _ _ : DrvM ε IosError) d = _
  rw [if_neg hgate]
  rfl

theorem openCtx_refused {d : Drv ε} (h : ¬ (d.status = .closed ∨ d.status = .initialised)) :
    openCtx g d = (IOS_ERROR_NOTREADY, d) := by
  show (ite (d.status ≠ .closed ∧ d.status ≠ .initialised) _ _ : DrvM ε IosError) d = _
  rw [if_pos (not_or.mp h)]
  rfl

/-! ## What a driver that is not open answers -/

theorem readWord_refused {d : Drv ε} (h : d.status ≠ .opened) (addr : U8) :
    readWord g addr d = ((IOS_ERROR_NOTREADY, none), d) := by
  show (ite (d.status ≠ .opened) _ _ : DrvM ε (IosError × Option U16)) d = _
  rw [if_pos h]
  rfl

theorem writeWord_refused {d : Drv ε} (h : d.status ≠ .opened) (addr : U8) (data : U16) :
    writeWord g addr data d = (IOS_ERROR_NOTREADY, d) := by
  show (ite (d.status ≠ .opened) _ _ : DrvM ε IosError) d = _
  rw [if_pos h]
  rfl

theorem setWriteControl_refused {d : Drv ε} (h : d.status ≠ .opened) (control : U32) :
    setWriteControl g control d = (IOS_ERROR_NOTREADY, d) := by
  show (ite (d.status ≠ .opened) _ _ : DrvM ε IosError) d = _
  rw [if_pos h]
  rfl

theorem shutdown_refused {d : Drv ε} (h : d.status ≠ .opened) : shutdown g d = (IOS_ERROR_NOTREADY, d) := by
  show (ite (d.status ≠ .opened) _ _ : DrvM ε IosError) d = _
  rw [if_pos h]
  rfl

theorem shutdown_opened {d : Drv ε} (h : d.status = .opened) :
    shutdown g d = (IOS_ERROR_OK, { lowered g d with status := .closed }) := by
  show (ite (d.status ≠ .opened) _ _ : DrvM ε IosError) d = _
  rw [if_neg (not_not.mpr h)]
  rfl

/-! ## The status behind a call -/

theorem readWord_status (addr : U8) (d : Drv ε) : (readWord g addr d).2.status = d.status := by
  by_cases h : d.status = .opened
  · exact (readWord_opened (g := g) addr h).2.2.2
  · rw [readWord_refused h]

theorem writeWord_status (addr : U8) (data : U16) (d : Drv ε) : (writeWord g addr data d).2.status = d.status := by
  by_cases h : d.status = .opened
  · obtain ⟨⟨k, ⟨-, -, hstatus⟩, -⟩, -⟩ := writeWord_opened (g := g) addr data h
    exact hstatus
  · rw [writeWord_refused h]

theorem setWriteControl_status (control : U32) (d : Drv ε) : (setWriteControl g control d).2.status = d.status := by
  by_cases h : d.status = .opened
  · cases hf : controlFrame control with
    | none => rw [setWriteControl_unknown h hf]
    | some f =>
      by_cases herase : control = EEPROM_WRITE_ERASE
      · subst herase
        obtain ⟨⟨k, ⟨-, -, hstatus⟩, -⟩, -⟩ := setWriteControl_erase (g := g) h
        exact hstatus
      · exact (setWriteControl_switch (g := g) control h herase hf).1.2.2
  · rw [setWriteControl_refused h]

/-! ## The answers of `init` -/

/-- The answers of the three setters, or-ed together. -/
def lowerErr (g : Gpio ε) (d : Drv ε) : IosError :=
  IOS_ERROR_OK ||| (eepromDrvSetCS g 0 d).1 ||| (eepromDrvSetSK g 0 (eepromDrvSetCS g 0 d).2).1 |||
    (eepromDrvSetDO g 0 (eepromDrvSetSK g 0 (eepromDrvSetCS g 0 d).2).2).1

theorem lowerErr_eq_ok_iff (d : Drv ε) : lowerErr g d = IOS_ERROR_OK ↔ g.AllOk lowerScript d.env := by
  have hsum : ∀ ret₁ ret₂ ret₃ : BspRval,
      IOS_ERROR_OK ||| (if ret₁ ≠ BSP_RVAL_OK then IOS_ERROR_EXISTS else IOS_ERROR_OK) |||
          (if ret₂ ≠ BSP_RVAL_OK then IOS_ERROR_EXISTS else IOS_ERROR_OK) |||
          (if ret₃ ≠ BSP_RVAL_OK then IOS_ERROR_EXISTS else IOS_ERROR_OK) = IOS_ERROR_OK ↔
        ∀ ret ∈ [ret₁, ret₂, ret₃], ret = BSP_RVAL_OK := by
    intro ret₁ ret₂ ret₃
    by_cases h₁ : ret₁ = BSP_RVAL_OK <;> by_cases h₂ : ret₂ = BSP_RVAL_OK <;> by_cases h₃ : ret₃ = BSP_RVAL_OK <;>
      simp [h₁, h₂, h₃, IOS_ERROR_OK, IOS_ERROR_EXISTS]
  exact hsum _ _ _

theorem init_eq_ite (d : Drv ε) :
    init g d = if lowerErr g { d with status := .uninitialised } ≠ IOS_ERROR_OK then
        (lowerErr g { d with status := .uninitialised }, lowered g { d with status := .uninitialised })
      else (IOS_ERROR_OK, { lowered g { d with status := .uninitialised } with status := .initialised }) := by
  unfold init
  show (ite (lowerErr g { d with status := .uninitialised } ≠ IOS_ERROR_OK) _ _ : DrvM ε IosError)
    (lowered g { d with status := .uninitialised }) = _
  split
  · rfl
  · rfl

theorem init_ok {d : Drv ε} (h : g.AllOk lowerScript d.env) :
    init g d = (IOS_ERROR_OK, { lowered g { d with status := .uninitialised } with status := .initialised }) := by
  have herr : lowerErr g { d with status := .uninitialised } = IOS_ERROR_OK := (lowerErr_eq_ok_iff _).mpr h
  rw [init_eq_ite, if_neg (not_not.mpr herr)]

theorem init_fails {d : Drv ε} (h : ¬ g.AllOk lowerScript d.env) :
    (init g d).1 ≠ IOS_ERROR_OK ∧ (init g d).2 = lowered g { d with status := .uninitialised } := by
  have herr : lowerErr g { d with status := .uninitialised } ≠ IOS_ERROR_OK := fun hok => h ((lowerErr_eq_ok_iff _).mp hok)
  rw [init_eq_ite, if_pos herr]
  exact ⟨herr, rfl⟩

end Calls

end Iosu.Eeprom
