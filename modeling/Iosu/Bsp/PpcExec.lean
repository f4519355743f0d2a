/-
  Iosu.Bsp.PpcExec — starting and stopping the PowerPC (`bspPPCExecStart`,
  `bspPPCExecStop`, `bsp_ppc.c`).

  HW_RSTB and HW_AIP_PROT read back what was last written to them, and are kept beside the
  process. HW_IPC_ARMCTRL is a sequence of words, one for each read, that nothing is known
  about: a stop polls it for X2, 100 times at most (`pollX2_spec`). Whatever it reads, and
  in whatever order starts and stops come, each leaves the bits it is about as it should
  and none of them touches another bit (`exec_holds`).
-/

import Iosu.Bsp.Streaming
import Iosu.Lib.Registers

namespace Iosu.Bsp

open Iosu.Lib Iosu.Entity Iosu.Ios Iosu.Eeprom

variable {ε : Type}

def HW_AIP_PROT_ENAHBIOPI : U32 := 1 <<< 0
def HW_RSTB_CPU : U32 := 1 <<< 4
def HW_SRSTB_CPU : U32 := 1 <<< 5

/-- With what else the source does not define: HW_IPC_ARMCTRL, its two flags, and
    `bspPPCSetPVR`. -/
structure ExecExt (ε : Type) extends SleepExt ε where
  HW_IPC_ARMCTRL_X2 : U32
  HW_IPC_ARMCTRL_Y2 : U32
  /-- What the reads give, by how many there were before. -/
  armctrl : Nat → U32
  writeArmctrl : U32 → ε → ε
  bspPPCSetPVR : U32 → Process ε → BspRval × Process ε
  /-- `HW_EXI_BOOT[15]` -/
  exiBoot15 : ε → U32
  /-- What a local `pvr` holds before it is stored to. -/
  pvrFrame : ε → BspPpcPvr

structure ExecState (ε : Type) where
  proc : Process ε
  hwRstb : U32
  hwAipProt : U32
  armctrlReads : Nat

abbrev ExecM (ε : Type) := StateT (ExecState ε) (Res Fault)

def onBsp {α : Type} (m : BspM ε α) : ExecM ε α := fun s => do
  let (a, proc) ← m s.proc
  .ok (a, { s with proc := proc })

def setRstb (word : U32) : ExecM ε Unit := modify fun s => { s with hwRstb := word }

def setAipProt (word : U32) : ExecM ε Unit := modify fun s => { s with hwAipProt := word }

section Functions

variable (x : ExecExt ε)

def execSleep (time : U32) : ExecM ε Unit := onBsp (callExt fun env => ((), x.bspSleep time env))

def readArmctrl : ExecM ε U32 := fun s => .ok (x.armctrl s.armctrlReads, { s with armctrlReads := s.armctrlReads + 1 })

def writeArmctrl (word : U32) : ExecM ε Unit := onBsp (callExt fun env => ((), x.writeArmctrl word env))

def bspPPCEnableEXI : ExecM ε U32 := do
  setAipProt ((← get).hwAipProt ||| HW_AIP_PROT_ENAHBIOPI)
  return (← get).hwAipProt

def bspPPCExecStart : ExecM ε BspRval := do
  let rstb := (← get).hwRstb
  setRstb (rstb &&& ~~~ (HW_RSTB_CPU ||| HW_SRSTB_CPU))
  execSleep x 0xF
  let srstb := (← get).hwRstb
  setRstb ((srstb &&& ~~~ HW_SRSTB_CPU) ||| (rstb &&& HW_SRSTB_CPU))
  return BSP_RVAL_OK

/-- The PVR of the boot area goes into the SEEPROM where it is another. -/
def updatePVR : ExecM ε Unit := do
  let env := (← get).proc.drv.env
  let (_, pvr) ← onBsp (bspPPCGetPVR x.toExt (x.pvrFrame env))
  let boot ← onBsp (readReg x.exiBoot15)
  if boot ≠ pvr.version ++ pvr.revision then
    let _ ← onBsp fun b => .ok (x.bspPPCSetPVR boot b)

/-- What a poll does about X2, in the word `armctrl`: it is cleared, with Y2 as the answer. -/
def acknowledge (armctrl : U32) : ExecM ε BspRval := do
  writeArmctrl x (armctrl ||| x.HW_IPC_ARMCTRL_X2)
  writeArmctrl x (armctrl ||| (x.HW_IPC_ARMCTRL_X2 ||| x.HW_IPC_ARMCTRL_Y2))
  let _ ← bspPPCEnableEXI
  updatePVR x
  return BSP_RVAL_OK

/-- The `for` of `bspPPCExecStop`, with so many rounds to go, and what is behind it. -/
def pollX2 : Nat → ExecM ε BspRval
  | 0 => do
    let _ ← bspPPCEnableEXI
    return BSP_RVAL_DEVICE_ERROR
  | n + 1 => do
    let armctrl ← readArmctrl x
    if armctrl &&& x.HW_IPC_ARMCTRL_X2 ≠ 0 then acknowledge x armctrl
    else do
      execSleep x 10000
      pollX2 n

def bspPPCExecStop : ExecM ε BspRval := do
  setAipProt ((← get).hwAipProt &&& ~~~ HW_AIP_PROT_ENAHBIOPI)
  let rstb := (← get).hwRstb &&& ~~~ (HW_RSTB_CPU ||| HW_SRSTB_CPU)
  setRstb rstb
  execSleep x 0xF
  setRstb (rstb ||| HW_RSTB_CPU)
  execSleep x 0x96
  setRstb (rstb ||| HW_RSTB_CPU ||| HW_SRSTB_CPU)
  pollX2 x 100

end Functions

inductive ExecCall
  | start
  | stop

def ExecCall.run (x : ExecExt ε) : ExecCall → ExecM ε BspRval
  | start => bspPPCExecStart x
  | stop => bspPPCExecStop x

/-- The calls, one after the other: the answers. -/
def execCalls (x : ExecExt ε) : List ExecCall → ExecM ε (List BspRval)
  | [] => return []
  | c :: cs => do
    let ret ← c.run x
    let rets ← execCalls x cs
    return ret :: rets

/-! ## Running -/

theorem execM_bind_ok {α β : Type} {m : ExecM ε α} {a : α} {s s' : ExecState ε} (h : m s = .ok (a, s'))
    (k : α → ExecM ε β) : (m >>= k) s = k a s' := by
  show (m s >>= fun p => k p.1 p.2) = _
  rw [h]
  rfl

theorem onBsp_ok {α : Type} {m : BspM ε α} {s : ExecState ε} {a : α} {b : Process ε} (h : m s.proc = .ok (a, b)) :
    onBsp m s = .ok (a, { s with proc := b }) := by
  unfold onBsp
  rw [h]
  rfl

/-- With the world changed. -/
def ExecState.inWorld (s : ExecState ε) (f : ε → ε) : ExecState ε :=
  { s with proc := { s.proc with drv := { s.proc.drv with env := f s.proc.drv.env } } }

section Runs

variable (x : ExecExt ε)

theorem execSleep_ok (time : U32) (s : ExecState ε) : execSleep x time s = .ok ((), s.inWorld (x.bspSleep time)) := rfl

theorem writeArmctrl_ok (word : U32) (s : ExecState ε) :
    writeArmctrl x word s = .ok ((), s.inWorld (x.writeArmctrl word)) := rfl

theorem readArmctrl_ok (s : ExecState ε) :
    readArmctrl x s = .ok (x.armctrl s.armctrlReads, { s with armctrlReads := s.armctrlReads + 1 }) := rfl

omit x in
theorem enableEXI_ok (s : ExecState ε) : bspPPCEnableEXI s =
    .ok (s.hwAipProt ||| HW_AIP_PROT_ENAHBIOPI, { s with hwAipProt := s.hwAipProt ||| HW_AIP_PROT_ENAHBIOPI }) := rfl

/-- The PVR is a matter of the process. -/
theorem updatePVR_runs (s : ExecState ε) : ∃ b, updatePVR x s = .ok ((), { s with proc := b }) := by
  obtain ⟨ret, pvr, b, hpvr, -⟩ := getPVR_onlyDetects (x := x.toExt) (x.pvrFrame s.proc.drv.env) s.proc
  unfold updatePVR
  rw [execM_bind_ok (show (get : ExecM ε _) s = .ok (s, s) from rfl)]
  dsimp only
  rw [execM_bind_ok (onBsp_ok hpvr)]
  dsimp only
  rw [execM_bind_ok (onBsp_ok rfl)]
  split
  · exact ⟨_, rfl⟩
  · exact ⟨_, rfl⟩

theorem acknowledge_runs (armctrl : U32) (s : ExecState ε) : ∃ b, acknowledge x armctrl s =
    .ok (BSP_RVAL_OK, { s with proc := b, hwAipProt := s.hwAipProt ||| HW_AIP_PROT_ENAHBIOPI }) := by
  obtain ⟨b, hpvr⟩ := updatePVR_runs x { (s.inWorld (x.writeArmctrl (armctrl ||| x.HW_IPC_ARMCTRL_X2))).inWorld
    (x.writeArmctrl (armctrl ||| (x.HW_IPC_ARMCTRL_X2 ||| x.HW_IPC_ARMCTRL_Y2))) with
    hwAipProt := s.hwAipProt ||| HW_AIP_PROT_ENAHBIOPI }
  refine ⟨b, ?_⟩
  unfold acknowledge
  rw [execM_bind_ok (writeArmctrl_ok x _ _), execM_bind_ok (writeArmctrl_ok x _ _), execM_bind_ok (enableEXI_ok _)]
  exact execM_bind_ok hpvr _

/-- The flag is set in the `k`th word from here on. -/
def x2Set (s : ExecState ε) (k : Nat) : Prop := x.armctrl (s.armctrlReads + k) &&& x.HW_IPC_ARMCTRL_X2 ≠ 0

theorem x2Set_next {s s' : ExecState ε} (h : s'.armctrlReads = s.armctrlReads + 1) (k : Nat) :
    x2Set x s' k ↔ x2Set x s (k + 1) := by
  unfold x2Set
  rw [h, Nat.add_assoc, Nat.add_comm 1 k]

/-- A poll ends with the first word that has the flag, or when its rounds are used up. -/
theorem pollX2_spec (n : Nat) (s : ExecState ε) : ∃ ret polls b,
    pollX2 x n s = .ok (ret, { s with
      proc := b
      hwAipProt := s.hwAipProt ||| HW_AIP_PROT_ENAHBIOPI
      armctrlReads := s.armctrlReads + polls }) ∧
    polls ≤ n ∧ (ret = BSP_RVAL_OK ∧ (∃ k < polls, x2Set x s k) ∨
      ret = BSP_RVAL_DEVICE_ERROR ∧ polls = n ∧ ∀ k < polls, ¬ x2Set x s k) := by
  induction n generalizing s with
  | zero => exact ⟨_, 0, s.proc, rfl, Nat.le_refl 0, Or.inr ⟨rfl, rfl, fun k hk => absurd hk (by omega)⟩⟩
  | succ n ih =>
    unfold pollX2
    rw [execM_bind_ok (readArmctrl_ok x s)]
    by_cases hset : x.armctrl s.armctrlReads &&& x.HW_IPC_ARMCTRL_X2 ≠ 0
    · obtain ⟨b, hack⟩ := acknowledge_runs x (x.armctrl s.armctrlReads) { s with armctrlReads := s.armctrlReads + 1 }
      rw [if_pos hset, hack]
      exact ⟨_, 1, b, rfl, by omega, Or.inl ⟨rfl, 0, by omega, hset⟩⟩
    · obtain ⟨ret, polls, b, hpoll, hle, hret⟩ :=
        ih (ExecState.inWorld { s with armctrlReads := s.armctrlReads + 1 } (x.bspSleep 10000))
      have hreads : s.armctrlReads + 1 + polls = s.armctrlReads + (polls + 1) := by omega
      refine ⟨ret, polls + 1, b, ?_, by omega, ?_⟩
      · rw [if_neg hset, execM_bind_ok (execSleep_ok x _ _), hpoll, ← hreads]
        rfl
      · rcases hret with ⟨hok, k, hk, hset'⟩ | ⟨herr, hall, hnone⟩
        · exact Or.inl ⟨hok, k + 1, by omega, (x2Set_next x rfl k).mp hset'⟩
        · refine Or.inr ⟨herr, by omega, fun k hk => ?_⟩
          cases k with
          | zero => exact hset
          | succ k => exact fun hset' => hnone k (by omega) ((x2Set_next x rfl k).mpr hset')

/-- The three steps of a start clear CPU and leave SRSTB as it was. -/
theorem start_word (rstb : U32) :
    (((rstb &&& ~~~ (HW_RSTB_CPU ||| HW_SRSTB_CPU)) &&& ~~~ HW_SRSTB_CPU) ||| (rstb &&& HW_SRSTB_CPU)) =
      rstb &&& ~~~ HW_RSTB_CPU := by
  have hapart : HW_SRSTB_CPU &&& HW_RSTB_CPU = 0 := by decide
  ext i hi
  cases hs : HW_SRSTB_CPU[i] with
  | false => simp [hs]
  | true => simp [hs, apart_bit hapart hi hs]

theorem execStart_spec (s : ExecState ε) : ∃ b, bspPPCExecStart x s =
    .ok (BSP_RVAL_OK, { s with proc := b, hwRstb := s.hwRstb &&& ~~~ HW_RSTB_CPU }) := by
  refine ⟨(s.inWorld (x.bspSleep 0xF)).proc, ?_⟩
  rw [← start_word]
  rfl

/-- A stop sets both bits, as it sets ENAHBIOPI, whatever the poll comes to. -/
theorem execStop_spec (s : ExecState ε) : ∃ ret polls b, bspPPCExecStop x s =
    .ok (ret, {
      proc := b
      hwRstb := blend (HW_RSTB_CPU ||| HW_SRSTB_CPU) (HW_RSTB_CPU ||| HW_SRSTB_CPU) s.hwRstb
      hwAipProt := blend HW_AIP_PROT_ENAHBIOPI HW_AIP_PROT_ENAHBIOPI s.hwAipProt
      armctrlReads := s.armctrlReads + polls }) ∧
    polls ≤ 100 ∧ (ret = BSP_RVAL_OK ∧ (∃ k < polls, x2Set x s k) ∨
      ret = BSP_RVAL_DEVICE_ERROR ∧ polls = 100 ∧ ∀ k < polls, ¬ x2Set x s k) := by
  obtain ⟨ret, polls, b, hpoll, hle, hret⟩ := pollX2_spec x 100
    { (s.inWorld (x.bspSleep 0xF)).inWorld (x.bspSleep 0x96) with
      hwRstb := (s.hwRstb &&& ~~~ (HW_RSTB_CPU ||| HW_SRSTB_CPU)) ||| HW_RSTB_CPU ||| HW_SRSTB_CPU,
      hwAipProt := s.hwAipProt &&& ~~~ HW_AIP_PROT_ENAHBIOPI }
  refine ⟨ret, polls, b, ?_, hle, hret⟩
  have hset : ∀ mask reg : U32, blend mask mask reg = (reg &&& ~~~ mask) ||| mask := fun mask reg => by
    rw [clear_or, BitVec.or_self]
  rw [hset, hset, ← BitVec.or_assoc]
  exact hpoll

/-! ## Runs of calls -/

/-- The bits that the two calls have no part in. -/
structure OthersKept (s s' : ExecState ε) : Prop where
  rstb : s'.hwRstb &&& ~~~ (HW_RSTB_CPU ||| HW_SRSTB_CPU) = s.hwRstb &&& ~~~ (HW_RSTB_CPU ||| HW_SRSTB_CPU)
  aipProt : s'.hwAipProt &&& ~~~ HW_AIP_PROT_ENAHBIOPI = s.hwAipProt &&& ~~~ HW_AIP_PROT_ENAHBIOPI

omit x in
theorem OthersKept.trans {s₁ s₂ s₃ : ExecState ε} (h : OthersKept s₁ s₂) (h' : OthersKept s₂ s₃) : OthersKept s₁ s₃ :=
  ⟨h'.rstb.trans h.rstb, h'.aipProt.trans h.aipProt⟩

/-- What a call leaves of the bits it is about, and what it answers. -/
def ExecHolds (s : ExecState ε) (ret : BspRval) (s' : ExecState ε) : ExecCall → Prop
  | .start => ret = BSP_RVAL_OK ∧ s'.hwRstb &&& HW_RSTB_CPU = 0 ∧
      s'.hwRstb &&& HW_SRSTB_CPU = s.hwRstb &&& HW_SRSTB_CPU ∧ s'.hwAipProt = s.hwAipProt
  | .stop => (∃ polls ≤ 100, s'.armctrlReads = s.armctrlReads + polls ∧
        (ret = BSP_RVAL_OK ↔ ∃ k < polls, x2Set x s k) ∧ (ret ≠ BSP_RVAL_OK → ret = BSP_RVAL_DEVICE_ERROR ∧ polls = 100)) ∧
      s'.hwAipProt &&& HW_AIP_PROT_ENAHBIOPI = HW_AIP_PROT_ENAHBIOPI ∧
      s'.hwRstb &&& (HW_RSTB_CPU ||| HW_SRSTB_CPU) = HW_RSTB_CPU ||| HW_SRSTB_CPU

theorem exec_step (c : ExecCall) (s : ExecState ε) :
    ∃ ret s', c.run x s = .ok (ret, s') ∧ ExecHolds x s ret s' c ∧ OthersKept s s' := by
  cases c with
  | start =>
    obtain ⟨b, hrun⟩ := execStart_spec x s
    refine ⟨_, _, hrun, ⟨rfl, ?_, ?_, rfl⟩, ⟨?_, rfl⟩⟩
    · show (s.hwRstb &&& ~~~ HW_RSTB_CPU) &&& HW_RSTB_CPU = 0
      rw [BitVec.and_assoc, show ~~~ HW_RSTB_CPU &&& HW_RSTB_CPU = 0#32 by decide]
      exact BitVec.and_zero
    · show (s.hwRstb &&& ~~~ HW_RSTB_CPU) &&& HW_SRSTB_CPU = _
      rw [BitVec.and_assoc, show ~~~ HW_RSTB_CPU &&& HW_SRSTB_CPU = HW_SRSTB_CPU by decide]
    · show (s.hwRstb &&& ~~~ HW_RSTB_CPU) &&& _ = _
      rw [BitVec.and_assoc, show ~~~ HW_RSTB_CPU &&& ~~~ (HW_RSTB_CPU ||| HW_SRSTB_CPU) =
        ~~~ (HW_RSTB_CPU ||| HW_SRSTB_CPU) by decide]
  | stop =>
    obtain ⟨ret, polls, b, hrun, hle, hret⟩ := execStop_spec x s
    refine ⟨_, _, hrun, ⟨⟨polls, hle, rfl, ?_, ?_⟩, ?_, ?_⟩, ⟨?_, ?_⟩⟩
    · rcases hret with ⟨hok, hset⟩ | ⟨herr, -, hnone⟩
      · exact ⟨fun _ => hset, fun _ => hok⟩
      · refine ⟨fun hok => absurd (herr.symm.trans hok) (by decide), fun hset => ?_⟩
        obtain ⟨k, hk, hset⟩ := hset
        exact absurd hset (hnone k hk)
    · intro hne
      rcases hret with ⟨hok, -⟩ | ⟨herr, hall, -⟩
      · exact absurd hok hne
      · exact ⟨herr, hall⟩
    · exact (blend_and_self _ _).trans (BitVec.and_self)
    · exact (blend_and_self _ _).trans (BitVec.and_self)
    · exact blend_and_apart _ _ (by decide)
    · exact blend_and_apart _ _ (by decide)

theorem execCalls_run (cs : List ExecCall) (s : ExecState ε) :
    ∃ rets s', execCalls x cs s = .ok (rets, s') ∧ OthersKept s s' := by
  induction cs generalizing s with
  | nil => exact ⟨[], s, rfl, rfl, rfl⟩
  | cons c cs ih =>
    obtain ⟨ret, s₁, hrun, -, hkept⟩ := exec_step x c s
    obtain ⟨rets, s₂, hruns, hkept'⟩ := ih s₁
    refine ⟨ret :: rets, s₂, ?_, hkept.trans hkept'⟩
    unfold execCalls
    rw [execM_bind_ok hrun, execM_bind_ok hruns]
    rfl

/-- Every run of starts and stops comes back, and each call in it holds; up to it and with
    it, the other bits are as they were at first. -/
theorem exec_holds (cs : List ExecCall) (s : ExecState ε) :
    (∃ rets s', execCalls x cs s = .ok (rets, s')) ∧
      ∀ pre c post, cs = pre ++ c :: post → ∃ rets s₁ ret s₂, execCalls x pre s = .ok (rets, s₁) ∧
        c.run x s₁ = .ok (ret, s₂) ∧ ExecHolds x s₁ ret s₂ c ∧ OthersKept s₁ s₂ ∧ OthersKept s s₂ := by
  refine ⟨?_, fun pre c post _ => ?_⟩
  · obtain ⟨rets, s', hruns, -⟩ := execCalls_run x cs s
    exact ⟨rets, s', hruns⟩
  · obtain ⟨rets, s₁, hruns, hkept₁⟩ := execCalls_run x pre s
    obtain ⟨ret, s₂, hrun, hholds, hkept⟩ := exec_step x c s₁
    exact ⟨rets, s₁, ret, s₂, hruns, hrun, hholds, hkept, hkept₁.trans hkept⟩

end Runs

end Iosu.Bsp
