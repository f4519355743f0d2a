/-
  Iosu.Entities.Ccrh — the reset of the DRH (`bspCCRH_Reset_write`, `bsp_ccrh.c`).

  The command selects the values of CCRIO3 and CCRIO12. CCRHReset is driven to 0, and, unless
  the command is to hold the reset, CCRIO12 is driven and CCRHReset goes to 1. Two steps of
  that are not as the rest: `gpio_dir & 0x20 == 0` is `gpio_dir & 0`, so CCRIO12 is never
  initialised; and the writes of CCRIO3 hand over its value as the pointer, so that what is
  written is what lies at address 0 or 1 (`resetSequence_iff`).

  The operations on entities go through the entity layer and show in the trace, with the
  buffer that they are handed.
-/

import Iosu.Bsp.Detectors
import Iosu.Bsp.Server
import Iosu.Entity.Methods

namespace Iosu.Entities

open Iosu.Lib Iosu.Libc Iosu.Entity Iosu.Ios Iosu.Bsp

variable {ε : Type}

/-! ## Operations on entities -/

inductive EntityOp where
  | write (entityName : CStr) (inst : U32) (attributeName : CStr) (size : U32) (pWrittenData : Buf)
  | init (entityName : CStr) (inst : U32) (attributeName : CStr) (size : U32) (pInitData : Option Buf)

/-- What the functions of `bsp_ccrh.c` need besides. -/
structure CcrhExt (ε : Type) extends Ext ε where
  bspEntityList : List (BspEntity (Process ε))
  /-- What LT_GPIO_DIR is read as. -/
  ltGpioDir : U32
  bspSleepTimer : U32 → ε → ε
  /-- What lies behind a local. -/
  frame : Buf
  /-- For a walk of global attributes. -/
  fuel : Nat

abbrev CcrhM (ε : Type) := StateT (Process ε) (Run EntityOp Fault)

def GPIO : CStr := cstr "GPIO"
def SMC : CStr := cstr "SMC"
def CCRHRESET : CStr := cstr "CCRHReset"
def CCRIO3 : CStr := cstr "CCRIO3"
def CCRIO12 : CStr := cstr "CCRIO12"
def DWIFIRSTPULSE : CStr := cstr "DWIFIRSTPulse"

section Functions

variable (x : CcrhExt ε)

/-- A pointer that is made of a number. -/
def pointerTo [DataMem (Process ε)] (b : Process ε) (p : U32) : Buf := Mem.view (DataMem.peek b) p

/-- A pointer to a local. -/
def local32 (value : U32) : Buf := x.frame.store (Buf.ofU32 value)

def bspWriteInternal (entityName : CStr) (inst : U32) (attributeName : CStr) (size : U32) (pWrittenData : Buf) :
    CcrhM ε BspRval := fun b =>
  ⟨[.write entityName inst attributeName size pWrittenData],
    (bspMethodWrite x.bspEntityList entityName inst attributeName size pWrittenData BSP_PERMISSIONS_INTERNAL b).res⟩

def bspInitInternal (entityName : CStr) (inst : U32) (attributeName : CStr) (size : U32) (pInitData : Option Buf) :
    CcrhM ε BspRval := fun b =>
  ⟨[.init entityName inst attributeName size pInitData],
    (bspMethodInit x.bspEntityList entityName inst attributeName x.fuel size pInitData BSP_PERMISSIONS_INTERNAL b).res⟩

/-- A function of the process that shows no operation. -/
def silently {α : Type} (m : BspM ε α) : CcrhM ε α := fun b => ⟨[], m b⟩

def bspSleepTimer (usec : U32) : CcrhM ε Unit := silently (callExt fun env => ((), x.bspSleepTimer usec env))

/-! ## `bspCCRH_Reset_write` -/

/-- The `switch (cmd)`: the values of CCRIO3 and CCRIO12. -/
def ccrios (cmd : U32) : Option (U32 × U32) :=
  if cmd = 1 then some (0, 0)
  else if cmd = 2 then some (0, 1)
  else if cmd = 3 then some (1, 0)
  else if cmd = 4 then some (0, 0)
  else none

/-- The `switch (BSP_GET_VARIANT(hwver))`: the boards on which CCRIO3 is driven. -/
def drivesCcrio3 (hwver : U32) (bspBoardConfig : BcConfig) : Prop :=
  BSP_GET_VARIANT hwver = BSP_VARIANT_EV_Y ∨
    (BSP_GET_VARIANT hwver ∈ [BSP_VARIANT_CAT, BSP_VARIANT_ID, BSP_VARIANT_CAFE, BSP_VARIANT_IH] ∧
      3 < bspBoardConfig.boardRevision.toNat)

instance (hwver : U32) (bspBoardConfig : BcConfig) : Decidable (drivesCcrio3 hwver bspBoardConfig) :=
  inferInstanceAs (Decidable (_ ∨ _))

/-- The boards whose CCRHReset is initialised again at the end, with data. -/
def reinitialises (variant : U32) (bspBoardConfig : BcConfig) : Prop :=
  variant = BSP_VARIANT_EV_Y ∨
    (variant ∈ [BSP_VARIANT_CAT, BSP_VARIANT_ID] ∧ 3 ≤ bspBoardConfig.boardRevision.toNat ∧
      bspBoardConfig.movPassiveReset = 1) ∨
    (variant ∈ [BSP_VARIANT_CAFE, BSP_VARIANT_IH] ∧ 4 ≤ bspBoardConfig.boardRevision.toNat)

instance (variant : U32) (bspBoardConfig : BcConfig) : Decidable (reinitialises variant bspBoardConfig) :=
  inferInstanceAs (Decidable (_ ∨ _))

def reset_init_data : List U16 := [0x2100, 0x0000, 0x0100, 0x0000, 0x0000]

/-- Up to the first sleep. -/
def driveCcrio3 [DataMem (Process ε)] (ccrio3 : U32) : CcrhM ε BspRval := do
  let (ret, hwver) ← silently (bspMethodGetHardwareVersion x.toExt)
  let b ← get
  -- `ccrio3` itself is the pointer
  if ret = BSP_RVAL_OK ∧ drivesCcrio3 hwver b.bspBoardConfig then
    bspWriteInternal x GPIO 0 CCRIO3 4 (pointerTo b ccrio3)
  else return ret

/-- Up to the `if (cmd == 1)`. -/
def holdReset (ret : BspRval) : CcrhM ε BspRval := do
  bspSleepTimer x 100
  let err ← bspInitInternal x GPIO 0 CCRHRESET 0 none
  let ret := ret ||| err
  let gpio_dir := x.ltGpioDir
  -- the comparison binds first
  let ret ← if gpio_dir &&& (if (0x20 : U32) = 0 then 1 else 0) ≠ 0 then do
      let err ← bspInitInternal x GPIO 0 CCRIO12 0 none
      pure (ret ||| err)
    else pure ret
  let err ← bspWriteInternal x GPIO 0 CCRHRESET 4 (local32 x 0)
  return ret ||| err

/-- The last initialisation. `variant`, which is not declared, is the version's. -/
def reinitReset : CcrhM ε BspRval := do
  let (ret, hwver) ← silently (bspMethodGetHardwareVersion x.toExt)
  let b ← get
  if ret ≠ BSP_RVAL_OK then return ret
  if reinitialises (BSP_GET_VARIANT hwver) b.bspBoardConfig then
    bspInitInternal x GPIO 0 CCRHRESET 10 (some (x.frame.store (reset_init_data.flatMap Buf.ofU16)))
  else return BSP_RVAL_OK

/-- What is behind the `if (cmd == 1)`. -/
def releaseReset (ccrio12 : U32) : CcrhM ε BspRval := do
  let _ ← bspWriteInternal x SMC 0 DWIFIRSTPULSE 4 (local32 x 2)
  let _ ← bspWriteInternal x GPIO 0 CCRIO12 4 (local32 x ccrio12)
  bspSleepTimer x 0x1f5b58
  let _ ← bspWriteInternal x GPIO 0 CCRHRESET 4 (local32 x 1)
  reinitReset x

def bspCCRH_Reset_write [DataMem (Process ε)] (_instance : U32) (_pAttribute : AttributeData) (pWrittenData : Buf) :
    CcrhM ε BspRval := do
  let cmd := pWrittenData.load32 0
  match ccrios cmd with
  | none => return BSP_RVAL_INVALID_PARAMETER
  | some (ccrio3, ccrio12) =>
    let ret ← driveCcrio3 x ccrio3
    let ret ← holdReset x ret
    if cmd = 1 then return ret
    releaseReset x ccrio12

end Functions

/-! ## The sequence -/

/-- The buffers that are written to an attribute of GPIO. -/
def gpioWrites (attributeName : CStr) (t : List EntityOp) : List Buf := t.filterMap fun
  | .write entityName inst attr _ pWrittenData =>
    if entityName = GPIO ∧ inst = 0 ∧ attr = attributeName then some pWrittenData else none
  | .init .. => none

def gpioWords (attributeName : CStr) (t : List EntityOp) : List U32 := (gpioWrites attributeName t).map (·.load32 0)

def initialisesCcrio12 (t : List EntityOp) : Prop := EntityOp.init GPIO 0 CCRIO12 0 none ∈ t

/-- What a command that selects these values is to do. -/
structure ResetSequence (cmd ltGpioDir ccrio3 ccrio12 : U32) (t : List EntityOp) : Prop where
  /-- To 0 first, and to 1 behind unless the command is 1. -/
  reset : gpioWords CCRHRESET t = if cmd = 1 then [0] else [0, 1]
  /-- CCRIO12 is driven in between, and not before it is initialised. -/
  between : ∀ before size pWrittenData after, t = before ++ .write GPIO 0 CCRIO12 size pWrittenData :: after →
    gpioWords CCRHRESET before = [0] ∧ (ltGpioDir &&& 0x20 = 0 → initialisesCcrio12 before)
  direction : ltGpioDir &&& 0x20 = 0 → initialisesCcrio12 t
  ccrio3 : ∀ w ∈ gpioWords CCRIO3 t, w = ccrio3
  ccrio12 : ∀ w ∈ gpioWords CCRIO12 t, w = ccrio12

section Sequence

variable [DataMem (Process ε)] (x : CcrhExt ε) (b : Process ε) (pWrittenData : Buf)

/-- What a write to "Reset" is to do. -/
structure ResetDone (t : List EntityOp) : Prop where
  outside : ¬ (1 ≤ (pWrittenData.load32 0).toInt ∧ (pWrittenData.load32 0).toInt ≤ 4) → t = []
  inside : ∀ ccrio3 ccrio12, ccrios (pWrittenData.load32 0) = some (ccrio3, ccrio12) →
    ResetSequence (pWrittenData.load32 0) x.ltGpioDir ccrio3 ccrio12 t

/-- Where CCRIO3 is driven, its value is what lies at the address that it makes. -/
def Ccrio3Stored (ccrio3 : U32) : Prop :=
  ∀ hwver b₁, Bsp.bspMethodGetHardwareVersion x.toExt b = .ok ((BSP_RVAL_OK, hwver), b₁) →
    drivesCcrio3 hwver b₁.bspBoardConfig → (pointerTo b₁ ccrio3).load32 0 = ccrio3

end Sequence

/-! ## The trace of a run that comes back -/

section Traces

variable (x : CcrhExt ε) (b : Process ε)

/-- The operations up to the first sleep. -/
def ccrio3Ops [DataMem (Process ε)] (ccrio3 : U32) : List EntityOp :=
  match Bsp.bspMethodGetHardwareVersion x.toExt b with
  | .ok ((ret, hwver), b₁) =>
    if ret = BSP_RVAL_OK ∧ drivesCcrio3 hwver b₁.bspBoardConfig then [.write GPIO 0 CCRIO3 4 (pointerTo b₁ ccrio3)] else []
  | _ => []

theorem driveCcrio3_trace [DataMem (Process ε)] (ccrio3 : U32) : (driveCcrio3 x ccrio3 b).trace = ccrio3Ops x b ccrio3 := by
  unfold driveCcrio3 ccrio3Ops
  rw [Run.stateful_bind]
  unfold silently
  rcases Bsp.bspMethodGetHardwareVersion x.toExt b with ⟨⟨ret, hwver⟩, b₁⟩ | f | _
  · rw [Run.bind_ok _ rfl, List.nil_append]
    dsimp only
    rw [Run.stateful_bind_silent (Run.stateful_get b₁)]
    split
    · rfl
    · rfl
  · rfl
  · rfl

/-- CCRIO12 is not initialised, whatever `gpio_dir` is. -/
theorem holdReset_trace {ret : BspRval} {p : BspRval × Process ε} (h : (holdReset x ret b).res = .ok p) :
    (holdReset x ret b).trace = [.init GPIO 0 CCRHRESET 0 none, .write GPIO 0 CCRHRESET 4 (local32 x 0)] := by
  have hnever : x.ltGpioDir &&& (if (0x20 : U32) = 0 then 1 else 0) = 0 := BitVec.and_zero
  unfold holdReset at h ⊢
  obtain ⟨_, b₁, -, h, htrace⟩ := Run.stateful_bind_returns h
  rw [htrace]
  obtain ⟨err, b₂, -, h, htrace⟩ := Run.stateful_bind_returns h
  rw [htrace]
  dsimp only at h ⊢
  rw [if_neg (not_not.mpr hnever)] at h ⊢
  obtain ⟨ret', b₃, hret, h, htrace⟩ := Run.stateful_bind_returns h
  rw [htrace]
  obtain ⟨err', b₄, -, -, htrace⟩ := Run.stateful_bind_returns h
  rw [htrace]
  rfl

/-- Nothing but CCRHReset is initialised. -/
def Reinits (last : List EntityOp) : Prop := ∀ op ∈ last, ∃ data, op = .init GPIO 0 CCRHRESET 10 data

theorem reinitReset_trace {op : EntityOp} (h : op ∈ (reinitReset x b).trace) :
    ∃ data, op = .init GPIO 0 CCRHRESET 10 data := by
  unfold reinitReset at h
  rw [Run.stateful_bind] at h
  unfold silently at h
  generalize Bsp.bspMethodGetHardwareVersion x.toExt b = detected at h
  rcases detected with ⟨⟨ret, hwver⟩, b₁⟩ | f | _
  · rw [Run.bind_ok _ rfl, List.nil_append] at h
    dsimp only at h
    rw [Run.stateful_bind_silent (Run.stateful_get b₁)] at h
    split at h
    · cases h
    split at h
    · exact ⟨_, List.mem_singleton.mp h⟩
    · cases h
  · cases h
  · cases h

theorem releaseReset_trace {ccrio12 : U32} {p : BspRval × Process ε} (h : (releaseReset x ccrio12 b).res = .ok p) :
    ∃ last, Reinits last ∧ (releaseReset x ccrio12 b).trace =
      [.write SMC 0 DWIFIRSTPULSE 4 (local32 x 2), .write GPIO 0 CCRIO12 4 (local32 x ccrio12),
        .write GPIO 0 CCRHRESET 4 (local32 x 1)] ++ last := by
  unfold releaseReset at h ⊢
  obtain ⟨_, b₁, -, h, htrace⟩ := Run.stateful_bind_returns h
  rw [htrace]
  obtain ⟨_, b₂, -, h, htrace⟩ := Run.stateful_bind_returns h
  rw [htrace]
  obtain ⟨_, b₃, -, h, htrace⟩ := Run.stateful_bind_returns h
  rw [htrace]
  obtain ⟨_, b₄, -, h, htrace⟩ := Run.stateful_bind_returns h
  rw [htrace]
  exact ⟨_, fun op hop => reinitReset_trace x b₄ hop, rfl⟩

/-- The operations behind it, `last` at their end. -/
def resetOps (cmd ccrio12 : U32) (last : List EntityOp) : List EntityOp :=
  [.init GPIO 0 CCRHRESET 0 none, .write GPIO 0 CCRHRESET 4 (local32 x 0)] ++
    if cmd = 1 then []
    else [.write SMC 0 DWIFIRSTPULSE 4 (local32 x 2), .write GPIO 0 CCRIO12 4 (local32 x ccrio12),
      .write GPIO 0 CCRHRESET 4 (local32 x 1)] ++ last

theorem reset_trace [DataMem (Process ε)] (i : U32) (a : AttributeData) {pWrittenData : Buf} {ccrio3 ccrio12 : U32}
    (hsel : ccrios (pWrittenData.load32 0) = some (ccrio3, ccrio12)) {p : BspRval × Process ε}
    (h : (bspCCRH_Reset_write x i a pWrittenData b).res = .ok p) :
    ∃ last, Reinits last ∧ (bspCCRH_Reset_write x i a pWrittenData b).trace =
      ccrio3Ops x b ccrio3 ++ resetOps x (pWrittenData.load32 0) ccrio12 last := by
  unfold bspCCRH_Reset_write at h ⊢
  rw [hsel] at h ⊢
  obtain ⟨ret, b₁, -, h, htrace⟩ := Run.stateful_bind_returns h
  rw [htrace, driveCcrio3_trace]
  obtain ⟨ret', b₂, hhold, h, htrace⟩ := Run.stateful_bind_returns h
  rw [htrace, holdReset_trace x b₁ hhold]
  unfold resetOps
  by_cases hcmd : pWrittenData.load32 0 = 1
  · refine ⟨[], by simp [Reinits], ?_⟩
    rw [if_pos hcmd, if_pos hcmd]
    rfl
  · rw [if_neg hcmd] at h ⊢
    obtain ⟨last, hlast, hrelease⟩ := releaseReset_trace x b₂ h
    refine ⟨last, hlast, ?_⟩
    rw [if_neg hcmd, hrelease]

/-! ## What is written -/

@[simp] theorem local32_load32 (value : U32) : (local32 x value).load32 0 = value := Buf.load32_store _ _

theorem gpioWrites_append (attributeName : CStr) (t t' : List EntityOp) :
    gpioWrites attributeName (t ++ t') = gpioWrites attributeName t ++ gpioWrites attributeName t' := List.filterMap_append

theorem Reinits.gpioWrites {last : List EntityOp} (h : Reinits last) (attributeName : CStr) : gpioWrites attributeName last = [] := by
  refine List.filterMap_eq_nil_iff.mpr fun op hop => ?_
  obtain ⟨data, rfl⟩ := h op hop
  rfl

/-- What is at their end writes nothing. -/
theorem resetOps_writes {last : List EntityOp} (h : Reinits last) (cmd ccrio12 : U32) (attributeName : CStr) :
    gpioWrites attributeName (resetOps x cmd ccrio12 last) = gpioWrites attributeName (resetOps x cmd ccrio12 []) := by
  unfold resetOps
  split
  · rfl
  · rw [List.append_nil, gpioWrites_append, gpioWrites_append, gpioWrites_append, h.gpioWrites, List.append_nil]

theorem resetOps_reset {last : List EntityOp} (h : Reinits last) (cmd ccrio12 : U32) :
    gpioWrites CCRHRESET (resetOps x cmd ccrio12 last) = if cmd = 1 then [local32 x 0] else [local32 x 0, local32 x 1] := by
  rw [resetOps_writes x h]
  unfold resetOps
  split
  · rfl
  · rfl

theorem resetOps_ccrio12 {last : List EntityOp} (h : Reinits last) (cmd ccrio12 : U32) :
    gpioWrites CCRIO12 (resetOps x cmd ccrio12 last) = if cmd = 1 then [] else [local32 x ccrio12] := by
  rw [resetOps_writes x h]
  unfold resetOps
  split
  · rfl
  · rfl

theorem resetOps_ccrio3 {last : List EntityOp} (h : Reinits last) (cmd ccrio12 : U32) :
    gpioWrites CCRIO3 (resetOps x cmd ccrio12 last) = [] := by
  rw [resetOps_writes x h]
  unfold resetOps
  split
  · rfl
  · rfl

/-- CCRIO3 is driven, or not. -/
theorem ccrio3Ops_cases [DataMem (Process ε)] (ccrio3 : U32) :
    (∃ hwver b₁, Bsp.bspMethodGetHardwareVersion x.toExt b = .ok ((BSP_RVAL_OK, hwver), b₁) ∧
      drivesCcrio3 hwver b₁.bspBoardConfig ∧
      ccrio3Ops x b ccrio3 = [.write GPIO 0 CCRIO3 4 (pointerTo b₁ ccrio3)]) ∨
    (ccrio3Ops x b ccrio3 = [] ∧
      ∀ hwver b₁, Bsp.bspMethodGetHardwareVersion x.toExt b = .ok ((BSP_RVAL_OK, hwver), b₁) →
        ¬ drivesCcrio3 hwver b₁.bspBoardConfig) := by
  unfold ccrio3Ops
  generalize Bsp.bspMethodGetHardwareVersion x.toExt b = detected
  rcases detected with ⟨⟨ret, hwver⟩, b₁⟩ | f | _
  · dsimp only
    by_cases hdriven : ret = BSP_RVAL_OK ∧ drivesCcrio3 hwver b₁.bspBoardConfig
    · obtain ⟨rfl, hdrives⟩ := hdriven
      exact Or.inl ⟨hwver, b₁, rfl, hdrives, if_pos ⟨rfl, hdrives⟩⟩
    · refine Or.inr ⟨if_neg hdriven, fun hwver' b₁' heq hdrives => hdriven ?_⟩
      cases heq
      exact ⟨rfl, hdrives⟩
  · exact Or.inr ⟨rfl, fun _ _ heq => (by cases heq)⟩
  · exact Or.inr ⟨rfl, fun _ _ heq => (by cases heq)⟩

end Traces

/-! ## When the sequence is as it is to be -/

/-- A list splits at an element that is the only one of its kind in one way. -/
theorem split_unique {α : Type} {P : α → Prop} {pre post before after : List α} {a e : α} (hpre : ∀ x ∈ pre, ¬ P x)
    (hpost : ∀ x ∈ post, ¬ P x) (he : P e) (h : pre ++ a :: post = before ++ e :: after) : before = pre := by
  induction pre generalizing before with
  | nil =>
    cases before with
    | nil => rfl
    | cons c before =>
      obtain ⟨-, hrest⟩ := List.cons_eq_cons.mp h
      exact absurd he (hpost e (by rw [hrest]; simp))
  | cons c pre ih =>
    cases before with
    | nil =>
      obtain ⟨rfl, -⟩ := List.cons_eq_cons.mp h
      exact absurd he (hpre _ List.mem_cons_self)
    | cons c' before =>
      obtain ⟨rfl, hrest⟩ := List.cons_eq_cons.mp h
      rw [ih (fun x hx => hpre x (List.mem_cons_of_mem _ hx)) hrest]

theorem ccrios_none_iff (cmd : U32) : ccrios cmd = none ↔ ¬ (1 ≤ cmd.toInt ∧ cmd.toInt ≤ 4) := by
  have hone : (1 : U32).toInt = 1 := rfl
  have htwo : (2 : U32).toInt = 2 := rfl
  have hthree : (3 : U32).toInt = 3 := rfl
  have hfour : (4 : U32).toInt = 4 := rfl
  unfold ccrios
  simp only [← BitVec.toInt_inj, hone, htwo, hthree, hfour]
  constructor
  · intro hnone hrange
    repeat' split at hnone
    all_goals first
      | omega
      | cases hnone
  · intro hrange
    rw [if_neg (by omega), if_neg (by omega), if_neg (by omega), if_neg (by omega)]

section Sequence

variable [DataMem (Process ε)] {x : CcrhExt ε} {b : Process ε}

def DrivesCcrio12 (op : EntityOp) : Prop := ∃ size pWrittenData, op = .write GPIO 0 CCRIO12 size pWrittenData

theorem not_drivesCcrio12 {entityName attributeName : CStr} {inst size : U32} {data : Buf} (h : attributeName ≠ CCRIO12) :
    ¬ DrivesCcrio12 (.write entityName inst attributeName size data) := by
  rintro ⟨_, _, hop⟩
  exact h (EntityOp.write.inj hop).2.2.1

theorem Reinits.not_drivesCcrio12 {last : List EntityOp} (h : Reinits last) : ∀ op ∈ last, ¬ DrivesCcrio12 op := by
  rintro op hop ⟨size, pWrittenData, rfl⟩
  obtain ⟨data, hdata⟩ := h _ hop
  cases hdata

theorem ccrio3Ops_other {ccrio3 : U32} {op : EntityOp} (h : op ∈ ccrio3Ops x b ccrio3) :
    ∃ data, op = .write GPIO 0 CCRIO3 4 data := by
  rcases ccrio3Ops_cases x b ccrio3 with ⟨hwver, b₁, -, -, hops⟩ | ⟨hops, -⟩
  · rw [hops] at h
    exact ⟨_, List.mem_singleton.mp h⟩
  · rw [hops] at h
    cases h

theorem not_initialised {ccrio3 cmd ccrio12 : U32} {last : List EntityOp} (hlast : Reinits last) :
    ¬ initialisesCcrio12 (ccrio3Ops x b ccrio3 ++ resetOps x cmd ccrio12 last) := by
  intro hinit
  rcases List.mem_append.mp hinit with hinit | hinit
  · obtain ⟨data, hdata⟩ := ccrio3Ops_other hinit
    cases hdata
  · unfold resetOps at hinit
    rcases List.mem_append.mp hinit with hinit | hinit
    · simp [CCRHRESET, CCRIO12, cstr] at hinit
    split at hinit
    · cases hinit
    rcases List.mem_append.mp hinit with hinit | hinit
    · simp at hinit
    · obtain ⟨data, hdata⟩ := hlast _ hinit
      exact absurd (EntityOp.init.inj hdata).2.2.1 (by decide)

theorem ccrio3Ops_writes (ccrio3 : U32) {attributeName : CStr} (h : attributeName ≠ CCRIO3) :
    gpioWrites attributeName (ccrio3Ops x b ccrio3) = [] := by
  refine List.filterMap_eq_nil_iff.mpr fun op hop => ?_
  obtain ⟨data, rfl⟩ := ccrio3Ops_other hop
  exact if_neg fun hattr => h hattr.2.2.symm

section Whole

variable {ccrio3 cmd ccrio12 : U32} {last : List EntityOp} (hlast : Reinits last)

include hlast

theorem whole_reset : gpioWords CCRHRESET (ccrio3Ops x b ccrio3 ++ resetOps x cmd ccrio12 last) =
    if cmd = 1 then [0] else [0, 1] := by
  unfold gpioWords
  rw [gpioWrites_append, ccrio3Ops_writes ccrio3 (by decide), resetOps_reset x hlast]
  split
  · simp
  · simp

theorem whole_ccrio12 : gpioWords CCRIO12 (ccrio3Ops x b ccrio3 ++ resetOps x cmd ccrio12 last) =
    if cmd = 1 then [] else [ccrio12] := by
  unfold gpioWords
  rw [gpioWrites_append, ccrio3Ops_writes ccrio3 (by decide), resetOps_ccrio12 x hlast]
  split
  · simp
  · simp

theorem whole_ccrio3 : gpioWrites CCRIO3 (ccrio3Ops x b ccrio3 ++ resetOps x cmd ccrio12 last) =
    gpioWrites CCRIO3 (ccrio3Ops x b ccrio3) := by
  rw [gpioWrites_append, resetOps_ccrio3 x hlast, List.append_nil]

/-- Where CCRIO12 is driven, CCRHReset is 0. -/
theorem whole_between {before after : List EntityOp} {size : U32} {data : Buf}
    (h : ccrio3Ops x b ccrio3 ++ resetOps x cmd ccrio12 last = before ++ .write GPIO 0 CCRIO12 size data :: after) :
    gpioWords CCRHRESET before = [0] := by
  have hpre : ∀ op ∈ ccrio3Ops x b ccrio3 ++ [.init GPIO 0 CCRHRESET 0 none, .write GPIO 0 CCRHRESET 4 (local32 x 0),
      .write SMC 0 DWIFIRSTPULSE 4 (local32 x 2)], ¬ DrivesCcrio12 op := by
    intro op hop
    rcases List.mem_append.mp hop with hop | hop
    · obtain ⟨data, rfl⟩ := ccrio3Ops_other hop
      exact not_drivesCcrio12 (by decide)
    simp only [List.mem_cons, List.not_mem_nil, or_false] at hop
    rcases hop with rfl | rfl | rfl
    · rintro ⟨_, _, hinit⟩
      cases hinit
    · exact not_drivesCcrio12 (by decide)
    · exact not_drivesCcrio12 (by decide)
  have hpost : ∀ op ∈ .write GPIO 0 CCRHRESET 4 (local32 x 1) :: last, ¬ DrivesCcrio12 op := by
    intro op hop
    rcases List.mem_cons.mp hop with rfl | hop
    · exact not_drivesCcrio12 (by decide)
    · exact hlast.not_drivesCcrio12 op hop
  unfold resetOps at h
  split at h
  · have hdriven : EntityOp.write GPIO 0 CCRIO12 size data ∈ ccrio3Ops x b ccrio3 ++
        ([.init GPIO 0 CCRHRESET 0 none, .write GPIO 0 CCRHRESET 4 (local32 x 0)] ++ []) := by
      rw [h]
      simp
    refine absurd ⟨size, data, rfl⟩ (hpre _ ?_)
    rw [List.append_nil] at hdriven
    rcases List.mem_append.mp hdriven with hdriven | hdriven
    · exact List.mem_append_left _ hdriven
    · exact List.mem_append_right _ (List.mem_append_left _ hdriven)
  · have hunique := split_unique (a := .write GPIO 0 CCRIO12 4 (local32 x ccrio12)) hpre hpost ⟨size, data, rfl⟩
      (by rw [← h]; simp)
    rw [hunique]
    unfold gpioWords
    rw [gpioWrites_append, ccrio3Ops_writes ccrio3 (by decide)]
    simp [gpioWrites, GPIO, SMC, CCRHRESET, cstr]

end Whole

/-- A write that comes back did what it is to do exactly when it was of no command, or bit 5
    of LT_GPIO_DIR was set and the value of CCRIO3, where that is driven, was what lay at the
    address that it makes. -/
theorem resetDone_iff (i : U32) (a : AttributeData) (pWrittenData : Buf) {p : BspRval × Process ε}
    (h : (bspCCRH_Reset_write x i a pWrittenData b).res = .ok p) :
    ResetDone x pWrittenData (bspCCRH_Reset_write x i a pWrittenData b).trace ↔
      ∀ ccrio3 ccrio12, ccrios (pWrittenData.load32 0) = some (ccrio3, ccrio12) →
        x.ltGpioDir &&& 0x20 ≠ 0 ∧ Ccrio3Stored x b ccrio3 := by
  constructor
  · intro hdone ccrio3 ccrio12 hsel
    have hseq := hdone.inside ccrio3 ccrio12 hsel
    obtain ⟨last, hlast, htrace⟩ := reset_trace x b i a hsel h
    rw [htrace] at hseq
    refine ⟨fun hbit => not_initialised hlast (hseq.direction hbit), ?_⟩
    intro hwver b₁ hmethod hdrives
    apply hseq.ccrio3
    unfold gpioWords
    rw [whole_ccrio3 hlast]
    rcases ccrio3Ops_cases x b ccrio3 with ⟨hwver', b₁', hmethod', -, hops⟩ | ⟨-, hnever⟩
    · rw [hmethod] at hmethod'
      cases hmethod'
      rw [hops]
      simp [gpioWrites]
    · exact absurd hdrives (hnever hwver b₁ hmethod)
  · intro hcond
    refine ⟨fun hout => ?_, fun ccrio3 ccrio12 hsel => ?_⟩
    · have hnone := (ccrios_none_iff _).mpr hout
      unfold bspCCRH_Reset_write
      rw [hnone]
      rfl
    obtain ⟨hbit, hstored⟩ := hcond ccrio3 ccrio12 hsel
    obtain ⟨last, hlast, htrace⟩ := reset_trace x b i a hsel h
    rw [htrace]
    refine ⟨?_, ?_, fun hclear => absurd hclear hbit, ?_, ?_⟩
    · exact whole_reset hlast
    · intro before size data after hsplit
      exact ⟨whole_between hlast hsplit, fun hclear => absurd hclear hbit⟩
    · intro w hw
      unfold gpioWords at hw
      rw [whole_ccrio3 hlast] at hw
      rcases ccrio3Ops_cases x b ccrio3 with ⟨hwver, b₁, hmethod, hdrives, hops⟩ | ⟨hops, -⟩
      · rw [hops] at hw
        obtain rfl : w = (pointerTo b₁ ccrio3).load32 0 := by simpa [gpioWrites] using hw
        exact hstored hwver b₁ hmethod hdrives
      · rw [hops] at hw
        cases hw
    · intro w hw
      rw [whole_ccrio12 hlast] at hw
      split at hw
      · cases hw
      · exact List.mem_singleton.mp hw

end Sequence

/-- A kernel in which nothing happens, and no entities. -/
def CcrhExt.idle (ltGpioDir : U32) : CcrhExt Unit where
  toExt := idleExt
  bspEntityList := []
  ltGpioDir := ltGpioDir
  bspSleepTimer := fun _ env => env
  frame := fun _ => 0
  fuel := 0

/-- Of a board on which CCRIO3 is driven. -/
def cafeProcess : Process Unit :=
  { freshProcess with
    bspHardwareVersion := latteRevision 0x50 ||| BSP_VARIANT_CAFE
    bspBoardConfig := { BcConfig.zero with boardRevision := 4 } }

/-- The word of a command. -/
def commandBuf (cmd : U32) : Buf := Buf.store (fun _ => 0) (Buf.ofU32 cmd)

theorem cafe_reset_done : ResetDone (CcrhExt.idle 0x20) (commandBuf 2)
    (bspCCRH_Reset_write (CcrhExt.idle 0x20) 0 { pName := none } (commandBuf 2) cafeProcess).trace :=
  (resetDone_iff 0 { pName := none } (commandBuf 2) rfl).mpr
    fun ccrio3 ccrio12 hsel => by
      have hselected : ccrios ((commandBuf 2).load32 0) = some (0, 1) := by decide
      rw [hselected] at hsel
      cases hsel
      refine ⟨by decide, fun _ _ _ _ => ?_⟩
      show (0 : U8) ++ (0 : U8) ++ (0 : U8) ++ (0 : U8) = (0 : U32)
      decide

/-- With bit 5 of LT_GPIO_DIR clear, CCRIO12 is driven without its direction. -/
theorem cafe_direction_skipped :
    (∃ p, (bspCCRH_Reset_write (CcrhExt.idle 0) 0 { pName := none } (commandBuf 2) cafeProcess).res = .ok p) ∧
      ¬ ResetDone (CcrhExt.idle 0) (commandBuf 2)
        (bspCCRH_Reset_write (CcrhExt.idle 0) 0 { pName := none } (commandBuf 2) cafeProcess).trace := by
  refine ⟨⟨_, rfl⟩, fun h => ?_⟩
  have hsel : ccrios ((commandBuf 2).load32 0) = some (0, 1) := by decide
  obtain ⟨last, hlast, htrace⟩ := reset_trace (CcrhExt.idle 0) cafeProcess 0 { pName := none } hsel rfl
  have hinit := (h.inside 0 1 hsel).direction (by decide)
  rw [htrace] at hinit
  exact not_initialised hlast hinit

end Iosu.Entities
