/-
  Iosu.Entities.IoStrength — the IO strength of DI, SI and SDIO (`bsp_di.c`, `bsp_si.c`,
  `bsp_sdio.c`).

  At startup each of them selects a strength by the hardware version and puts it into its
  field of three bits. The mask that clears the field first is the width of the field, so
  its top bit is not cleared: `strength_set_iff` says when that shows. A Latte's SDIO has
  fields in two more registers, whose macros the headers lack (`LtIostrctrl2`).
-/

import Iosu.Bsp.Detectors
import Iosu.Entities.Lines

namespace Iosu.Entities

open Iosu.Lib Iosu.Libc Iosu.Entity Iosu.Bsp Iosu.Ios Iosu.Eeprom Iosu.Lib.Microwire

variable {ε : Type}

/-- The process, and the registers that detecting a version does not reach. -/
structure IoState (ε : Type) where
  proc : Process ε
  hwIostrctrl0 : U32
  hwIostrctrl1 : U32
  ltIostrctrl2 : U32
  /-- The word at 0x0d8005cc. -/
  unk05cc : U32

def HW_IOSTRCTRL0 : Reg (IoState ε) 32 :=
  ⟨IoState.hwIostrctrl0, fun v s => { s with hwIostrctrl0 := v }, fun _ _ => rfl⟩

def HW_IOSTRCTRL1 : Reg (IoState ε) 32 :=
  ⟨IoState.hwIostrctrl1, fun v s => { s with hwIostrctrl1 := v }, fun _ _ => rfl⟩

def HW_IOSTRCTRL0_MASK : U32 := 3
def HW_IOSTRCTRL0_SI (val : U32) : U32 := REG_BIT 2 val HW_IOSTRCTRL0_MASK
def HW_IOSTRCTRL0_DI (val : U32) : U32 := REG_BIT 6 val HW_IOSTRCTRL0_MASK

def HW_IOSTRCTRL1_MASK : U32 := 3
def HW_IOSTRCTRL1_SDIO (val : U32) : U32 := REG_BIT 7 val HW_IOSTRCTRL1_MASK

/-- The LT_IOSTRCTRL2 macros. -/
structure LtIostrctrl2 where
  MASK : U32
  SDIOB : U32 → U32
  SDIOC : U32 → U32
  SDIOD : U32 → U32

def BSP_IS_EV_Y (hwver : U32) : Bool := BSP_GET_VARIANT hwver = BSP_VARIANT_EV_Y

/-! ## The methods -/

/-- The strengths that each selects, or none. -/
def diStrength (hwver : U32) : Option U32 :=
  if BSP_IS_HOLLYWOOD hwver ∨ BSP_IS_HOLLYWOOD_ES1 hwver then some 1
  else if BSP_IS_LATTE hwver ∨ BSP_IS_BOLLYWOOD hwver then some 2
  else none

def siStrength (hwver : U32) : Option U32 :=
  if BSP_IS_HOLLYWOOD hwver ∨ BSP_IS_HOLLYWOOD_ES1 hwver ∨ BSP_IS_BOLLYWOOD hwver then some 1
  else if BSP_IS_LATTE hwver then some 2
  else none

def sdioStrength (hwver : U32) : Option U32 :=
  if BSP_IS_HOLLYWOOD hwver ∨ BSP_IS_HOLLYWOOD_ES1 hwver then some 2
  else if BSP_IS_BOLLYWOOD hwver then some 1
  else if BSP_IS_LATTE hwver then
    if BSP_IS_EV_Y hwver then some 5 else some 4
  else none

section Functions

variable (x : Ext ε)

/-- What DI and SI share. -/
def ioStrength_init (field : U32 → U32) (strength : U32 → Option U32) : InitMethod (IoState ε) := fun _ _ _ _ s => do
  let ((err, hwver), proc) ← bspMethodGetHardwareVersion x s.proc
  let s := { s with proc := proc }
  if err ≠ BSP_RVAL_OK then .ok (err, s)
  else
    let reg := HW_IOSTRCTRL0.read s &&& ~~~field HW_IOSTRCTRL0_MASK
    match strength hwver with
    | none => .ok (BSP_RVAL_UNKNOWN_HARDWARE_VERSION, s)
    | some v => .ok (BSP_RVAL_OK, HW_IOSTRCTRL0.write (reg ||| field v) s)

def bspDI_IOStrength_init : InitMethod (IoState ε) := ioStrength_init x HW_IOSTRCTRL0_DI diStrength
def bspSI_IOStrength_init : InitMethod (IoState ε) := ioStrength_init x HW_IOSTRCTRL0_SI siStrength

def bspSDIO_IOStrength_init (lt : LtIostrctrl2) : InitMethod (IoState ε) := fun _ _ _ _ s => do
  let ((err, hwver), proc) ← bspMethodGetHardwareVersion x s.proc
  let s := { s with proc := proc }
  if err ≠ BSP_RVAL_OK then .ok (err, s)
  else
    let hwstrctrl1 := HW_IOSTRCTRL1.read s &&& ~~~ HW_IOSTRCTRL1_SDIO HW_IOSTRCTRL1_MASK
    if BSP_IS_HOLLYWOOD hwver ∨ BSP_IS_HOLLYWOOD_ES1 hwver then
      .ok (BSP_RVAL_OK, HW_IOSTRCTRL1.write (hwstrctrl1 ||| HW_IOSTRCTRL1_SDIO 2) s)
    else if BSP_IS_BOLLYWOOD hwver then
      .ok (BSP_RVAL_OK, HW_IOSTRCTRL1.write (hwstrctrl1 ||| HW_IOSTRCTRL1_SDIO 1) s)
    else if BSP_IS_LATTE hwver then
      let ltstrctrl2 := s.ltIostrctrl2 &&& ~~~(lt.SDIOB lt.MASK ||| lt.SDIOC lt.MASK ||| lt.SDIOD lt.MASK)
      let unk05cc := s.unk05cc
      let (ltstrctrl2, hwstrctrl1) :=
        if BSP_IS_EV_Y hwver then
          (ltstrctrl2 ||| (lt.SDIOB 4 ||| lt.SDIOC 4 ||| lt.SDIOD 4), hwstrctrl1 ||| HW_IOSTRCTRL1_SDIO 5)
        else (ltstrctrl2 ||| (lt.SDIOB 2 ||| lt.SDIOC 4 ||| lt.SDIOD 2), hwstrctrl1 ||| HW_IOSTRCTRL1_SDIO 4)
      let s := { s with ltIostrctrl2 := ltstrctrl2, unk05cc := unk05cc &&& ~~~6 }
      .ok (BSP_RVAL_OK, HW_IOSTRCTRL1.write hwstrctrl1 s)
    else .ok (BSP_RVAL_UNKNOWN_HARDWARE_VERSION, s)

end Functions

/-! ## The three side by side -/

inductive StrengthDevice
  | di
  | si
  | sdio

namespace StrengthDevice

def register : StrengthDevice → Reg (IoState ε) 32
  | di => HW_IOSTRCTRL0
  | si => HW_IOSTRCTRL0
  | sdio => HW_IOSTRCTRL1

/-- The bit its field begins at. -/
def bit : StrengthDevice → Nat
  | di => 18
  | si => 6
  | sdio => 21

def field : StrengthDevice → U32 → U32
  | di => HW_IOSTRCTRL0_DI
  | si => HW_IOSTRCTRL0_SI
  | sdio => HW_IOSTRCTRL1_SDIO

def strength : StrengthDevice → U32 → Option U32
  | di => diStrength
  | si => siStrength
  | sdio => sdioStrength

def initMethod (x : Ext ε) (lt : LtIostrctrl2) : StrengthDevice → InitMethod (IoState ε)
  | di => bspDI_IOStrength_init x
  | si => bspSI_IOStrength_init x
  | sdio => bspSDIO_IOStrength_init x lt

end StrengthDevice

section Runs

variable {x : Ext ε} (lt : LtIostrctrl2) (d : StrengthDevice) (inst : U32) (a : AttributeData) (pInitData : Option Buf)
  (size : U32) {s : IoState ε}

/-- Nothing is answered without detection. -/
theorem initMethod_detects {r : BspRval × IoState ε} (h : d.initMethod x lt inst a pInitData size s = .ok r) :
    ∃ err hwver proc, bspMethodGetHardwareVersion x s.proc = .ok ((err, hwver), proc) := by
  cases d
  all_goals
    dsimp only [StrengthDevice.initMethod, bspDI_IOStrength_init, bspSI_IOStrength_init, ioStrength_init,
      bspSDIO_IOStrength_init] at h
    obtain ⟨⟨⟨err, hwver⟩, proc⟩, hver, -⟩ := Res.bind_eq_ok.mp h
    exact ⟨err, hwver, proc, hver⟩

/-- A version that is not found: nothing happens to the register. -/
theorem initMethod_fails {err : BspRval} {hwver : U32} {proc : Process ε} (herr : err ≠ BSP_RVAL_OK)
    (h : bspMethodGetHardwareVersion x s.proc = .ok ((err, hwver), proc)) :
    d.initMethod x lt inst a pInitData size s = .ok (err, { s with proc := proc }) := by
  cases d
  all_goals
    dsimp only [StrengthDevice.initMethod, bspDI_IOStrength_init, bspSI_IOStrength_init, ioStrength_init,
      bspSDIO_IOStrength_init]
    rw [h, Res.ok_bind]
    exact if_pos herr

/-- With a version: without a strength for it nothing happens to the register either, and
    with one the bits of the mask are cleared and those of the strength set. -/
theorem initMethod_runs {hwver : U32} {proc : Process ε}
    (h : bspMethodGetHardwareVersion x s.proc = .ok ((BSP_RVAL_OK, hwver), proc)) :
    (d.strength hwver = none → d.initMethod x lt inst a pInitData size s =
      .ok (BSP_RVAL_UNKNOWN_HARDWARE_VERSION, { s with proc := proc })) ∧
    ∀ v, d.strength hwver = some v → ∃ s',
      d.initMethod x lt inst a pInitData size s = .ok (BSP_RVAL_OK, s') ∧ s'.proc = proc ∧
      d.register.read s' = (d.register.read s &&& ~~~d.field 3) ||| d.field v := by
  have hok : ¬ BSP_RVAL_OK ≠ BSP_RVAL_OK := by decide
  cases d with
  | sdio =>
    -- The tests that select its strength are those the function itself makes.
    dsimp only [StrengthDevice.strength, sdioStrength, StrengthDevice.initMethod, bspSDIO_IOStrength_init]
    rw [h, Res.ok_bind]
    dsimp only
    simp only [if_neg hok]
    by_cases hholly : BSP_IS_HOLLYWOOD hwver ∨ BSP_IS_HOLLYWOOD_ES1 hwver
    · simp only [if_pos hholly]
      refine ⟨fun hnone => (by cases hnone), fun v hv => ?_⟩
      cases hv
      exact ⟨_, rfl, rfl, rfl⟩
    simp only [if_neg hholly]
    by_cases hbolly : BSP_IS_BOLLYWOOD hwver
    · simp only [if_pos hbolly]
      refine ⟨fun hnone => (by cases hnone), fun v hv => ?_⟩
      cases hv
      exact ⟨_, rfl, rfl, rfl⟩
    simp only [if_neg hbolly]
    by_cases hlatte : BSP_IS_LATTE hwver
    · simp only [if_pos hlatte]
      by_cases hevy : BSP_IS_EV_Y hwver
      · simp only [if_pos hevy]
        refine ⟨fun hnone => (by cases hnone), fun v hv => ?_⟩
        cases hv
        exact ⟨_, rfl, rfl, rfl⟩
      · simp only [if_neg hevy]
        refine ⟨fun hnone => (by cases hnone), fun v hv => ?_⟩
        cases hv
        exact ⟨_, rfl, rfl, rfl⟩
    · rw [if_neg hlatte, if_neg hlatte]
      exact ⟨fun _ => rfl, fun v hv => (by cases hv)⟩
  | di | si =>
    dsimp only [StrengthDevice.strength, StrengthDevice.initMethod, bspDI_IOStrength_init, bspSI_IOStrength_init,
      ioStrength_init]
    rw [h, Res.ok_bind]
    dsimp only
    simp only [if_neg hok]
    refine ⟨fun hnone => by rw [hnone], fun v hv => ?_⟩
    rw [hv]
    exact ⟨_, rfl, rfl, rfl⟩

end Runs

/-! ## The fields -/

/-- An init that succeeds leaves the strength of the version that was found in the field,
    and changes nothing else of the register; one that fails leaves the register alone. -/
def StrengthSet (x : Ext ε) (lt : LtIostrctrl2) (d : StrengthDevice) (inst : U32) (a : AttributeData)
    (pInitData : Option Buf) (size : U32) (s : IoState ε) : Prop :=
  ∀ ret s', d.initMethod x lt inst a pInitData size s = .ok (ret, s') →
    (ret = BSP_RVAL_OK → ∃ hwver v, bspMethodGetHardwareVersion x s.proc = .ok ((BSP_RVAL_OK, hwver), s'.proc) ∧
      d.strength hwver = some v ∧ (d.register.read s').extractLsb' d.bit 3 = v.setWidth 3 ∧
      d.register.read s' &&& ~~~part d.bit 3 = d.register.read s &&& ~~~part d.bit 3) ∧
    (ret ≠ BSP_RVAL_OK → d.register.read s' = d.register.read s)

/-- The strengths that the three select. -/
theorem strength_mem {d : StrengthDevice} {hwver v : U32} (h : d.strength hwver = some v) :
    v = 1 ∨ v = 2 ∨ v = 4 ∨ v = 5 := by
  cases d
  all_goals
    dsimp only [StrengthDevice.strength, diStrength, siStrength, sdioStrength] at h
    split at h
    · cases h
      decide
    split at h
    · cases h
      decide
  · cases h
  · cases h
  split at h
  · split at h
    · cases h
      decide
    · cases h
      decide
  · cases h

section Fields

variable (d : StrengthDevice) {v : U32} (hv : v = 1 ∨ v = 2 ∨ v = 4 ∨ v = 5)

include hv

/-- Which bits of the field are neither cleared nor set. -/
theorem field_left :
    part d.bit 3 &&& ~~~(d.field 3 ||| d.field v) = if v.getLsbD 2 then 0 else (part (d.bit + 2) 1 : U32) := by
  rcases hv with rfl | rfl | rfl | rfl <;> cases d <;> decide

theorem field_value : (d.field v).extractLsb' d.bit 3 = v.setWidth 3 := by
  rcases hv with rfl | rfl | rfl | rfl <;> cases d <;> decide

theorem field_inside : (d.field 3 ||| d.field v) &&& ~~~part d.bit 3 = 0 := by
  rcases hv with rfl | rfl | rfl | rfl <;> cases d <;> decide

theorem field_top : v.getLsbD 2 = false → d.field v &&& part (d.bit + 2) 1 = 0 := by
  rcases hv with rfl | rfl | rfl | rfl <;> cases d <;> decide

theorem field_set_iff (reg : U32) :
    ((reg &&& ~~~d.field 3) ||| d.field v).extractLsb' d.bit 3 = v.setWidth 3 ↔
      (reg.getLsbD (d.bit + 2) = true → v.getLsbD 2 = true) := by
  have hbit : d.bit + 3 ≤ 32 := by cases d <;> decide
  have hleft := field_left d hv
  rw [clear_or, ← field_value d hv]
  cases htop : v.getLsbD 2 with
  | true =>
    rw [htop, if_pos rfl] at hleft
    exact ⟨fun _ _ => rfl, fun _ => extract_blend_inside hbit hleft _ _⟩
  | false =>
    rw [htop, if_neg Bool.false_ne_true] at hleft
    rw [extract_blend_iff hbit, hleft, field_top d hv htop, and_part_one (by omega)]
    simp

theorem field_rest (reg : U32) :
    ((reg &&& ~~~d.field 3) ||| d.field v) &&& ~~~part d.bit 3 = reg &&& ~~~part d.bit 3 := by
  rw [clear_or]
  exact blend_and_apart _ _ (field_inside d hv)

end Fields

/-- The fields come out right exactly when the top bit was clear, or is one of the
    strength's own. -/
theorem strength_set_iff (x : Ext ε) (lt : LtIostrctrl2) (d : StrengthDevice) (inst : U32) (a : AttributeData)
    (pInitData : Option Buf) (size : U32) (s : IoState ε) :
    StrengthSet x lt d inst a pInitData size s ↔
      ∀ hwver proc v, bspMethodGetHardwareVersion x s.proc = .ok ((BSP_RVAL_OK, hwver), proc) →
        d.strength hwver = some v → (d.register.read s).getLsbD (d.bit + 2) = true → v.getLsbD 2 = true := by
  refine ⟨fun h hwver proc v hver hv => ?_, fun h ret s' hrun => ?_⟩
  · obtain ⟨s', hrun, -, hreg⟩ := (initMethod_runs lt d inst a pInitData size hver).2 v hv
    obtain ⟨hwver', v', hver', hv', hfield, -⟩ := (h _ _ hrun).1 rfl
    cases hver.symm.trans hver'
    cases hv.symm.trans hv'
    rw [hreg, field_set_iff d (strength_mem hv)] at hfield
    exact hfield
  · obtain ⟨err, hwver, proc, hver⟩ := initMethod_detects lt d inst a pInitData size hrun
    by_cases herr : err = BSP_RVAL_OK
    · subst herr
      obtain ⟨hunknown, hsets⟩ := initMethod_runs lt d inst a pInitData size hver
      cases hv : d.strength hwver with
      | none =>
        rw [hunknown hv] at hrun
        cases hrun
        refine ⟨fun hok => absurd hok (by decide), fun _ => ?_⟩
        cases d <;> rfl
      | some v =>
        obtain ⟨s₁, hset, hproc, hreg⟩ := hsets v hv
        rw [hset] at hrun
        cases hrun
        refine ⟨fun _ => ⟨hwver, v, by rw [hproc, hver], hv, ?_, ?_⟩, fun hne => absurd rfl hne⟩
        · rw [hreg, field_set_iff d (strength_mem hv)]
          exact h hwver proc v hver hv
        · rw [hreg]
          exact field_rest d (strength_mem hv) _
    · rw [initMethod_fails lt d inst a pInitData size herr hver] at hrun
      cases hrun
      refine ⟨fun hok => absurd hok herr, fun _ => ?_⟩
      cases d <;> rfl

/-- DI on a Latte, with the field at 7: it comes out as 6. -/
def dirtyState : IoState Device where
  proc := { Process.start (Device.fresh (fun _ => 0) false) with bspHardwareVersion := 0x25100028 }
  hwIostrctrl0 := 0x001C0000
  hwIostrctrl1 := 0
  ltIostrctrl2 := 0
  unk05cc := 0

theorem dirtyState_not_set :
    ¬ StrengthSet (Ext.quiet seeprom 0x21 0xCAFE0050) ⟨7, id, id, id⟩ .di 0 { pName := none } none 0 dirtyState := by
  intro h
  obtain ⟨hwver, v, hver, hv, hfield, -⟩ := (h _ _ rfl).1 rfl
  cases hver
  cases (show some 2 = some v from hv)
  revert hfield
  decide

end Iosu.Entities
