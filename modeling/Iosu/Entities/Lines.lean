/-
  Iosu.Entities.Lines — the IO power of DI and SI, and the reset lines (`bsp_di.c`,
  `bsp_si.c`, `bsp_reset.c`).

  Each method reads a register, changes the bits of its attribute and writes it back.
  The power of a device is a field of two bits, of which a write clears one: the macro
  that places a value is given the width of the field where a mask is meant. So a field
  that was ever on is not zero again (`ioPower_kept_iff`), although reading it tells on
  from off. A reset line is one mask for everything, and the lines are a store
  (`resetLines_store`).
-/

import Iosu.Lib.Registers
import Iosu.Entity.Types

namespace Iosu.Entities

open Iosu.Lib Iosu.Libc Iosu.Entity

variable {σ : Type}

/-! ## Writes in a row -/

/-- A write of each of the buffers, to the attribute it goes with: the answers. -/
def methodWrites {ι : Type} (writeMethod : ι → InMethod σ) (attr : ι → AttributeData) (inst : U32) :
    List (ι × Buf) → σ → Res Fault (List BspRval × σ)
  | [], s => .ok ([], s)
  | (i, pWrittenData) :: ws, s => do
    let (ret, s) ← writeMethod i inst (attr i) pWrittenData s
    let (rets, s) ← methodWrites writeMethod attr inst ws s
    .ok (ret :: rets, s)

/-- Writes that change one register, and never fail. -/
theorem methodWrites_eq {ι : Type} {writeMethod : ι → InMethod σ} {attr : ι → AttributeData} {inst : U32}
    (reg : Reg σ 32) (step : ι → Buf → U32 → U32)
    (h : ∀ i data s, ∃ s', writeMethod i inst (attr i) data s = .ok (BSP_RVAL_OK, s') ∧
      reg.read s' = step i data (reg.read s))
    (ws : List (ι × Buf)) (s : σ) :
    ∃ s', methodWrites writeMethod attr inst ws s = .ok (List.replicate ws.length BSP_RVAL_OK, s') ∧
      reg.read s' = ws.foldl (fun word p => step p.1 p.2 word) (reg.read s) := by
  induction ws generalizing s with
  | nil => exact ⟨s, rfl, rfl⟩
  | cons p ws ih =>
    obtain ⟨i, data⟩ := p
    obtain ⟨s₁, hwrite, hreg⟩ := h i data s
    obtain ⟨s', hwrites, hregs⟩ := ih s₁
    refine ⟨s', ?_, by rw [hregs, hreg]; rfl⟩
    unfold methodWrites
    rw [hwrite, Res.ok_bind]
    dsimp only
    rw [hwrites]
    rfl

/-! ## `latte.h` -/

def REG_BIT (bit val width : U32) : U32 := val <<< (bit * width)

def HW_IOPWRCTRL_MASK : U32 := 2
def HW_IOPWRCTRL_DI (val : U32) : U32 := REG_BIT 3 val HW_IOPWRCTRL_MASK
def HW_IOPWRCTRL_SI (val : U32) : U32 := REG_BIT 9 val HW_IOPWRCTRL_MASK

/-! ## IO power -/

section IoPower

variable (HW_IOPWRCTRL : Reg σ 32)

def ioPower_read (line : U32 → U32) : OutMethod σ := fun _ _ pReadData s =>
  let reg := HW_IOPWRCTRL.read s
  let on : U8 := if reg &&& line 1 ≠ 0 ∧ reg &&& line 2 ≠ 0 then 1 else 0
  .ok (BSP_RVAL_OK, pReadData.store [on], s)

def ioPower_write (line : U32 → U32) : InMethod σ := fun _ _ pWrittenData s =>
  let reg := HW_IOPWRCTRL.read s &&& ~~~line HW_IOPWRCTRL_MASK
  let reg := if pWrittenData 0 ≠ 0 then reg ||| (line 1 ||| line 2) else reg
  .ok (BSP_RVAL_OK, HW_IOPWRCTRL.write reg s)

def bspDI_IOPower_read : OutMethod σ := ioPower_read HW_IOPWRCTRL HW_IOPWRCTRL_DI
def bspDI_IOPower_write : InMethod σ := ioPower_write HW_IOPWRCTRL HW_IOPWRCTRL_DI
def bspSI_IOPower_read : OutMethod σ := ioPower_read HW_IOPWRCTRL HW_IOPWRCTRL_SI
def bspSI_IOPower_write : InMethod σ := ioPower_write HW_IOPWRCTRL HW_IOPWRCTRL_SI

/-- The power at startup, from the attribute's data. No `return` ends it: what the caller
    takes for the result is whatever the register for it holds. -/
def ioPower_init (line : U32 → U32) (returned : σ → BspRval) : InitMethod σ := fun inst pAttribute _ _ s => do
  let enable := pAttribute.data.setWidth 8
  let enable : U8 := if enable ≠ 0 then 1 else enable
  let (_, s) ← ioPower_write HW_IOPWRCTRL line inst pAttribute (fun _ => enable) s
  .ok (returned s, s)

def bspDI_IOPower_init (returned : σ → BspRval) : InitMethod σ := ioPower_init HW_IOPWRCTRL HW_IOPWRCTRL_DI returned
def bspSI_IOPower_init (returned : σ → BspRval) : InitMethod σ := ioPower_init HW_IOPWRCTRL HW_IOPWRCTRL_SI returned

inductive PowerDevice
  | di
  | si
  deriving DecidableEq

namespace PowerDevice

def line : PowerDevice → U32 → U32
  | di => HW_IOPWRCTRL_DI
  | si => HW_IOPWRCTRL_SI

/-- The bit its field begins at. -/
def bit : PowerDevice → Nat
  | di => 6
  | si => 18

def readMethod : PowerDevice → OutMethod σ
  | di => bspDI_IOPower_read HW_IOPWRCTRL
  | si => bspSI_IOPower_read HW_IOPWRCTRL

def writeMethod : PowerDevice → InMethod σ
  | di => bspDI_IOPower_write HW_IOPWRCTRL
  | si => bspSI_IOPower_write HW_IOPWRCTRL

def initMethod (returned : σ → BspRval) : PowerDevice → InitMethod σ
  | di => bspDI_IOPower_init HW_IOPWRCTRL returned
  | si => bspSI_IOPower_init HW_IOPWRCTRL returned

theorem readMethod_eq (d : PowerDevice) : d.readMethod HW_IOPWRCTRL = ioPower_read HW_IOPWRCTRL d.line := by
  cases d <;> rfl

theorem writeMethod_eq (d : PowerDevice) : d.writeMethod HW_IOPWRCTRL = ioPower_write HW_IOPWRCTRL d.line := by
  cases d <;> rfl

end PowerDevice

theorem line_one (d : PowerDevice) : d.line 1 = part d.bit 1 := by cases d <;> decide
theorem line_two (d : PowerDevice) : d.line 2 = part (d.bit + 1) 1 := by cases d <;> decide

/-- The bits a write sets. -/
def powerValue (d : PowerDevice) (data : Buf) : U32 := if data 0 ≠ 0 then part d.bit 2 else 0

/-- The register behind a write: of the field, a write clears the high bit only. -/
def powerWord (d : PowerDevice) (data : Buf) (reg : U32) : U32 :=
  blend (part (d.bit + 1) 1 ||| powerValue d data) (powerValue d data) reg

theorem writeMethod_spec (d : PowerDevice) (inst : U32) (a : AttributeData) (data : Buf) (s : σ) :
    ∃ s', d.writeMethod HW_IOPWRCTRL inst a data s = .ok (BSP_RVAL_OK, s') ∧
      HW_IOPWRCTRL.read s' = powerWord d data (HW_IOPWRCTRL.read s) := by
  have hfield : d.line 1 ||| d.line 2 = part d.bit 2 := by cases d <;> decide
  rw [d.writeMethod_eq]
  refine ⟨_, rfl, ?_⟩
  rw [HW_IOPWRCTRL.read_write, powerWord, ← clear_or, powerValue, HW_IOPWRCTRL_MASK, line_two, ← hfield, line_two]
  split
  · rfl
  · exact (BitVec.or_zero).symm

/-- The power at startup is the low byte of the attribute's data. -/
theorem initMethod_spec (d : PowerDevice) (returned : σ → BspRval) (inst : U32) (a : AttributeData)
    (pInitData : Option Buf) (size : U32) (s : σ) :
    ∃ s', d.initMethod HW_IOPWRCTRL returned inst a pInitData size s = .ok (returned s', s') ∧
      HW_IOPWRCTRL.read s' = powerWord d (fun _ => a.data.setWidth 8) (HW_IOPWRCTRL.read s) := by
  have hinit : d.initMethod HW_IOPWRCTRL returned = ioPower_init HW_IOPWRCTRL d.line returned := by cases d <;> rfl
  obtain ⟨s', hwrite, hword⟩ := writeMethod_spec HW_IOPWRCTRL d inst a
    (fun _ => if a.data.setWidth 8 ≠ 0 then 1 else a.data.setWidth 8) s
  refine ⟨s', ?_, ?_⟩
  · rw [hinit, ioPower_init, ← d.writeMethod_eq]
    dsimp only
    rw [hwrite]
    rfl
  · rw [hword]
    unfold powerWord powerValue
    by_cases h0 : a.data.setWidth 8 = 0#8 <;> simp [h0]

theorem powerWord_low (d e : PowerDevice) (data : Buf) (reg : U32) :
    (powerWord d data reg).getLsbD e.bit = (reg.getLsbD e.bit || decide (d = e ∧ data 0 ≠ 0)) := by
  by_cases h0 : data 0 = 0#8
  · cases d <;> cases e <;> simp [powerWord, powerValue, PowerDevice.bit, h0]
  · cases d <;> cases e <;> simp [powerWord, powerValue, PowerDevice.bit, h0]

theorem powerWord_high (d e : PowerDevice) (data : Buf) (reg : U32) :
    (powerWord d data reg).getLsbD (e.bit + 1) = if d = e then decide (data 0 ≠ 0) else reg.getLsbD (e.bit + 1) := by
  by_cases h0 : data 0 = 0#8
  · cases d <;> cases e <;> simp [powerWord, powerValue, PowerDevice.bit, h0]
  · cases d <;> cases e <;> simp [powerWord, powerValue, PowerDevice.bit, h0]

theorem powerWord_rest (d : PowerDevice) (data : Buf) (reg : U32) :
    powerWord d data reg &&& ~~~part d.bit 2 = reg &&& ~~~part d.bit 2 := by
  refine blend_and_apart _ _ ?_
  unfold powerValue
  split <;> cases d <;> decide

/-- So a write sets the field unless it is a zero, and the low bit is set. -/
theorem powerWord_field_iff (d : PowerDevice) (data : Buf) (reg : U32) :
    (powerWord d data reg).extractLsb' d.bit 2 = (if data 0 ≠ 0 then 3 else 0) ↔
      (data 0 = 0 → reg.getLsbD d.bit = false) := by
  have hvalue : (powerValue d data).extractLsb' d.bit 2 = if data 0 ≠ 0 then 3 else 0 := by
    unfold powerValue
    split <;> cases d <;> decide
  have hbit : d.bit + 2 ≤ 32 := by cases d <;> decide
  rw [← hvalue, powerWord]
  unfold powerValue
  by_cases h0 : data 0 = 0
  · -- A zero leaves the low bit.
    have hlow : (part d.bit 2 &&& ~~~(part (d.bit + 1) 1 ||| 0) : U32) = part d.bit 1 := by cases d <;> decide
    have hzero : (0 : U32) &&& part d.bit 1 = 0 := BitVec.zero_and
    rw [if_neg (not_not.mpr h0), extract_blend_iff hbit, hlow, hzero, and_part_one (by omega)]
    exact ⟨fun h _ => h, fun h => h h0⟩
  · have hinside : (part d.bit 2 &&& ~~~(part (d.bit + 1) 1 ||| part d.bit 2) : U32) = 0 := by
      cases d <;> decide
    rw [if_pos h0]
    exact ⟨fun _ h => absurd h h0, fun _ => extract_blend_inside hbit hinside _ _⟩

/-! ### Runs of writes -/

def powerWords (ws : List (PowerDevice × Buf)) (reg : U32) : U32 := ws.foldl (fun word p => powerWord p.1 p.2 word) reg

theorem powerWords_snoc (ws : List (PowerDevice × Buf)) (p : PowerDevice × Buf) (reg : U32) :
    powerWords (ws ++ [p]) reg = powerWord p.1 p.2 (powerWords ws reg) := by
  unfold powerWords
  rw [List.foldl_append]
  rfl

/-- The low bit of a field is set once the device was on. -/
theorem powerWords_low (e : PowerDevice) (ws : List (PowerDevice × Buf)) (reg : U32) :
    (powerWords ws reg).getLsbD e.bit = (reg.getLsbD e.bit || ws.any fun p => decide (p.1 = e ∧ p.2 0 ≠ 0)) := by
  induction ws using List.reverseRecOn with
  | nil => simp [powerWords]
  | append_singleton ws p ih =>
    rw [powerWords_snoc, powerWord_low, ih, List.any_append, Bool.or_assoc]
    simp

/-- The high bit tells the last write. -/
theorem powerWords_high (e : PowerDevice) {ws : List (PowerDevice × Buf)} {data : Buf}
    (h : lastTo e ws = some data) (reg : U32) :
    (powerWords ws reg).getLsbD (e.bit + 1) = decide (data 0 ≠ 0) := by
  induction ws using List.reverseRecOn with
  | nil => cases h
  | append_singleton ws p ih =>
    rw [lastTo_snoc] at h
    rw [powerWords_snoc, powerWord_high]
    split at h
    · next he =>
      cases h
      rw [if_pos he]
    · next he =>
      rw [if_neg he]
      exact ih h

/-- What a device reads as is its last write, whatever its field is otherwise. -/
theorem readMethod_spec (e : PowerDevice) {ws : List (PowerDevice × Buf)} {data : Buf} (h : lastTo e ws = some data)
    (inst : U32) (a : AttributeData) (pReadData : Buf) {reg : U32} {s : σ} (hs : HW_IOPWRCTRL.read s = powerWords ws reg) :
    e.readMethod HW_IOPWRCTRL inst a pReadData s =
      .ok (BSP_RVAL_OK, pReadData.store [if data 0 ≠ 0 then 1 else 0], s) := by
  have hbit : e.bit + 1 < 32 := by cases e <;> decide
  -- Only a byte that is not zero sets the high bit, and it sets the low one with it.
  have hon : (HW_IOPWRCTRL.read s &&& e.line 1 ≠ 0 ∧ HW_IOPWRCTRL.read s &&& e.line 2 ≠ 0) ↔ data 0 ≠ 0 := by
    rw [hs, line_one, line_two, Ne, Ne, and_part_one (by omega), and_part_one hbit, powerWords_high e h, powerWords_low]
    refine ⟨fun hread => by simpa using hread.2, fun hne => ⟨?_, by simpa using hne⟩⟩
    have hany : (ws.any fun p => decide (p.1 = e ∧ p.2 0 ≠ 0)) = true :=
      List.any_eq_true.mpr ⟨(e, data), lastTo_mem h, by simpa using hne⟩
    rw [hany, Bool.or_true]
    exact Bool.noConfusion
  rw [e.readMethod_eq, ioPower_read]
  simp only [hon]

/-- After each write the field is all on or all off, nothing else changed, and what was
    written reads back. -/
def PowerKept (attr : PowerDevice → AttributeData) (inst : U32) (ws : List (PowerDevice × Buf)) (s : σ) : Prop :=
  ∀ pre d data post, ws = pre ++ (d, data) :: post → ∃ s₁ s₂,
    methodWrites (fun d => d.writeMethod HW_IOPWRCTRL) attr inst pre s =
      .ok (List.replicate pre.length BSP_RVAL_OK, s₁) ∧
    d.writeMethod HW_IOPWRCTRL inst (attr d) data s₁ = .ok (BSP_RVAL_OK, s₂) ∧
    (HW_IOPWRCTRL.read s₂).extractLsb' d.bit 2 = (if data 0 ≠ 0 then 3 else 0) ∧
    HW_IOPWRCTRL.read s₂ &&& ~~~part d.bit 2 = HW_IOPWRCTRL.read s₁ &&& ~~~part d.bit 2 ∧
    ∀ e data' pReadData, lastTo e (pre ++ [(d, data)]) = some data' →
      e.readMethod HW_IOPWRCTRL inst (attr e) pReadData s₂ =
        .ok (BSP_RVAL_OK, pReadData.store [if data' 0 ≠ 0 then 1 else 0], s₂)

/-- All but the field holds in every run, and the field is right exactly when no device is
    switched off whose low bit was ever on. -/
theorem ioPower_kept_iff (attr : PowerDevice → AttributeData) (inst : U32) (ws : List (PowerDevice × Buf)) (s : σ) :
    PowerKept HW_IOPWRCTRL attr inst ws s ↔
      ∀ pre d data post, ws = pre ++ (d, data) :: post → data 0 = 0 →
        (HW_IOPWRCTRL.read s).getLsbD d.bit = false ∧ ∀ p ∈ pre, p.1 = d → p.2 0 = 0 := by
  -- A write finds the low bit clear exactly when it was clear at first and no write set it.
  have hclear : ∀ (d : PowerDevice) (pre : List (PowerDevice × Buf)),
      (powerWords pre (HW_IOPWRCTRL.read s)).getLsbD d.bit = false ↔
        (HW_IOPWRCTRL.read s).getLsbD d.bit = false ∧ ∀ p ∈ pre, p.1 = d → p.2 0 = 0 := by
    intro d pre
    rw [powerWords_low]
    simp
  have hrun : ∀ pre, ∃ s₁, methodWrites (fun d => d.writeMethod HW_IOPWRCTRL) attr inst pre s =
      .ok (List.replicate pre.length BSP_RVAL_OK, s₁) ∧ HW_IOPWRCTRL.read s₁ = powerWords pre (HW_IOPWRCTRL.read s) :=
    fun pre => methodWrites_eq HW_IOPWRCTRL powerWord
      (fun d data s => writeMethod_spec HW_IOPWRCTRL d inst (attr d) data s) pre s
  refine ⟨fun h pre d data post hws h0 => ?_, fun h pre d data post hws => ?_⟩
  · obtain ⟨s₁, s₂, hpre, hwrite, hfield, -⟩ := h pre d data post hws
    obtain ⟨t₁, hpre', hword₁⟩ := hrun pre
    obtain ⟨t₂, hwrite', hword₂⟩ := writeMethod_spec HW_IOPWRCTRL d inst (attr d) data s₁
    cases hpre.symm.trans hpre'
    cases hwrite.symm.trans hwrite'
    rw [hword₂, powerWord_field_iff, hword₁] at hfield
    exact (hclear d pre).mp (hfield h0)
  · obtain ⟨s₁, hpre, hword₁⟩ := hrun pre
    obtain ⟨s₂, hwrite, hword₂⟩ := writeMethod_spec HW_IOPWRCTRL d inst (attr d) data s₁
    refine ⟨s₁, s₂, hpre, hwrite, ?_, ?_, fun e data' pReadData hlast => ?_⟩
    · rw [hword₂, powerWord_field_iff, hword₁]
      exact fun h0 => (hclear d pre).mpr (h pre d data post hws h0)
    · rw [hword₂]
      exact powerWord_rest d data _
    · have hword : HW_IOPWRCTRL.read s₂ = powerWords (pre ++ [(d, data)]) (HW_IOPWRCTRL.read s) := by
        rw [hword₂, hword₁, powerWords_snoc]
      exact readMethod_spec HW_IOPWRCTRL e hlast inst (attr e) pReadData hword

end IoPower

/-- A register that is all there is. -/
def wordReg : Reg U32 32 := ⟨id, fun v _ => v, fun _ _ => rfl⟩

/-- DI is on and gets switched off: the field is 1. -/
theorem ioPower_leaves_low :
    ¬ PowerKept wordReg (fun _ => { pName := none }) 0 [(.di, fun _ => 0)] 0xC0 := by
  intro h
  obtain ⟨s₁, s₂, hpre, hwrite, hfield, -⟩ := h [] .di (fun _ => 0) [] rfl
  cases hpre
  cases hwrite
  revert hfield
  decide

/-! ## The reset lines -/

section Reset

variable (LT_RSTB : Reg σ 32)

def bspReset_LT_RSTB_read : OutMethod σ := fun _ pAttribute pReadData s =>
  let bit := LT_RSTB.read s &&& pAttribute.attributeSpecific
  let state : U8 := if bit ≠ 0 then 1 else 0
  .ok (BSP_RVAL_OK, pReadData.store [state], s)

def bspReset_LT_RSTB_write : InMethod σ := fun _ pAttribute pWrittenData s =>
  let cmd := pWrittenData 0
  let reg := LT_RSTB.read s
  let reg := if cmd = 0 then reg &&& ~~~pAttribute.attributeSpecific else reg ||| pAttribute.attributeSpecific
  .ok (BSP_RVAL_OK, LT_RSTB.write reg s)

/-- What a line reads as: its last write, or what it was before. -/
def lineState (reg mask : U32) : Option Buf → U8
  | some data => if data 0 ≠ 0 then 1 else 0
  | none => if reg &&& mask ≠ 0 then 1 else 0

/-- What a write puts under the mask. -/
def lineValue (data : Buf) : U32 := if data 0 = 0 then 0 else BitVec.allOnes 32

theorem reset_write (inst : U32) (a : AttributeData) (data : Buf) (s : σ) :
    ∃ s', bspReset_LT_RSTB_write LT_RSTB inst a data s = .ok (BSP_RVAL_OK, s') ∧
      LT_RSTB.read s' = blend a.attributeSpecific (lineValue data) (LT_RSTB.read s) := by
  refine ⟨_, rfl, ?_⟩
  rw [LT_RSTB.read_write]
  unfold lineValue
  split
  · exact clear_eq _ _
  · exact or_eq _ _

variable {LT_RSTB} {ι : Type} [DecidableEq ι] {attr : ι → AttributeData}

omit [DecidableEq ι] in
variable (LT_RSTB attr) in
/-- The register behind some writes. -/
theorem reset_writes (inst : U32) (ws : List (ι × Buf)) (s : σ) :
    ∃ s', methodWrites (fun _ => bspReset_LT_RSTB_write LT_RSTB) attr inst ws s =
        .ok (List.replicate ws.length BSP_RVAL_OK, s') ∧
      LT_RSTB.read s' =
        blends (fun i => (attr i).attributeSpecific) (ws.map fun p => (p.1, lineValue p.2)) (LT_RSTB.read s) := by
  obtain ⟨s', hrun, hreg⟩ := methodWrites_eq LT_RSTB
    (fun i data => blend (attr i).attributeSpecific (lineValue data))
    (fun i data s => reset_write LT_RSTB inst (attr i) data s) ws s
  refine ⟨s', hrun, ?_⟩
  rw [hreg, blends, List.foldl_map]

theorem lineState_eq {reg reg' mask : U32} (hne : mask ≠ 0) (data : Option Buf)
    (h : reg' &&& mask = ((data.map lineValue).getD reg) &&& mask) :
    (if reg' &&& mask ≠ 0 then (1 : U8) else 0) = lineState reg mask data := by
  rw [h]
  cases data with
  | none => rfl
  | some data =>
    by_cases h0 : data 0 = 0#8
    · simp [lineState, lineValue, h0]
    · have hval : lineValue data = BitVec.allOnes 32 := if_neg h0
      have hall : lineValue data &&& mask = mask := by rw [hval, BitVec.allOnes_and]
      have hne' : ¬ mask = 0#32 := hne
      simp [lineState, hall, h0, hne']

omit [DecidableEq ι] in
/-- A read of a line, by what is under its mask. -/
theorem reset_reads {a : AttributeData} (hne : a.attributeSpecific ≠ 0) (reg : U32) (data : Option Buf) {s : σ}
    (h : LT_RSTB.read s &&& a.attributeSpecific = ((data.map lineValue).getD reg) &&& a.attributeSpecific) (inst : U32)
    (pReadData : Buf) :
    bspReset_LT_RSTB_read LT_RSTB inst a pReadData s =
      .ok (BSP_RVAL_OK, pReadData.store [lineState reg a.attributeSpecific data], s) := by
  unfold bspReset_LT_RSTB_read
  dsimp only
  rw [lineState_eq hne data h]

variable (LT_RSTB attr) in
/-- The lines are a store: a line reads as it was last written, or as it was before; what
    none of the masks has is kept; and the order of writes to different lines does not
    matter. -/
theorem resetLines_store (hne : ∀ i, (attr i).attributeSpecific ≠ 0)
    (hapart : ∀ i j, i ≠ j → (attr i).attributeSpecific &&& (attr j).attributeSpecific = 0)
    (inst : U32) (ws : List (ι × Buf)) (s : σ) :
    ∃ s', methodWrites (fun _ => bspReset_LT_RSTB_write LT_RSTB) attr inst ws s =
        .ok (List.replicate ws.length BSP_RVAL_OK, s') ∧
      (∀ i pReadData, bspReset_LT_RSTB_read LT_RSTB inst (attr i) pReadData s' =
        .ok (BSP_RVAL_OK, pReadData.store [lineState (LT_RSTB.read s) (attr i).attributeSpecific (lastTo i ws)], s')) ∧
      (∀ k, (∀ p ∈ ws, (attr p.1).attributeSpecific &&& k = 0) → LT_RSTB.read s' &&& k = LT_RSTB.read s &&& k) ∧
      ∀ ws', (∀ i, (ws'.filter fun p => p.1 = i) = ws.filter fun p => p.1 = i) →
        ∃ s'', methodWrites (fun _ => bspReset_LT_RSTB_write LT_RSTB) attr inst ws' s =
            .ok (List.replicate ws'.length BSP_RVAL_OK, s'') ∧
          LT_RSTB.read s'' = LT_RSTB.read s' := by
  obtain ⟨s', hrun, hreg⟩ := reset_writes LT_RSTB attr inst ws s
  refine ⟨s', hrun, fun i pReadData => ?_, fun k hk => ?_, fun ws' hws' => ?_⟩
  · refine reset_reads (hne i) _ (lastTo i ws) ?_ inst pReadData
    rw [hreg, blends_and hapart, lastTo_map]
  · rw [hreg]
    refine blends_and_apart _ (fun q hq => ?_) _
    obtain ⟨p, hp, rfl⟩ := List.mem_map.mp hq
    exact hk p hp
  · obtain ⟨s'', hrun', hreg'⟩ := reset_writes LT_RSTB attr inst ws' s
    refine ⟨s'', hrun', ?_⟩
    rw [hreg, hreg']
    refine blends_eq hapart (fun i => ?_) _
    have hlast : lastTo i ws' = lastTo i ws := by
      unfold lastTo
      rw [hws' i]
    rw [lastTo_map, lastTo_map, hlast]

end Reset

/-- Two lines of four bits, and a write to each in both orders. -/
def fourLines : Bool → AttributeData := fun i =>
  { pName := some (cstr "RSTB"), attributeSpecific := if i then 0xF0 else 0x0F }

theorem fourLines_store : ∃ s', methodWrites (fun _ => bspReset_LT_RSTB_write wordReg) fourLines 0
    [(true, fun _ => 1), (false, fun _ => 0)] 0xFF = .ok ([BSP_RVAL_OK, BSP_RVAL_OK], s') ∧ s' &&& 0x100 = 0 := by
  obtain ⟨s', hrun, -, hkept, -⟩ := resetLines_store wordReg fourLines (by decide) (by decide) 0
    [(true, fun _ => 1), (false, fun _ => 0)] 0xFF
  exact ⟨s', hrun, hkept 0x100 (by decide)⟩

end Iosu.Entities
