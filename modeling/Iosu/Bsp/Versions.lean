/-
  Iosu.Bsp.Versions — what the two detectors find.

  `InitASICVersion` (`bsp_main.c`) and `bspMethodGetHardwareVersion` read the same two
  chip registers: VERLO of HW_CHIPREVID gives the family and revision of a Wood
  (`woodRevision`), and where that is a Bollywood for Wii, LT_CHIPREVID those of a Latte
  (`latteChip`). The second also asks BSPCheckCortado and the board configuration, for
  what lies in the lower 16 bits. The lemmas say, for each, what a run finds and what it
  leaves alone.
-/

import Iosu.Bsp.Validity

namespace Iosu.Bsp

open Iosu.Lib Iosu.Entity Iosu.Ios Iosu.Eeprom

variable {ε : Type}

/-! ## `bsp_hwrevs.h` -/

def BSP_IS_LATTE (hwver : U32) : Bool := hwver &&& 0x0F000000 ≠ 0

def BSP_IS_BOLLYWOOD (hwver : U32) : Bool := hwver >>> 24 = 0x20

def BSP_IS_HOLLYWOOD (hwver : U32) : Bool := hwver >>> 24 = 0x10

def BSP_IS_HOLLYWOOD_ES1 (hwver : U32) : Bool := hwver >>> 24 = 0x00

def BSP_GET_VARIANT (hwver : U32) : U32 := hwver &&& 0xFFFF

/-- The versions that `determineWoodBasedHardwareVersion` gives. -/
def woodVersions : List U32 :=
  [BSP_HARDWARE_VERSION_HOLLYWOOD_ENG_SAMPLE_1, BSP_HARDWARE_VERSION_HOLLYWOOD_ENG_SAMPLE_2,
    BSP_HARDWARE_VERSION_HOLLYWOOD_CORTADO, BSP_HARDWARE_VERSION_HOLLYWOOD_PROD_FOR_WII,
    BSP_HARDWARE_VERSION_HOLLYWOOD_CORTADO_ESPRESSO, BSP_HARDWARE_VERSION_BOLLYWOOD,
    BSP_HARDWARE_VERSION_BOLLYWOOD_PROD_FOR_WII]

/-- The upper 16 bits of a Wood's version, by VERLO. -/
def woodRevision (verlo : U32) : Option U32 :=
  if verlo = 0x00 then some 0x0000
  else if verlo = 0x10 then some 0x1000
  else if verlo = 0x11 then some 0x1010
  else if verlo = 0x20 then some 0x2000
  else if verlo = 0x21 then some 0x2010
  else none

/-! ## `bsp_main.c` -/

section Detectors

variable (x : Ext ε)

/-- The answer and `*version`; the one caller passes `&bspHardwareVersion`. -/
def InitASICVersion : BspM ε (BspRval × U32) := do
  let cached := (← get).bspHardwareVersion
  if cached ≠ 0 then return (0, cached)
  let (ret, version) ← determineWoodBasedHardwareVersion x false
  if ret ≠ 0 then return (ret, version)
  if version = BSP_HARDWARE_VERSION_BOLLYWOOD_PROD_FOR_WII then
    let (ret, latte) ← determineLatteBasedHardwareVersion x version
    if ret = 0 then return (0, (latte &&& 0xFFFF0000) ||| 0x11)
    return (0, latte)
  return (0, version)

/-- VERLO of HW_CHIPREVID. -/
def verlo (env : ε) : U32 := x.hwChiprevid env &&& 0xFF

/-- LT_CHIPREVID is a Latte's. -/
def latteChip (env : ε) : Prop := x.ltChiprevid env &&& 0xFFFF0000 = 0xCAFE0000

instance (env : ε) : Decidable (latteChip x env) := instDecidableEqBitVec _ _

/-- The registers show a Latte. -/
def latteDetected (env : ε) : Prop := verlo x env = 0x21 ∧ latteChip x env

/-- Family and revision of a Latte. -/
def latteVersion (env : ε) : U32 := latteRevision (x.ltChiprevid env &&& 0xFF)

end Detectors

/-! ## The Wood detector -/

section Detection

variable {x : Ext ε}

/-- Nothing is changed but the world and `pvr`. -/
def OnlyDetects (b b' : Process ε) : Prop := ∃ pvr env, b' = { b with pvr := pvr, drv := { b.drv with env := env } }

theorem OnlyDetects.refl (b : Process ε) : OnlyDetects b b := ⟨b.pvr, b.drv.env, rfl⟩

theorem OnlyDetects.wire {b b' : Process ε} (h : OnlyDetects b b') : b'.drv.wire = b.drv.wire := by
  obtain ⟨pvr, env, rfl⟩ := h
  rfl

/-- `determineWoodBasedHardwareVersion` behind its register read. -/
theorem wood_eq (fullCheck : Bool) (b : Process ε) :
    determineWoodBasedHardwareVersion x fullCheck b =
      (if verlo x b.drv.env = 0x00 then return (BSP_RVAL_OK, BSP_HARDWARE_VERSION_HOLLYWOOD_ENG_SAMPLE_1)
      else if verlo x b.drv.env = 0x10 then return (BSP_RVAL_OK, BSP_HARDWARE_VERSION_HOLLYWOOD_ENG_SAMPLE_2)
      else if verlo x b.drv.env = 0x11 then
        if fullCheck = false then return (BSP_RVAL_OK, BSP_HARDWARE_VERSION_HOLLYWOOD_CORTADO)
        else do
          let (ret, isCortado) ← callExt fun env =>
            let (ret, isCortado, env) := x.bspCheckCortado env
            ((ret, isCortado), env)
          if ret ≠ 0 then return (BSP_RVAL_OK, BSP_HARDWARE_VERSION_HOLLYWOOD_CORTADO)
          if isCortado = 0 then return (BSP_RVAL_OK, BSP_HARDWARE_VERSION_HOLLYWOOD_PROD_FOR_WII)
          let (_, pvr) ← bspPPCGetPVR x (← get).pvr
          modify fun b => { b with pvr := pvr }
          if pvr.version = 0x7001 then return (BSP_RVAL_OK, BSP_HARDWARE_VERSION_HOLLYWOOD_CORTADO_ESPRESSO)
          return (BSP_RVAL_OK, BSP_HARDWARE_VERSION_HOLLYWOOD_CORTADO)
      else if verlo x b.drv.env = 0x20 then return (BSP_RVAL_OK, BSP_HARDWARE_VERSION_BOLLYWOOD)
      else if verlo x b.drv.env = 0x21 then return (BSP_RVAL_OK, BSP_HARDWARE_VERSION_BOLLYWOOD_PROD_FOR_WII)
      else return (BSP_RVAL_UNKNOWN_HARDWARE_VERSION, BSP_HARDWARE_VERSION_UNKNOWN) : BspM ε (BspRval × U32)) b := rfl

theorem wood_unknown {b : Process ε} (h : woodRevision (verlo x b.drv.env) = none) (fullCheck : Bool) :
    determineWoodBasedHardwareVersion x fullCheck b =
      .ok ((BSP_RVAL_UNKNOWN_HARDWARE_VERSION, BSP_HARDWARE_VERSION_UNKNOWN), b) := by
  have hnone : verlo x b.drv.env ≠ 0x00 ∧ verlo x b.drv.env ≠ 0x10 ∧ verlo x b.drv.env ≠ 0x11 ∧
      verlo x b.drv.env ≠ 0x20 ∧ verlo x b.drv.env ≠ 0x21 := by
    refine ⟨?_, ?_, ?_, ?_, ?_⟩
    all_goals
      intro heq
      rw [heq] at h
      cases h
  obtain ⟨h00, h10, h11, h20, h21⟩ := hnone
  rw [wood_eq, if_neg h00, if_neg h10, if_neg h11, if_neg h20, if_neg h21]
  rfl

theorem wood_bollywood {b : Process ε} (h : verlo x b.drv.env = 0x21) (fullCheck : Bool) :
    determineWoodBasedHardwareVersion x fullCheck b = .ok ((BSP_RVAL_OK, BSP_HARDWARE_VERSION_BOLLYWOOD_PROD_FOR_WII), b) := by
  rw [wood_eq, h]
  rfl

/-- `bspPPCGetPVR` changes nothing but the world. -/
theorem getPVR_onlyDetects (pvr : BspPpcPvr) (b : Process ε) :
    ∃ ret pvr' b', bspPPCGetPVR x pvr b = .ok ((ret, pvr'), b') ∧ OnlyDetects b b' := by
  unfold bspPPCGetPVR
  show ∃ ret pvr' b', (ite _ _ _ : BspM ε (BspRval × BspPpcPvr)) _ = _ ∧ _
  split
  · exact ⟨_, _, _, rfl, _, _, rfl⟩
  · show ∃ ret pvr' b', (ite _ _ _ : BspM ε (BspRval × BspPpcPvr)) _ = _ ∧ _
    split
    · exact ⟨_, _, _, rfl, _, _, rfl⟩
    · exact ⟨_, _, _, rfl, _, _, rfl⟩

/-- A known VERLO gives a version of its family and revision. -/
theorem wood_known {b : Process ε} {upper : U32} (h : woodRevision (verlo x b.drv.env) = some upper) (fullCheck : Bool) :
    ∃ version b', determineWoodBasedHardwareVersion x fullCheck b = .ok ((BSP_RVAL_OK, version), b') ∧
      version ∈ woodVersions ∧ version >>> 16 = upper ∧ OnlyDetects b b' := by
  unfold woodRevision at h
  rw [wood_eq]
  by_cases h00 : verlo x b.drv.env = 0x00
  · rw [if_pos h00] at h ⊢
    cases h
    exact ⟨_, b, rfl, by decide, by decide, OnlyDetects.refl b⟩
  rw [if_neg h00] at h ⊢
  by_cases h10 : verlo x b.drv.env = 0x10
  · rw [if_pos h10] at h ⊢
    cases h
    exact ⟨_, b, rfl, by decide, by decide, OnlyDetects.refl b⟩
  rw [if_neg h10] at h ⊢
  by_cases h11 : verlo x b.drv.env = 0x11
  · rw [if_pos h11] at h ⊢
    cases h
    split
    · exact ⟨_, b, rfl, by decide, by decide, OnlyDetects.refl b⟩
    show ∃ version b', (ite _ _ _ : BspM ε (BspRval × U32)) _ = _ ∧ _
    split
    · exact ⟨_, _, rfl, by decide, by decide, _, _, rfl⟩
    split
    · exact ⟨_, _, rfl, by decide, by decide, _, _, rfl⟩
    -- a Cortado: the PVR tells whether it has an Espresso
    obtain ⟨ret, pvr', b', hpvr, pvr, env, rfl⟩ := getPVR_onlyDetects (x := x) b.pvr
      { b with drv := { b.drv with env := (x.bspCheckCortado b.drv.env).2.2 } }
    rw [bspM_bind_ok (bspM_get _), bspM_bind_ok hpvr]
    show ∃ version b', (ite (pvr'.version = 0x7001) _ _ : BspM ε (BspRval × U32)) _ = _ ∧ _
    split
    · exact ⟨_, _, rfl, by decide, by decide, _, _, rfl⟩
    · exact ⟨_, _, rfl, by decide, by decide, _, _, rfl⟩
  rw [if_neg h11] at h ⊢
  by_cases h20 : verlo x b.drv.env = 0x20
  · rw [if_pos h20] at h ⊢
    cases h
    exact ⟨_, b, rfl, by decide, by decide, OnlyDetects.refl b⟩
  rw [if_neg h20] at h ⊢
  by_cases h21 : verlo x b.drv.env = 0x21
  · rw [if_pos h21] at h ⊢
    cases h
    exact ⟨_, b, rfl, by decide, by decide, OnlyDetects.refl b⟩
  rw [if_neg h21] at h
  cases h

theorem woodRevision_bollywood {verlo : U32} : woodRevision verlo = some 0x2010 ↔ verlo = 0x21 := by
  refine ⟨?_, fun h => by rw [h]; rfl⟩
  unfold woodRevision
  intro h
  split at h
  · exact absurd h (by decide)
  split at h
  · exact absurd h (by decide)
  split at h
  · exact absurd h (by decide)
  split at h
  · exact absurd h (by decide)
  split at h
  · rename_i h21
    exact h21
  · cases h

/-! ## The Latte detector -/

theorem latte_none {b : Process ε} (h : ¬ latteChip x b.drv.env) (version : U32) :
    determineLatteBasedHardwareVersion x version b = .ok ((BSP_RVAL_UNKNOWN_HARDWARE_VERSION, version), b) := by
  unfold determineLatteBasedHardwareVersion
  have hchip : x.ltChiprevid b.drv.env &&& 0xFFFF0000 ≠ 0xCAFE0000 := h
  show (ite (x.ltChiprevid b.drv.env &&& 0xFFFF0000 ≠ 0xCAFE0000) _ _ : BspM ε (BspRval × U32)) b = _
  rw [if_pos hchip]
  rfl

theorem latte_found {b : Process ε} (h : latteChip x b.drv.env) (version : U32) :
    determineLatteBasedHardwareVersion x version b =
      .ok ((BSP_RVAL_OK, (version &&& 0x000FFFFF) ||| latteVersion x b.drv.env), b) := by
  unfold determineLatteBasedHardwareVersion
  have hchip : ¬ x.ltChiprevid b.drv.env &&& 0xFFFF0000 ≠ 0xCAFE0000 := not_not.mpr h
  show (ite (x.ltChiprevid b.drv.env &&& 0xFFFF0000 ≠ 0xCAFE0000) _ _ : BspM ε (BspRval × U32)) b = _
  rw [if_neg hchip]
  rfl

/-- The families and revisions of the Lattes. -/
def latteVersions : List U32 := [0x21100000, 0x21200000, 0x22100000, 0x23100000, 0x24100000, 0x25100000, 0x26100000]

theorem latteRevision_mem (verlo : U32) : latteRevision verlo ∈ latteVersions := by
  unfold latteRevision latteVersions
  split
  · simp
  split
  · simp
  split
  · simp
  split
  · simp
  split
  · simp
  split
  · simp
  · simp

/-- What holds of each family and revision holds of the Latte's. -/
theorem latteVersion_cases (P : U32 → Prop) (h : ∀ v, v = 0x21100000 ∨ v = 0x21200000 ∨ v = 0x22100000 ∨ v = 0x23100000 ∨
    v = 0x24100000 ∨ v = 0x25100000 ∨ v = 0x26100000 → P v) (env : ε) : P (latteVersion x env) := by
  have hmem := latteRevision_mem (x.ltChiprevid env &&& 0xFF)
  simp only [latteVersions, List.mem_cons, List.not_mem_nil, or_false] at hmem
  exact h _ hmem

/-- The family and revision are all that is left of a version that starts from a
    Bollywood's. -/
theorem latteVersion_masked (env : ε) :
    ((BSP_HARDWARE_VERSION_BOLLYWOOD_PROD_FOR_WII &&& 0x000FFFFF) ||| latteVersion x env) &&& 0xFFFF0000 =
      latteVersion x env := by
  refine latteVersion_cases (fun v => ((BSP_HARDWARE_VERSION_BOLLYWOOD_PROD_FOR_WII &&& 0x000FFFFF) ||| v) &&& 0xFFFF0000 = v)
    ?_ env
  intro v hv
  rcases hv with rfl | rfl | rfl | rfl | rfl | rfl | rfl
  all_goals rfl

end Detection

end Iosu.Bsp
