/-
  Iosu.Bsp.HwRev — the hardware version and the console queries (`bsp_hwrev.c`).

  A function that fills in `*version` gives back its last value with the answer; it is
  written on every path. A call that passes `&bspHardwareVersion` stores it there.
  `console_queries_agree` has the console queries side by side.
-/

import Iosu.Bsp.BoardConfig

namespace Iosu.Bsp

open Iosu.Lib Iosu.Libc Iosu.Entity Iosu.Ios Iosu.Eeprom Iosu.Libraries

variable {ε : Type} (x : Ext ε)

/-! ## `bsp_hwrevs.h` -/

def BSP_HARDWARE_VERSION_BOLLYWOOD : U32 := 0x20000001
def BSP_HARDWARE_VERSION_BOLLYWOOD_PROD_FOR_WII : U32 := 0x20100001
def BSP_HARDWARE_VERSION_HOLLYWOOD_CORTADO : U32 := 0x10100008
def BSP_HARDWARE_VERSION_HOLLYWOOD_CORTADO_ESPRESSO : U32 := 0x1010000C
def BSP_HARDWARE_VERSION_HOLLYWOOD_ENG_SAMPLE_1 : U32 := 0x00000001
def BSP_HARDWARE_VERSION_HOLLYWOOD_ENG_SAMPLE_2 : U32 := 0x10000001
def BSP_HARDWARE_VERSION_HOLLYWOOD_PROD_FOR_WII : U32 := 0x10100001
def BSP_HARDWARE_VERSION_UNKNOWN : U32 := 0

def BSP_VARIANT_EV : U32 := 0x0010
def BSP_VARIANT_EV_Y : U32 := 0x0011
def BSP_VARIANT_CAT : U32 := 0x0020
def BSP_VARIANT_ID : U32 := 0x0021
def BSP_VARIANT_CAFE : U32 := 0x0028
def BSP_VARIANT_IH : U32 := 0x0029

def BSP_CONSOLE_TYPE_CAFE : U32 := 2
def BSP_CONSOLE_TYPE_CAT : U32 := 3
def BSP_CONSOLE_TYPE_EV : U32 := 4

def BC_CONSOLE_TYPE_CAT_DEV : U16 := 3
def BC_CONSOLE_TYPE_EV : U16 := 4

/-! ## The hardware version -/

/-- `bspPPCGetPVR` (`bsp_ppc.c`), with `pvr` before and after. -/
def bspPPCGetPVR (pvr : BspPpcPvr) : BspM ε (BspRval × BspPpcPvr) := do
  let eePVRAddr := (← get).eePVRAddr
  let (ret, version) ← callExt fun env =>
    let (ret, word, env) := x.bspEepromRead eePVRAddr pvr.version env
    ((ret, word), env)
  let pvr := { pvr with version := version }
  if ret ≠ IOS_ERROR_OK then return (BSP_RVAL_DEVICE_ERROR, pvr)
  let (ret, revision) ← callExt fun env =>
    let (ret, word, env) := x.bspEepromRead (eePVRAddr + 1) pvr.revision env
    ((ret, word), env)
  let pvr := { pvr with revision := revision }
  if ret ≠ IOS_ERROR_OK then return (BSP_RVAL_DEVICE_ERROR, pvr)
  return (BSP_RVAL_OK, pvr)

def determineWoodBasedHardwareVersion (fullCheck : Bool) : BspM ε (BspRval × U32) := do
  let rev := (← readReg x.hwChiprevid) &&& 0xFF
  if rev = 0x00 then return (BSP_RVAL_OK, BSP_HARDWARE_VERSION_HOLLYWOOD_ENG_SAMPLE_1)
  else if rev = 0x10 then return (BSP_RVAL_OK, BSP_HARDWARE_VERSION_HOLLYWOOD_ENG_SAMPLE_2)
  else if rev = 0x11 then
    if fullCheck = false then return (BSP_RVAL_OK, BSP_HARDWARE_VERSION_HOLLYWOOD_CORTADO)
    let (ret, isCortado) ← callExt fun env =>
      let (ret, isCortado, env) := x.bspCheckCortado env
      ((ret, isCortado), env)
    if ret ≠ 0 then return (BSP_RVAL_OK, BSP_HARDWARE_VERSION_HOLLYWOOD_CORTADO)
    if isCortado = 0 then return (BSP_RVAL_OK, BSP_HARDWARE_VERSION_HOLLYWOOD_PROD_FOR_WII)
    let (_, pvr) ← bspPPCGetPVR x (← get).pvr
    modify fun b => { b with pvr := pvr }
    if pvr.version = 0x7001 then return (BSP_RVAL_OK, BSP_HARDWARE_VERSION_HOLLYWOOD_CORTADO_ESPRESSO)
    return (BSP_RVAL_OK, BSP_HARDWARE_VERSION_HOLLYWOOD_CORTADO)
  else if rev = 0x20 then return (BSP_RVAL_OK, BSP_HARDWARE_VERSION_BOLLYWOOD)
  else if rev = 0x21 then return (BSP_RVAL_OK, BSP_HARDWARE_VERSION_BOLLYWOOD_PROD_FOR_WII)
  else return (BSP_RVAL_UNKNOWN_HARDWARE_VERSION, BSP_HARDWARE_VERSION_UNKNOWN)

/-- The family and revision bits by VERLO. -/
def latteRevision (verlo : U32) : U32 :=
  if verlo = 0x10 then 0x21100000
  else if verlo = 0x18 then 0x21200000
  else if verlo = 0x21 then 0x22100000
  else if verlo = 0x30 then 0x23100000
  else if verlo = 0x40 then 0x24100000
  else if verlo = 0x50 then 0x25100000
  else 0x26100000

def determineLatteBasedHardwareVersion (version : U32) : BspM ε (BspRval × U32) := do
  let lt_chiprev ← readReg x.ltChiprevid
  if lt_chiprev &&& 0xFFFF0000 ≠ 0xCAFE0000 then return (BSP_RVAL_UNKNOWN_HARDWARE_VERSION, version)
  return (BSP_RVAL_OK, (version &&& 0x000FFFFF) ||| latteRevision (lt_chiprev &&& 0xFF))

/-- The variant bits by `boardType`; a type that is not listed adds none. -/
def boardVariant (boardType : U16) : U32 :=
  if boardType = 0x4346 then BSP_VARIANT_CAFE
  else if boardType = 0x4354 then BSP_VARIANT_CAT
  else if boardType = 0x4556 then BSP_VARIANT_EV
  else if boardType = 0x4944 then BSP_VARIANT_ID
  else if boardType = 0x4948 then BSP_VARIANT_IH
  else 0

def bspMethodGetHardwareVersion : BspM ε (BspRval × U32) := do
  let cached := (← get).bspHardwareVersion
  if cached ≠ 0 then return (BSP_RVAL_OK, cached)
  let (ret, version) ← determineWoodBasedHardwareVersion x true
  if ret ≠ BSP_RVAL_OK then return (ret, version)
  if version = BSP_HARDWARE_VERSION_BOLLYWOOD_PROD_FOR_WII then
    let (ret, version) ← determineLatteBasedHardwareVersion x version
    if ret ≠ BSP_RVAL_OK then
      modify fun b => { b with bspHardwareVersion := version }
      return (BSP_RVAL_OK, version)
    let version := version &&& 0xFFFF0000
    let (ret, config) ← bspReadBoardConfig x (← get).bspBoardConfig
    modify fun b => { b with bspBoardConfig := config }
    let version := if ret ≠ BSP_RVAL_OK then version ||| BSP_VARIANT_EV_Y else version ||| boardVariant config.boardType
    modify fun b => { b with bspHardwareVersion := version }
    return (BSP_RVAL_OK, version)
  modify fun b => { b with bspHardwareVersion := version }
  return (BSP_RVAL_OK, version)

/-! ## The console queries -/

/-- The answer and `*mask`. -/
def bspGetConsoleMask (config : BcConfig) : BspRval × U32 :=
  if config.size = 0 then (BSP_RVAL_BOARD_CONFIG_INVALID, -1)
  else if config.version < 4 then
    if config.boardType = 0x4354 ∨ config.boardType = 0x4556 then (BSP_RVAL_OK, 0x13000048)
    else (BSP_RVAL_OK, 0x03000050)
  else if config.consoleType = BC_CONSOLE_TYPE_CAT_DEV ∨ config.consoleType = BC_CONSOLE_TYPE_EV then
    (BSP_RVAL_OK, 0x13000048)
  else if config.consoleType = 6 then (BSP_RVAL_OK, 0x23000050)
  else (BSP_RVAL_OK, 0x03000050)

/-- The answer and `*consoleType`. -/
def bspGetConsoleType (config : BcConfig) : BspRval × U32 :=
  if config.size = 0 then (BSP_RVAL_BOARD_CONFIG_INVALID, -1)
  else if 3 < config.version then (BSP_RVAL_OK, config.consoleType.setWidth 32)
  else if config.boardType = 0x4354 then (BSP_RVAL_OK, BSP_CONSOLE_TYPE_CAT)
  else if config.boardType = 0x4556 then (BSP_RVAL_OK, BSP_CONSOLE_TYPE_EV)
  else if config.boardType = 0x4346 then (BSP_RVAL_OK, BSP_CONSOLE_TYPE_CAFE)
  else (BSP_RVAL_OK, -1)

/-- A console query answers that the configuration is missing, or BSP_RVAL_OK. -/
theorem bspGetConsoleType_ret (config : BcConfig) :
    (bspGetConsoleType config).1 = BSP_RVAL_BOARD_CONFIG_INVALID ∨ (bspGetConsoleType config).1 = BSP_RVAL_OK := by
  unfold bspGetConsoleType
  by_cases hsize : config.size = 0
  · rw [if_pos hsize]
    exact Or.inl rfl
  · rw [if_neg hsize]
    refine Or.inr ?_
    by_cases hversion : 3 < config.version
    · rw [if_pos hversion]
    · rw [if_neg hversion]
      split
      · rfl
      · split
        · rfl
        · split <;> rfl

/-- A devkit or an EV, by the console type that is reported. -/
def IsDevelopment (consoleType : U32) : Prop := consoleType = BSP_CONSOLE_TYPE_CAT ∨ consoleType = BSP_CONSOLE_TYPE_EV

instance (consoleType : U32) : Decidable (IsDevelopment consoleType) := inferInstanceAs (Decidable (_ ∨ _))

/-- The two queries answer alike, and the mask is the development one exactly for the
    types that are. -/
theorem console_queries_agree (config : BcConfig) :
    (bspGetConsoleMask config).1 = (bspGetConsoleType config).1 ∧
      ((bspGetConsoleMask config).1 = BSP_RVAL_OK →
        ((bspGetConsoleMask config).2 = 0x13000048 ↔ IsDevelopment (bspGetConsoleType config).2)) := by
  unfold bspGetConsoleMask bspGetConsoleType
  by_cases hsize : config.size = 0
  · rw [if_pos hsize, if_pos hsize]
    exact ⟨rfl, fun h => absurd h (by decide)⟩
  rw [if_neg hsize, if_neg hsize]
  by_cases hold : config.version < 4
  · have hnew : ¬ 3 < config.version := by bv_omega
    rw [if_pos hold, if_neg hnew]
    by_cases hct : config.boardType = 0x4354
    · rw [if_pos (Or.inl hct), if_pos hct]
      exact ⟨rfl, fun _ => ⟨fun _ => Or.inl rfl, fun _ => rfl⟩⟩
    by_cases hev : config.boardType = 0x4556
    · rw [if_pos (Or.inr hev), if_neg hct, if_pos hev]
      exact ⟨rfl, fun _ => ⟨fun _ => Or.inr rfl, fun _ => rfl⟩⟩
    have hno : ¬ (config.boardType = 0x4354 ∨ config.boardType = 0x4556) := fun h => h.elim hct hev
    rw [if_neg hno, if_neg hct, if_neg hev]
    split
    · exact ⟨rfl, fun _ => by decide⟩
    · exact ⟨rfl, fun _ => by decide⟩
  · have hnew : 3 < config.version := by bv_omega
    have hwide : ∀ v : U16, config.consoleType.setWidth 32 = v.setWidth 32 ↔ config.consoleType = v := by
      intro v
      refine ⟨fun h => ?_, fun h => by rw [h]⟩
      bv_omega
    have hdev : IsDevelopment (config.consoleType.setWidth 32) ↔
        config.consoleType = BC_CONSOLE_TYPE_CAT_DEV ∨ config.consoleType = BC_CONSOLE_TYPE_EV :=
      or_congr (hwide BC_CONSOLE_TYPE_CAT_DEV) (hwide BC_CONSOLE_TYPE_EV)
    rw [if_neg hold, if_pos hnew, hdev]
    by_cases htype : config.consoleType = BC_CONSOLE_TYPE_CAT_DEV ∨ config.consoleType = BC_CONSOLE_TYPE_EV
    · rw [if_pos htype]
      exact ⟨rfl, fun _ => ⟨fun _ => htype, fun _ => rfl⟩⟩
    · rw [if_neg htype]
      split
      · exact ⟨rfl, fun _ => ⟨fun h => absurd h (by decide), fun h => absurd h htype⟩⟩
      · exact ⟨rfl, fun _ => ⟨fun h => absurd h (by decide), fun h => absurd h htype⟩⟩

end Iosu.Bsp
