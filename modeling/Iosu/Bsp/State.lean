/-
  Iosu.Bsp.State — the process's variables, and what lies outside its source.

  `Process` holds the static variables that the functions of this development read and
  write. `Ext` is what they call or read without its being part of the source: the
  GPIO entity, the chip registers, the kernel's semaphores, `BSPCheckCortado` and
  `bspEepromRead`. These act on the world `ε` alone.
-/

import Iosu.Eeprom.Driver
import Iosu.Libraries.Crc32

namespace Iosu.Bsp

open Iosu.Lib Iosu.Libc Iosu.Entity Iosu.Ios Iosu.Eeprom Iosu.Libraries

/-! ## Records -/

/-- `BC_CONFIG`, in the order of its fields. -/
structure BcConfig where
  crc : U32
  size : U16
  version : U16
  author : U16
  boardType : U16
  boardRevision : U16
  bootSource : U16
  ddr3Size : U16
  ddr3Speed : U16
  ppcClockMultiplier : U16
  iopClockMultiplier : U16
  video1080p : U16
  ddr3Vendor : U16
  movPassiveReset : U16
  sysPllSpeed : U16
  sataDevice : U16
  consoleType : U16
  devicePresence : U32
  deriving DecidableEq, Repr

def BcConfig.zero : BcConfig := ⟨0, 0, 0, 0, 0, 0, 0, 0, 0, 0, 0, 0, 0, 0, 0, 0, 0, 0⟩

/-- The structure as the first 0x28 bytes of an array of big-endian halfwords. -/
def BcConfig.ofWords (data : Vector U16 0x24) : BcConfig where
  crc := data[0] ++ data[1]
  size := data[2]
  version := data[3]
  author := data[4]
  boardType := data[5]
  boardRevision := data[6]
  bootSource := data[7]
  ddr3Size := data[8]
  ddr3Speed := data[9]
  ppcClockMultiplier := data[10]
  iopClockMultiplier := data[11]
  video1080p := data[12]
  ddr3Vendor := data[13]
  movPassiveReset := data[14]
  sysPllSpeed := data[15]
  sataDevice := data[16]
  consoleType := data[17]
  devicePresence := data[18] ++ data[19]

structure BspPpcPvr where
  version : U16
  revision : U16
  deriving DecidableEq, Repr

/-- `log_fd`. -/
structure LogFd where
  name : CStr
  unk1 : U32
  active : Bool
  unk2 : U32
  deriving DecidableEq, Repr

structure LogState where
  log_mutex : U32
  log_fds : Vector LogFd 0x20
  active_log_fds : U32
  deriving DecidableEq, Repr

/-! ## The process and its surroundings -/

structure Ext (ε : Type) where
  gpio : Gpio ε
  /-- The contents of HW_CHIPREVID and LT_CHIPREVID. -/
  hwChiprevid : ε → U32
  ltChiprevid : ε → U32
  /-- The answer and `*isCortado`. -/
  bspCheckCortado : ε → U32 × U32 × ε
  /-- One word: its address, what its buffer holds before the call; the answer, and
      what it holds after. -/
  bspEepromRead : U16 → U16 → ε → IosError × U16 × ε
  iosCreateSemaphore : ε → U32 × ε
  iosWaitSemaphore : U32 → ε → IosError × ε
  iosSignalSemaphore : U32 → ε → ε

structure Process (ε : Type) where
  /-- `eepromContexts`, and the world. -/
  drv : Drv ε
  bspHardwareVersion : U32
  bspBoardConfig : BcConfig
  pvr : BspPpcPvr
  eePVRAddr : U16
  bc_log_handle : U32
  bc_initialised : Bool
  s_crc32Value : U32
  log : LogState

abbrev BspM (ε : Type) := StateT (Process ε) (Res Fault)

variable {ε : Type}

/-- A function of the EEPROM driver, called from the process. -/
def callDrv {α : Type} (f : Drv ε → Res Fault (α × Drv ε)) : BspM ε α := fun b => do
  let (x, drv) ← f b.drv
  .ok (x, { b with drv := drv })

/-- A function outside the source, called from the process. -/
def callExt {α : Type} (f : ε → α × ε) : BspM ε α := fun b =>
  let (x, env) := f b.drv.env
  .ok (x, { b with drv := { b.drv with env := env } })

/-- A register read. -/
def readReg (reg : ε → U32) : BspM ε U32 := fun b => .ok (reg b.drv.env, b)

/-- The code ends in a fault. -/
def raise {α : Type} (f : Fault) : BspM ε α := fun _ => .fault f

/-! ## Running -/

theorem bspM_bind {α β : Type} (m : BspM ε α) (k : α → BspM ε β) (b : Process ε) :
    (m >>= k) b = m b >>= fun p => k p.1 p.2 := rfl

theorem bspM_bind_ok {α β : Type} {m : BspM ε α} {a : α} {b b' : Process ε} (h : m b = .ok (a, b')) (k : α → BspM ε β) :
    (m >>= k) b = k a b' := by
  rw [bspM_bind, h]
  rfl

theorem bspM_get (b : Process ε) : (get : BspM ε (Process ε)) b = .ok (b, b) := rfl

theorem bspM_callExt {α : Type} (f : ε → α × ε) (b : Process ε) :
    callExt f b = .ok ((f b.drv.env).1, { b with drv := { b.drv with env := (f b.drv.env).2 } }) := rfl

/-- A call of the driver on eeprom 0. -/
theorem callDrv_zero {α : Type} (refused : α) (m : DrvM ε α) (b : Process ε) :
    callDrv (onEeprom 0 refused m) b = .ok ((m b.drv).1, { b with drv := (m b.drv).2 }) := rfl

section Calls

variable (g : Gpio ε) (b : Process ε)

theorem call_readWord (addr : U8) : callDrv (eepromDrvReadWord g 0 addr) b =
    .ok ((readWord g addr b.drv).1, { b with drv := (readWord g addr b.drv).2 }) := callDrv_zero _ _ b

theorem call_writeWord (addr : U8) (data : U16) : callDrv (eepromDrvWriteWord g 0 addr data) b =
    .ok ((writeWord g addr data b.drv).1, { b with drv := (writeWord g addr data b.drv).2 }) := callDrv_zero _ _ b

theorem call_setWriteControl (control : U32) : callDrv (eepromDrvSetWriteControl g 0 control) b =
    .ok ((setWriteControl g control b.drv).1, { b with drv := (setWriteControl g control b.drv).2 }) := callDrv_zero _ _ b

theorem call_init : callDrv (eepromDrvInit g 0) b = .ok ((init g b.drv).1, { b with drv := (init g b.drv).2 }) :=
  callDrv_zero _ _ b

theorem call_open : callDrv (eepromDrvOpen g 0) b = .ok ((openCtx g b.drv).1, { b with drv := (openCtx g b.drv).2 }) :=
  callDrv_zero _ _ b

theorem call_shutdown : callDrv (eepromDrvShutdown g 0) b =
    .ok ((shutdown g b.drv).1, { b with drv := (shutdown g b.drv).2 }) := callDrv_zero _ _ b

end Calls

/-! ## A process and surroundings to start from -/

/-- The process as its data segment has it. -/
def Process.start (env : ε) : Process ε where
  drv := { status := .uninitialised, env := env, wire := [] }
  bspHardwareVersion := 0
  bspBoardConfig := BcConfig.zero
  pvr := ⟨0, 0⟩
  eePVRAddr := 0x0042
  bc_log_handle := -1
  bc_initialised := false
  s_crc32Value := 0
  log := { log_mutex := -1, log_fds := Vector.replicate 0x20 ⟨[], 0, false, 0⟩, active_log_fds := 0 }

/-- With the driver opened. -/
def Process.opened (env : ε) : Process ε :=
  { Process.start env with drv := { status := .opened, env := env, wire := [] } }

/-- These pins and these chip registers, and a kernel that grants everything. -/
def Ext.quiet (g : Gpio ε) (hwChiprevid ltChiprevid : U32) : Ext ε where
  gpio := g
  hwChiprevid := fun _ => hwChiprevid
  ltChiprevid := fun _ => ltChiprevid
  bspCheckCortado := fun env => (0, 0, env)
  bspEepromRead := fun _ word env => (IOS_ERROR_OK, word, env)
  iosCreateSemaphore := fun env => (0, env)
  iosWaitSemaphore := fun _ env => (IOS_ERROR_OK, env)
  iosSignalSemaphore := fun _ env => env

end Iosu.Bsp
