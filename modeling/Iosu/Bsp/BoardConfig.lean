/-
  Iosu.Bsp.BoardConfig — `log_open` (`log.c`), `bcInit` and `bcGet` (`bc.c`),
  `bspReadBoardConfig` (`bsp_hwrev.c`).

  `bcGet` reads the SEEPROM's words from 0x1c on into an array of 0x24 halfwords, as
  many as the size word at 0x1e says, and checks a CRC over bytes behind the first
  four. The span it asks the CRC for can lie outside the array; that is a fault.
-/

import Iosu.Bsp.State

namespace Iosu.Bsp

open Iosu.Lib Iosu.Libc Iosu.Entity Iosu.Ios Iosu.Eeprom Iosu.Libraries

variable {ε : Type} (x : Ext ε)

/-! ## `log_open` -/

/-- The `for` over `log_fds`, at slot `i`: the slot to use, and whether it is already
    the log's. -/
def findLog (name : CStr) : List LogFd → Nat → Option Nat → Option Nat × Bool
  | [], _, ndx => (ndx, false)
  | fd :: fds, i, ndx =>
    if fd.active = false then findLog name fds (i + 1) (ndx.or (some i))
    else if strncmp fd.name name 16 = 0 then (some i, true)
    else findLog name fds (i + 1) ndx

def log_open (name : CStr) (unk1 unk2 : U32) : BspM ε U32 := do
  if (← get).log.log_mutex.toInt < 0 then
    let mutex ← callExt x.iosCreateSemaphore
    modify fun b => { b with log := { b.log with log_mutex := mutex } }
  let mutex := (← get).log.log_mutex
  if mutex.toInt < 0 then return -1
  let err ← callExt (x.iosWaitSemaphore mutex)
  if err ≠ IOS_ERROR_OK then return -1
  let signal := callExt fun env => ((), x.iosSignalSemaphore mutex env)
  match findLog name (← get).log.log_fds.toList 0 none with
  | (none, _) =>
    signal
    return -1
  | (some ndx, found) =>
    if h : ndx < 0x20 then
      modify fun b =>
        let fd := { b.log.log_fds[ndx] with unk1 := unk1, unk2 := unk2 }
        { b with log := { b.log with
            log_fds := b.log.log_fds.set ndx (if found then fd else { fd with active := true })
            active_log_fds := if found then b.log.active_log_fds else b.log.active_log_fds + 1 } }
      signal
      return BitVec.ofNat 32 ndx
    else raise .frameIndex

/-! ## `bcInit` and `bcGet` -/

def bcInit : BspM ε IosError := do
  let handle ← log_open x (cstr "BC") 0 1
  modify fun b => { b with bc_log_handle := handle }
  if (← get).bc_initialised then return IOS_ERROR_OK
  let err ← callDrv (eepromDrvInit x.gpio 0)
  if err ≠ IOS_ERROR_OK then return err
  let err ← callDrv (eepromDrvOpen x.gpio 0)
  if err = IOS_ERROR_OK then modify fun b => { b with bc_initialised := true }
  return err

/-- The `for` of `bcGet`, with `n` words to go from `data[i]` on. -/
def readWords : Nat → Nat → Vector U16 0x24 → BspM ε (IosError × Vector U16 0x24)
  | 0, _, data => return (IOS_ERROR_OK, data)
  | n + 1, i, data => do
    if h : i < 0x24 then
      let (err, word) ← callDrv (eepromDrvReadWord x.gpio 0 (BitVec.ofNat 8 (i + 0x1c)))
      let data := data.set i (word.getD data[i])
      if err ≠ IOS_ERROR_OK then return (err, data)
      readWords n (i + 1) data
    else raise .frameIndex

/-- The bytes of the array. -/
def wordBytes (data : Vector U16 0x24) : List U8 :=
  data.toList.flatMap fun w => [w.extractLsb' 8 8, w.extractLsb' 0 8]

/-- `config` is what the pointer, which is not NULL, designates before and after. -/
def bcGet (config : BcConfig) : BspM ε (IosError × BcConfig) := do
  let (err, bcStructSize) ← callDrv (eepromDrvReadWord x.gpio 0 0x1E)
  if err ≠ IOS_ERROR_OK then return (err, config)
  let bcStructSize := (bcStructSize.getD 0).toNat / 2   -- size in 16-bit words
  if 0x24 < bcStructSize then return (IOS_ERROR_INVALID, config)
  let (err, data) ← readWords x bcStructSize 0 (Vector.replicate 0x24 0)
  if err ≠ IOS_ERROR_OK then return (err, config)
  let config := BcConfig.ofWords data
  let config := if config.version = 0 then { config with ddr3Vendor := 0x5521 } else config
  -- the byte count of `&data[2]` is taken as a `size_t`
  let size := (BitVec.ofNat 32 (bcStructSize * 2) - 2).toNat
  if 0x48 < 4 + size then raise .frameIndex
  let (crc, value) := crc32Input crc32Reset (((wordBytes data).drop 4).take size)
  modify fun b => { b with s_crc32Value := value }
  if crc ≠ data.get 0 ++ data.get 1 then return (IOS_ERROR_INVALID, config)
  return (IOS_ERROR_OK, config)

/-! ## `bspReadBoardConfig` -/

def bspReadBoardConfig (config : BcConfig) : BspM ε (BspRval × BcConfig) := do
  let err ← bcInit x
  if err ≠ IOS_ERROR_OK then return (BSP_RVAL_DEVICE_ERROR, BcConfig.zero)
  let (err, config) ← bcGet x config
  if err ≠ IOS_ERROR_OK then return (BSP_RVAL_BOARD_CONFIG_INVALID, BcConfig.zero)
  return (BSP_RVAL_OK, config)

end Iosu.Bsp
