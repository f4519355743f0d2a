/-
  Iosu.Bsp.Ee — the callbacks of the EE entity (`bsp_ee.c`).

  They are written on the process, whose `drv` is the driver's one context; the
  attribute they are given is not looked at. `pReadData` and `pWrittenData` are the bytes
  behind the pointer, in and out; those of `bc` are a board configuration's.
-/

import Iosu.Bsp.BoardConfig

namespace Iosu.Bsp

open Iosu.Lib Iosu.Libc Iosu.Entity Iosu.Ios Iosu.Eeprom Iosu.Libraries

variable {ε : Type} (x : Ext ε)

/-- `instance & 0xff`, as a `uint8_t`. -/
def eeAddress (inst : U32) : U8 := (inst &&& 0xff).setWidth 8

def bspEE_access_read (inst : U32) (pReadData : Buf) : BspM ε (BspRval × Buf) := do
  let (err, data) ← callDrv (eepromDrvReadWord x.gpio 0 (eeAddress inst))
  if err ≠ IOS_ERROR_OK then return (BSP_RVAL_DEVICE_ERROR, pReadData)
  return (BSP_RVAL_OK, pReadData.store (Buf.ofU16 (data.getD 0)))

def bspEE_access_write (inst : U32) (pWrittenData : Buf) : BspM ε BspRval := do
  let err ← callDrv (eepromDrvWriteWord x.gpio 0 (eeAddress inst) (pWrittenData.load16 0))
  if err ≠ IOS_ERROR_OK then return BSP_RVAL_DEVICE_ERROR
  return BSP_RVAL_OK

/-- The command of `bspEE_control_write`, in the driver's numbering. -/
def controlCommand (cmd_in : U32) : Option U32 :=
  if cmd_in = 1 then some EEPROM_WRITE_ENABLE
  else if cmd_in = 2 then some EEPROM_WRITE_DISABLE
  else none

def bspEE_control_write (_inst : U32) (pWrittenData : Buf) : BspM ε BspRval :=
  match controlCommand (pWrittenData.load32 0) with
  | none => return BSP_RVAL_INVALID_PARAMETER
  | some cmd => do
    let err ← callDrv (eepromDrvSetWriteControl x.gpio 0 cmd)
    if err ≠ IOS_ERROR_OK then return BSP_RVAL_DEVICE_ERROR
    return BSP_RVAL_OK

def bspEE_control_init (_inst : U32) : BspM ε BspRval := do
  let err ← callDrv (eepromDrvInit x.gpio 0)
  if err ≠ IOS_ERROR_OK then return BSP_RVAL_DEVICE_ERROR
  let err ← callDrv (eepromDrvOpen x.gpio 0)
  if err ≠ IOS_ERROR_OK then return BSP_RVAL_DEVICE_ERROR
  let err ← callDrv (eepromDrvSetWriteControl x.gpio 0 EEPROM_WRITE_DISABLE)
  if err ≠ IOS_ERROR_OK then return BSP_RVAL_DEVICE_ERROR
  return BSP_RVAL_OK

def bspEE_control_shutdown (_inst : U32) : BspM ε BspRval := do
  let err ← callDrv (eepromDrvShutdown x.gpio 0)
  if err ≠ IOS_ERROR_OK then return BSP_RVAL_DEVICE_ERROR
  return BSP_RVAL_OK

/-- `pReadData` is taken for a `BC_CONFIG*`. -/
def bspEE_bc_read (_inst : U32) (pReadData : BcConfig) : BspM ε (BspRval × BcConfig) := do
  let (err, bc) ← bcGet x pReadData
  if err ≠ IOS_ERROR_OK then return (BSP_RVAL_CFG_CORRUPTED, bc)
  return (BSP_RVAL_OK, bc)

end Iosu.Bsp
