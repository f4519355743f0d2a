/-
  Iosu.Eeprom.Driver — the bit-banged SEEPROM driver (`eeprom.c`, `eeprom_bits.c`).

  The driver reaches the pins through the GPIO entity, which is not part of the
  source: `Gpio` is what a write of EEPROM_CS, EEPROM_SK or EEPROM_DO and a read of
  EEPROM_DI answer. What happens on the pins, the delays in between and the answers
  is kept in `wire`, in order. There is one eeprom; any other index is refused, or,
  when it is negative, out of the bounds of the table.
-/

import Iosu.Entity.Types
import Iosu.Ios.Api

namespace Iosu.Eeprom

open Iosu.Lib Iosu.Entity Iosu.Ios

variable {ε : Type}

/-! ## The pins -/

inductive Pin where
  | eepromCS
  | eepromSK
  | eepromDO
  deriving DecidableEq, Repr

/-- The GPIO entity, as `bspWriteInternal("GPIO", 0, .., 4, ..)` and
    `bspReadInternal("GPIO", 0, "EEPROM_DI", 4, ..)` show it. -/
structure Gpio (ε : Type) where
  write : Pin → U32 → ε → BspRval × ε
  readDI : ε → BspRval × U32 × ε

inductive WireEvent where
  | write (pin : Pin) (state : U32) (ret : BspRval)
  | readDI (ret : BspRval) (bit : U32)
  | udelay (usec : U32)
  deriving DecidableEq, Repr

/-- `EEPROM_STATUS`. -/
inductive EepromStatus where
  | uninitialised
  | initialised
  | opened
  | closed
  deriving DecidableEq, Repr

/-- `eepromContexts[0]`, and the world behind the pins. -/
structure Drv (ε : Type) where
  status : EepromStatus
  env : ε
  wire : List WireEvent

abbrev DrvM (ε : Type) := StateM (Drv ε)

def NUM_EEPROMS : Int := 1

section Bits

variable (g : Gpio ε)

/-! ## `eeprom_bits.c` -/

/-- `if (state) state = 1;` -/
def normalise (state : U32) : U32 := if state ≠ 0 then 1 else state

/-- The body of the three setters. -/
def eepromDrvSetPin (pin : Pin) (state : U32) : DrvM ε IosError := fun d =>
  let state := normalise state
  let (ret, env) := g.write pin state d.env
  (if ret ≠ BSP_RVAL_OK then IOS_ERROR_EXISTS else IOS_ERROR_OK,
    { d with env := env, wire := d.wire ++ [.write pin state ret] })

def eepromDrvSetSK (state : U32) : DrvM ε IosError := eepromDrvSetPin g .eepromSK state

def eepromDrvSetCS (state : U32) : DrvM ε IosError := eepromDrvSetPin g .eepromCS state

def eepromDrvSetDO (state : U32) : DrvM ε IosError := eepromDrvSetPin g .eepromDO state

def udelay (usec : U32) : DrvM ε Unit := fun d => ((), { d with wire := d.wire ++ [.udelay usec] })

def readDI : DrvM ε (BspRval × U32) := fun d =>
  let (ret, bit, env) := g.readDI d.env
  ((ret, bit), { d with env := env, wire := d.wire ++ [.readDI ret bit] })

def eepromDrvReadBit : DrvM ε U32 := do
  let _ ← eepromDrvSetSK g 0
  let _ ← eepromDrvSetCS g 1
  udelay 4
  let _ ← eepromDrvSetSK g 1
  udelay 4
  let (err, bit) ← readDI g
  if err ≠ BSP_RVAL_OK then return 0
  return normalise bit

/-- The `for` of `eepromDrvFinishCommand`. -/
def finishClocks : Nat → DrvM ε Unit
  | 0 => pure ()
  | clocks + 1 => do
    let _ ← eepromDrvSetSK g 0
    udelay 4
    let _ ← eepromDrvSetSK g 1
    udelay 4
    finishClocks clocks

def eepromDrvFinishCommand (clocks : Nat) : DrvM ε Unit := do
  let _ ← eepromDrvSetSK g 0
  let _ ← eepromDrvSetCS g 0
  let _ ← eepromDrvSetDO g 0
  finishClocks g clocks
  let _ ← eepromDrvSetSK g 0

/-- The `for` of `eepromDrvWaitForReady`: whether it timed out. -/
def pollReady : Nat → DrvM ε Bool
  | 0 => return true
  | n + 1 => do
    let bit ← eepromDrvReadBit g
    if bit ≠ 0 then return false
    pollReady n

def eepromDrvWaitForReady : DrvM ε IosError := do
  let _ ← eepromDrvSetDO g 0
  let timeout ← pollReady g 1000
  eepromDrvFinishCommand g 2
  if timeout then return IOS_ERROR_FAIL_INTERNAL
  return IOS_ERROR_OK

/-- The `for` of `eepromDrvSendBits`, with bit `i` the first to go out. -/
def sendBitsFrom (data : U32) : Nat → DrvM ε Unit
  | 0 => pure ()
  | i + 1 => do
    let _ ← eepromDrvSetSK g 0
    let _ ← eepromDrvSetCS g 1
    let _ ← eepromDrvSetDO g ((data >>> i) &&& 1)
    udelay 4
    let _ ← eepromDrvSetSK g 1
    udelay 4
    sendBitsFrom data i

def eepromDrvSendBits (size : Nat) (data : U32) : DrvM ε IosError := do
  if 32 < size then return IOS_ERROR_INVALID
  sendBitsFrom g data size
  return IOS_ERROR_OK

/-! ## `eeprom.c` -/

def EEPROM_WRITE_DISABLE : U32 := 1
def EEPROM_WRITE_ENABLE : U32 := 2
def EEPROM_WRITE_ERASE : U32 := 3

/-- The `for` of `eepromDrvReadWord`: the bits from `offset - 1` down, or-ed into
    `read`. -/
def readBitsFrom : Nat → U16 → DrvM ε U16
  | 0, read => return read
  | offset + 1, read => do
    let bit ← eepromDrvReadBit g
    readBitsFrom offset (read ||| ((normalise bit).setWidth 16 <<< offset))

/-- With the context open: the answer, and `*data` where it is written. -/
def readWord (addr : U8) : DrvM ε (IosError × Option U16) := do
  if (← get).status ≠ .opened then return (IOS_ERROR_NOTREADY, none)
  let cmd : U32 := 0x600 ||| addr.setWidth 32   -- READ
  let ret ← eepromDrvSendBits g 11 cmd
  if ret = IOS_ERROR_OK then
    let read ← readBitsFrom g 16 0
    eepromDrvFinishCommand g 2
    return (ret, some read)
  else
    eepromDrvFinishCommand g 2
    return (ret, none)

def writeWord (addr : U8) (data : U16) : DrvM ε IosError := do
  if (← get).status ≠ .opened then return IOS_ERROR_NOTREADY
  let cmd : U32 := 0x500 ||| addr.setWidth 32   -- WRITE
  let ret ← eepromDrvSendBits g 27 ((cmd <<< 16) ||| data.setWidth 32)
  eepromDrvFinishCommand g 2
  if ret ≠ IOS_ERROR_OK then return ret
  eepromDrvWaitForReady g

def setWriteControl (control : U32) : DrvM ε IosError := do
  if (← get).status ≠ .opened then return IOS_ERROR_NOTREADY
  if control = EEPROM_WRITE_ERASE then
    let ret ← eepromDrvSendBits g 11 0x480   -- ERAL
    eepromDrvFinishCommand g 2
    if ret ≠ IOS_ERROR_OK then return ret
    eepromDrvWaitForReady g
  else if control = EEPROM_WRITE_DISABLE then
    let ret ← eepromDrvSendBits g 11 0x400   -- EWDS
    eepromDrvFinishCommand g 2
    return ret
  else if control = EEPROM_WRITE_ENABLE then
    let ret ← eepromDrvSendBits g 11 0x4c0   -- EWEN
    eepromDrvFinishCommand g 2
    return ret
  else return IOS_ERROR_INVALID

def init : DrvM ε IosError := do
  modify fun d => { d with status := .uninitialised }
  let cs ← eepromDrvSetCS g 0
  let sk ← eepromDrvSetSK g 0
  let dout ← eepromDrvSetDO g 0
  let err := IOS_ERROR_OK ||| cs ||| sk ||| dout
  if err ≠ IOS_ERROR_OK then return err
  modify fun d => { d with status := .initialised }
  return IOS_ERROR_OK

def openCtx : DrvM ε IosError := do
  if (← get).status ≠ .closed ∧ (← get).status ≠ .initialised then return IOS_ERROR_NOTREADY
  let _ ← eepromDrvSetCS g 0
  let _ ← eepromDrvSetSK g 0
  let _ ← eepromDrvSetDO g 0
  modify fun d => { d with status := .opened }
  return IOS_ERROR_OK

def shutdown : DrvM ε IosError := do
  if (← get).status ≠ .opened then return IOS_ERROR_NOTREADY
  let _ ← eepromDrvSetCS g 0
  let _ ← eepromDrvSetSK g 0
  let _ ← eepromDrvSetDO g 0
  modify fun d => { d with status := .closed }
  return IOS_ERROR_OK

/-- `&eepromContexts[eeprom_ndx]`, behind the check of its upper bound. -/
def onEeprom {α : Type} (eeprom_ndx : Int) (refused : α) (m : DrvM ε α) (d : Drv ε) : Res Fault (α × Drv ε) :=
  if ¬ eeprom_ndx < NUM_EEPROMS then .ok (refused, d)
  else if eeprom_ndx = 0 then .ok (m d)
  else .fault .eepromIndex

def eepromDrvReadWord (eeprom_ndx : Int) (addr : U8) : Drv ε → Res Fault ((IosError × Option U16) × Drv ε) :=
  onEeprom eeprom_ndx (IOS_ERROR_MAX, none) (readWord g addr)

def eepromDrvWriteWord (eeprom_ndx : Int) (addr : U8) (data : U16) : Drv ε → Res Fault (IosError × Drv ε) :=
  onEeprom eeprom_ndx IOS_ERROR_MAX (writeWord g addr data)

def eepromDrvSetWriteControl (eeprom_ndx : Int) (control : U32) : Drv ε → Res Fault (IosError × Drv ε) :=
  onEeprom eeprom_ndx IOS_ERROR_MAX (setWriteControl g control)

def eepromDrvInit (eeprom_ndx : Int) : Drv ε → Res Fault (IosError × Drv ε) :=
  onEeprom eeprom_ndx IOS_ERROR_MAX (init g)

def eepromDrvOpen (eeprom_ndx : Int) : Drv ε → Res Fault (IosError × Drv ε) :=
  onEeprom eeprom_ndx IOS_ERROR_MAX (openCtx g)

def eepromDrvShutdown (eeprom_ndx : Int) : Drv ε → Res Fault (IosError × Drv ε) :=
  onEeprom eeprom_ndx IOS_ERROR_MAX (shutdown g)

end Bits

end Iosu.Eeprom
