/-
  Iosu.Entity.Types — the entity layer's data (`bsp_entity.h`, `bsp_entity_enum.h`,
  `bsp.h`).

  An entity has a name, a version, an instance count and one attribute table for each
  instance, or a single one for all of them (`BSP_EO_FLAT_INSTANCES`). A table is an
  array of attributes that the code walks up to an entry with a NULL name; an array
  that ends without one is a list that ends without one, and reading on is a fault.

  The callbacks act on a state `σ` that this layer does not look into. Each gets the
  instance and the attribute it belongs to, and the bytes its data pointer designates;
  what it leaves there comes back with its result. A callback may fault or not return
  (`Res`): some of them dispatch through this same layer. No callback of the source
  writes the attribute it is given, so it gets the attribute's data and not its methods.
-/

import Iosu.Lib.Run
import Iosu.Libc.Strings

namespace Iosu.Entity

open Iosu.Lib Iosu.Libc

/-! ## `bsp_entity_enum.h` -/

abbrev BspRval := U32

def BSP_RVAL_OK : BspRval := 0
def BSP_RVAL_UNKNOWN_ENTITY : BspRval := 1
def BSP_RVAL_UNKNOWN_ATTRIBUTE : BspRval := 2
def BSP_RVAL_INVALID_INSTANCE : BspRval := 4
def BSP_RVAL_CFG_CORRUPTED : BspRval := 8
def BSP_RVAL_DEVICE_ERROR : BspRval := 16
def BSP_RVAL_SPECIFIED_SIZE_INVALID : BspRval := 128
def BSP_RVAL_UNSUPPORTED_METHOD : BspRval := 1024
def BSP_RVAL_UNKNOWN_HARDWARE_VERSION : BspRval := 2048
def BSP_RVAL_QUERY_UNAVAILABLE : BspRval := 4096
def BSP_RVAL_INVALID_PARAMETER : BspRval := 16384
def BSP_RVAL_REQUEST_DENIED : BspRval := 65536
def BSP_RVAL_BOARD_CONFIG_INVALID : BspRval := 262144

/-! `BSP_ATTRIBUTE_OPTIONS` and `BSP_ENTITY_OPTIONS` -/

def BSP_AO_QUERY_DATA_DIRECT : U32 := 1
def BSP_AO_QUERY_DATA_INDIRECT : U32 := 2
def BSP_AO_INIT_GLOBAL : U32 := 4

def BSP_EO_NONE : U32 := 0
def BSP_EO_FLAT_INSTANCES : U32 := 2

/-! `BSP_ATTRIBUTE_PERMISSIONS` -/

def BSP_PERMISSIONS_ALL : U32 := 65535
def BSP_PERMISSIONS_INTERNAL : U32 := 0x80000000
def BSP_PERMISSIONS_IOS : U32 := 255
def BSP_PERMISSIONS_IOS_SUPV : U32 := 240
def BSP_PERMISSIONS_IOS_SUPV_INIT : U32 := 64
def BSP_PERMISSIONS_IOS_SUPV_READ : U32 := 16
def BSP_PERMISSIONS_IOS_SUPV_SHUTDOWN : U32 := 128
def BSP_PERMISSIONS_IOS_SUPV_WRITE : U32 := 32
def BSP_PERMISSIONS_IOS_USER_INIT : U32 := 4
def BSP_PERMISSIONS_IOS_USER_READ : U32 := 1
def BSP_PERMISSIONS_IOS_USER_SHUTDOWN : U32 := 8
def BSP_PERMISSIONS_IOS_USER_WRITE : U32 := 2
def BSP_PERMISSIONS_PPC_SUPV_INIT : U32 := 16384
def BSP_PERMISSIONS_PPC_SUPV_READ : U32 := 4096
def BSP_PERMISSIONS_PPC_SUPV_SHUTDOWN : U32 := 32768
def BSP_PERMISSIONS_PPC_SUPV_WRITE : U32 := 8192
def BSP_PERMISSIONS_PPC_USER_INIT : U32 := 1024
def BSP_PERMISSIONS_PPC_USER_READ : U32 := 256
def BSP_PERMISSIONS_PPC_USER_SHUTDOWN : U32 := 2048
def BSP_PERMISSIONS_PPC_USER_WRITE : U32 := 512

/-! `BSP_IOCTL` -/

def BSP_IOCTL_GET_ENTITY_VERSION : U32 := 1
def BSP_IOCTL_GET_HARDWARE_VERSION : U32 := 2
def BSP_IOCTL_GET_CONSOLE_MASK : U32 := 3
def BSP_IOCTL_METHOD_QUERY : U32 := 4
def BSP_IOCTL_METHOD_READ : U32 := 5
def BSP_IOCTL_METHOD_WRITE : U32 := 6
def BSP_IOCTL_METHOD_INIT : U32 := 7
def BSP_IOCTL_METHOD_SHUTDOWN : U32 := 8
def BSP_IOCTL_GET_CONSOLE_TYPE : U32 := 9

/-! ## What can go wrong -/

inductive Fault where
  /-- A field of a NULL `BSP_ENTITY*` is read. -/
  | nullEntity
  /-- A field of a NULL `BSP_ATTRIBUTE*` is read. -/
  | nullAttribute
  /-- An attribute past the end of its table is read. -/
  | tableOverrun
  /-- `pAttributes[instance]` past the entity's tables. -/
  | tableIndex
  /-- `bsp_fdtable` is indexed outside its 32 slots. -/
  | fdIndex (fd : Int)
  /-- An array of a function's frame is indexed outside its bounds. -/
  | frameIndex
  /-- `eepromContexts` is indexed outside its one slot. -/
  | eepromIndex
  /-- A callback ran into a fault of its own. -/
  | inCallback (f : Fault)
  deriving DecidableEq, Repr

/-! ## `BSP_ATTRIBUTE` and `BSP_ENTITY` -/

/-- A `BSP_ATTRIBUTE` but for its methods. -/
structure AttributeData where
  /-- NULL in the entry that ends a table. -/
  pName : Option CStr
  options : U32 := 0
  permissions : U32 := 0
  data : U32 := 0
  dataSize : U32 := 0
  attributeSpecific : U32 := 0
  deriving DecidableEq, Repr

variable (σ : Type)

/-- `readMethod`, `queryMethod`: what they leave at their data pointer comes back. -/
abbrev OutMethod := U32 → AttributeData → Buf → σ → Res Fault (BspRval × Buf × σ)

/-- `writeMethod`. -/
abbrev InMethod := U32 → AttributeData → Buf → σ → Res Fault (BspRval × σ)

/-- `initMethod`: its data pointer may be NULL. -/
abbrev InitMethod := U32 → AttributeData → Option Buf → U32 → σ → Res Fault (BspRval × σ)

abbrev ShutdownMethod := U32 → AttributeData → σ → Res Fault (BspRval × σ)

structure BspAttribute extends AttributeData where
  readMethod : Option (OutMethod σ) := none
  queryMethod : Option (OutMethod σ) := none
  writeMethod : Option (InMethod σ) := none
  initMethod : Option (InitMethod σ) := none
  shutdownMethod : Option (ShutdownMethod σ) := none

structure BspEntity where
  pName : CStr
  version : U32
  instanceCount : U32
  options : U32
  pAttributes : List (List (BspAttribute σ))

/-- The address space that `BSP_AO_QUERY_DATA_INDIRECT` reads the attribute's data
    from. -/
class DataMem where
  peek : σ → U32 → U8

variable {σ}

/-! ## Well-formed tables -/

/-- The table ends in an entry with a NULL name. -/
def Terminated (t : List (BspAttribute σ)) : Prop := ∃ a ∈ t, a.pName = none

/-- The index of an instance's table. -/
def BspEntity.tableIndex (e : BspEntity σ) (i : U32) : Nat :=
  if e.options &&& BSP_EO_FLAT_INSTANCES ≠ 0 then 0 else i.toNat

/-- Each instance the entity declares has a terminated table. -/
def BspEntity.Wf (e : BspEntity σ) : Prop :=
  ∀ i : U32, i < e.instanceCount → ∃ t, e.pAttributes[e.tableIndex i]? = some t ∧ Terminated t

end Iosu.Entity
