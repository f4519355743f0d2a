/-
  Iosu.Libraries.Crc32 — `libraries/crc32/crc32.c`.

  The value is kept between calls (`s_crc32Value`); `crc32Input` takes it and gives it
  back together with what the call returns. The value is the register of the CRC-32
  that is fed a bit at a time (`foldl_crc32Byte`).
-/

import Iosu.Lib.Bytes
import Iosu.Lib.Crc

namespace Iosu.Libraries

open Iosu.Lib

def crc32Reset : U32 := 0

/-- The inner `for`: eight shifts. -/
def crcConstant : Nat → U32 → U32
  | 0, c => c
  | j + 1, c => crcConstant j (if c &&& 1 ≠ 0 then (c >>> 1) ^^^ 0xedb88320 else c >>> 1)

/-- One turn of the outer `for`. -/
def crc32Byte (value : U32) (byte : U8) : U32 :=
  let nLookupIndex := (value ^^^ byte.setWidth 32) &&& 0xFF
  crcConstant 8 nLookupIndex ^^^ (value >>> 8)

/-- What the call returns, and `s_crc32Value` after it. -/
def crc32Input (value : U32) (bytes : List U8) : U32 × U32 :=
  let value := bytes.foldl crc32Byte (~~~ value)
  (~~~ value, value)

/-- The check value of CRC-32. -/
example : (crc32Input crc32Reset [0x31, 0x32, 0x33, 0x34, 0x35, 0x36, 0x37, 0x38, 0x39]).1 = 0xcbf43926 := by
  decide +kernel

/-! ## The register -/

theorem crcConstant_eq (j : Nat) (c : U32) : crcConstant j c = Crc.shifts 0xedb88320 j c := by
  induction j generalizing c with
  | zero => rfl
  | succ j ih =>
    have hlow : (c &&& 1 ≠ 0) = (c.getLsbD 0 = true) := by
      have hbit : (c &&& 1#32) = (BitVec.ofBool (c.getLsbD 0)).setWidth 32 := BitVec.and_one_eq_setWidth_ofBool_getLsbD
      show ((c &&& 1#32) ≠ 0#32) = _
      rw [hbit]
      cases c.getLsbD 0 <;> simp
    rw [crcConstant, Crc.shifts, ih]
    unfold Crc.shift
    simp only [hlow]

/-- The lowest octet, as a mask. -/
theorem octet_mask (i : Nat) (hi : i < 32) : (0xFF : U32).getLsbD i = decide (i < 8) := by
  have hall : ∀ j : Fin 32, (0xFF : U32).getLsbD j = decide (j.val < 8) := by decide
  exact hall ⟨i, hi⟩

/-- A turn of the outer `for` feeds the byte. -/
theorem crc32Byte_eq (value : U32) (byte : U8) :
    crc32Byte value byte = Crc.feed 0xedb88320 value (Crc.lsbFirst byte) := by
  have hbyte : (byte.setWidth 32 : U32) >>> 8 = 0 := by
    apply BitVec.eq_of_toNat_eq
    have := byte.isLt
    simp
    omega
  have hdown : (value ^^^ byte.setWidth 32) >>> 8 = value >>> 8 := by
    rw [BitVec.ushiftRight_xor_distrib, hbyte]
    exact BitVec.xor_zero
  rw [Crc.feed_byte (by omega), Crc.shifts_split octet_mask, hdown]
  unfold crc32Byte
  dsimp only
  rw [crcConstant_eq]

theorem foldl_crc32Byte (value : U32) (bytes : List U8) :
    bytes.foldl crc32Byte value = Crc.feedBytes 0xedb88320 value bytes := by
  induction bytes generalizing value with
  | nil => rfl
  | cons byte bytes ih => rw [List.foldl_cons, ih, crc32Byte_eq, Crc.feedBytes_cons]

/-- What a call behind `crc32Reset` returns. -/
theorem crc32Input_reset (bytes : List U8) : (crc32Input crc32Reset bytes).1 = Crc.crc32 bytes := by
  show ~~~ bytes.foldl crc32Byte (~~~ 0) = Crc.crc32 bytes
  rw [foldl_crc32Byte]
  rfl

/-! ## Zeros behind a message -/

/-- The shifts that, put together, undo `Crc.shifts 16` with its argument added. -/
def undoSixteen : List Nat := [0, 4, 5, 6, 7, 8, 9, 10, 11, 13, 14, 15, 19, 21, 24, 27, 29]

theorem undoSixteen_spec : ∀ i : Fin 32,
    Crc.combine (0xedb88320 : U32) undoSixteen
      (Crc.shifts 0xedb88320 16 (BitVec.twoPow 32 i) ^^^ BitVec.twoPow 32 i) = BitVec.twoPow 32 i := by
  decide +kernel

/-- Two zeros behind a message change its CRC, unless it is 0xFFFFFFFF. -/
theorem crc32_zeros_iff (bytes : List U8) :
    Crc.crc32 (bytes ++ [0, 0]) = Crc.crc32 bytes ↔ Crc.crc32 bytes = 0xFFFFFFFF := by
  have hzeros : Crc.feedBytes (0xedb88320 : U32) (BitVec.allOnes 32) (bytes ++ [0, 0]) =
      Crc.shifts 0xedb88320 16 (Crc.feedBytes 0xedb88320 (BitVec.allOnes 32) bytes) := by
    rw [Crc.feedBytes_append]
    exact Crc.feedBytes_zeros (by omega) _ 2
  have hfixed := Crc.Linear.fixed_zero (fun i hi => undoSixteen_spec ⟨i, hi⟩)
    (Crc.feedBytes (0xedb88320 : U32) (BitVec.allOnes 32) bytes)
  have hones : ∀ c : U32, ~~~ c = 0xFFFFFFFF ↔ c = 0 := by
    intro c
    rw [← BitVec.not_inj (x := c) (y := 0)]
    rfl
  unfold Crc.crc32 Crc.crc
  rw [hzeros, BitVec.not_inj, hfixed, hones]

end Iosu.Libraries
