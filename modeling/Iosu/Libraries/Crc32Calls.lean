/-
  Iosu.Libraries.Crc32Calls — what one call of `crc32Input` returns, and what several do.

  One call behind `crc32Reset` returns the CRC-32 of its bytes: the register fed bit by
  bit, which is the remainder of the message by the generator, with ones added before
  and behind (`crc32Input_reference`). `s_crc32Value` is complemented on entry, and kept
  as it is on return: each call from the second on starts from the complement of what
  the one before left, and the last returns the CRC-32 of all bytes with 0xFFFFFFFF
  added once for each of them, moved through what it still saw (`crc32Inputs_eq`).
-/

import Iosu.Libraries.Crc32
import Iosu.Lib.CrcPoly

namespace Iosu.Libraries

open Iosu.Lib Polynomial

/-! ## One call -/

theorem crc32_top : (0xedb88320 : U32).getLsbD (32 - 1) = true := by decide

/-- The generator of CRC-32, by its powers. -/
theorem generator_crc32 : Crc.generator (0xedb88320 : U32) =
    X ^ 32 + X ^ 26 + X ^ 23 + X ^ 22 + X ^ 16 + X ^ 12 + X ^ 11 + X ^ 10 + X ^ 8 + X ^ 7 + X ^ 5 + X ^ 4 + X ^ 2 + X + 1 := by
  have hbits : ∀ i : Fin 32, Crc.coefficient ((0xedb88320 : U32).getLsbD (32 - 1 - i)) =
      if i.val ∈ [0, 1, 2, 4, 5, 7, 8, 10, 11, 12, 16, 22, 23, 26] then 1 else 0 := by
    decide
  have hsum : Crc.toPoly (0xedb88320 : U32) =
      ∑ i ∈ Finset.range 32, C (if i ∈ [0, 1, 2, 4, 5, 7, 8, 10, 11, 12, 16, 22, 23, 26] then 1 else 0) * X ^ i := by
    refine Finset.sum_congr rfl fun i hi => ?_
    rw [hbits ⟨i, Finset.mem_range.mp hi⟩]
  unfold Crc.generator
  rw [hsum]
  simp [Finset.sum_range_succ]
  ring

/-- A call behind `crc32Reset` returns the CRC-32 of its bytes, fed bit by bit; and that
    is the remainder of the bytes by the generator. -/
theorem crc32Input_reference (m : List U8) :
    (crc32Input crc32Reset m).1 = Crc.crc32 m ∧
      Crc.toPoly (crc32Input crc32Reset m).1 =
        (X ^ (8 * m.length) * Crc.toPoly (BitVec.allOnes 32) + X ^ 32 * Crc.message (m.flatMap Crc.lsbFirst)) %ₘ
            Crc.generator (0xedb88320 : U32) +
          Crc.toPoly (BitVec.allOnes 32) := by
  refine ⟨crc32Input_reset m, ?_⟩
  rw [crc32Input_reset]
  exact Crc.toPoly_crc (by omega) 0xedb88320 m

/-! ## Several calls -/

/-- `crc32Input(a)`, and then a call for each of the others: what the last one returns. -/
def crc32Inputs (value : U32) (a : List U8) : List (List U8) → U32
  | [] => (crc32Input value a).1
  | b :: rest => crc32Inputs (crc32Input value a).2 b rest

/-- For each of the calls, the bits that it and those behind it see. -/
def bitsToGo : List (List U8) → List Nat
  | [] => []
  | b :: rest => 8 * (b ++ rest.flatten).length :: bitsToGo rest

/-- A call that starts from the complement. -/
theorem crc32Input_continued (value : U32) (m : List U8) :
    (crc32Input value m).1 = ~~~ m.foldl crc32Byte value ^^^ Crc.shifts 0xedb88320 (8 * m.length) (BitVec.allOnes 32) := by
  show ~~~ m.foldl crc32Byte (~~~ value) = _
  rw [foldl_crc32Byte, foldl_crc32Byte, ← BitVec.xor_allOnes (x := value), Crc.feedBytes_xor, BitVec.not_xor_left]

theorem crc32Inputs_eq (value : U32) (a : List U8) (as : List (List U8)) :
    crc32Inputs value a as =
      (crc32Input value (a ++ as.flatten)).1 ^^^ Crc.combine 0xedb88320 (bitsToGo as) (BitVec.allOnes 32) := by
  induction as generalizing value a with
  | nil =>
    rw [List.flatten_nil, List.append_nil]
    exact BitVec.xor_zero.symm
  | cons b rest ih =>
    have hjoin : ~~~ (b ++ rest.flatten).foldl crc32Byte (crc32Input value a).2 =
        (crc32Input value (a ++ (b ++ rest.flatten))).1 := congrArg (fun c : U32 => ~~~ c) List.foldl_append.symm
    calc crc32Inputs value a (b :: rest)
        = (crc32Input (crc32Input value a).2 (b ++ rest.flatten)).1 ^^^
            Crc.combine 0xedb88320 (bitsToGo rest) (BitVec.allOnes 32) := ih _ b
      _ = (crc32Input value (a ++ (b ++ rest.flatten))).1 ^^^
            (Crc.shifts 0xedb88320 (8 * (b ++ rest.flatten).length) (BitVec.allOnes 32) ^^^
              Crc.combine 0xedb88320 (bitsToGo rest) (BitVec.allOnes 32)) := by
          rw [crc32Input_continued, hjoin, BitVec.xor_assoc]

/-- The calls return the CRC-32 of all bytes exactly when what is added cancels out. -/
theorem crc32Inputs_chained_iff (a : List U8) (as : List (List U8)) :
    crc32Inputs crc32Reset a as = (crc32Input crc32Reset (a ++ as.flatten)).1 ↔
      Crc.combine 0xedb88320 (bitsToGo as) (BitVec.allOnes 32) = 0 := by
  rw [crc32Inputs_eq]
  have hcancel := BitVec.xor_right_inj (x := Crc.combine (0xedb88320 : U32) (bitsToGo as) (BitVec.allOnes 32)) (y := 0)
    (crc32Input crc32Reset (a ++ as.flatten)).1
  rwa [show (0 : U32) = 0#32 from rfl, BitVec.xor_zero] at hcancel

/-- Two calls never do. -/
theorem two_calls_differ (b : List U8) : Crc.combine (0xedb88320 : U32) (bitsToGo [b]) (BitVec.allOnes 32) ≠ 0 := by
  intro h
  have hshift : Crc.shifts (0xedb88320 : U32) (8 * (b ++ []).length) (BitVec.allOnes 32) = 0 := by
    rw [← h]
    exact BitVec.xor_zero.symm
  have hones := Crc.shifts_injective crc32_top _ (hshift.trans (Crc.Linear.shifts _ _).zero.symm)
  exact absurd hones (by decide)

/-- The check message in two parts. -/
theorem split_check_differs :
    crc32Inputs crc32Reset [0x31, 0x32, 0x33, 0x34] [[0x35, 0x36, 0x37, 0x38, 0x39]] ≠
      (crc32Input crc32Reset ([0x31, 0x32, 0x33, 0x34] ++ [[0x35, 0x36, 0x37, 0x38, 0x39]].flatten)).1 := by
  decide +kernel

end Iosu.Libraries
