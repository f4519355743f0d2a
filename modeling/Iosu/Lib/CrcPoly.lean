/-
  Iosu.Lib.CrcPoly — a CRC register as a remainder of polynomials over GF(2).

  The lowest place of the register is the coefficient of the highest power (`toPoly`).
  Moving down multiplies by X and takes the remainder by the generator, X^w and the
  register's polynomial (`X_mul_toPoly`). So a register that was fed a message is what
  the message, moved up by the width of the register, leaves behind (`toPoly_feed`).
-/

import Iosu.Lib.Crc
import Mathlib.Algebra.Polynomial.Div
import Mathlib.Algebra.CharP.Two
import Mathlib.Algebra.Polynomial.Monic
import Mathlib.Algebra.Field.ZMod
import Mathlib.Tactic.LinearCombination

namespace Iosu.Lib.Crc

open Polynomial

variable {w : Nat}

/-! ## Registers and messages as polynomials -/

def coefficient (b : Bool) : ZMod 2 := if b then 1 else 0

noncomputable def toPoly (c : BitVec w) : (ZMod 2)[X] :=
  ∑ i ∈ Finset.range w, C (coefficient (c.getLsbD (w - 1 - i))) * X ^ i

/-- The first bit is the highest coefficient. -/
noncomputable def message (bits : List Bool) : (ZMod 2)[X] :=
  bits.foldl (fun m b => X * m + C (coefficient b)) 0

noncomputable def generator (poly : BitVec w) : (ZMod 2)[X] := X ^ w + toPoly poly

theorem coefficient_xor (a b : Bool) : coefficient (a ^^ b) = coefficient a + coefficient b := by
  cases a <;> cases b <;> decide

theorem coeff_toPoly (c : BitVec w) (j : Nat) :
    (toPoly c).coeff j = if j < w then coefficient (c.getLsbD (w - 1 - j)) else 0 := by
  unfold toPoly
  rw [finsetSum_coeff]
  simp only [coeff_C_mul_X_pow]
  rw [Finset.sum_ite_eq]
  simp

theorem toPoly_xor (a b : BitVec w) : toPoly (a ^^^ b) = toPoly a + toPoly b := by
  ext j
  rw [coeff_add, coeff_toPoly, coeff_toPoly, coeff_toPoly, BitVec.getLsbD_xor, coefficient_xor]
  split <;> simp

theorem degree_toPoly_lt (c : BitVec w) : (toPoly c).degree < w := by
  rw [degree_lt_iff_coeff_zero]
  intro j hj
  rw [coeff_toPoly, if_neg (by omega)]

theorem generator_monic (poly : BitVec w) : (generator poly).Monic := monic_X_pow_add (degree_toPoly_lt poly)

theorem degree_generator (poly : BitVec w) : (generator poly).degree = w := by
  have hlt : (toPoly poly).degree < ((X : (ZMod 2)[X]) ^ w).degree := by
    rw [degree_X_pow]
    exact degree_toPoly_lt poly
  unfold generator
  rw [degree_add_eq_left_of_degree_lt hlt, degree_X_pow]

theorem toPoly_bit (hw : 0 < w) (b : Bool) : toPoly (bit b : BitVec w) = C (coefficient b) * X ^ (w - 1) := by
  ext j
  rw [coeff_toPoly, coeff_C_mul_X_pow, getLsbD_bit]
  by_cases hj : j = w - 1
  · subst hj
    rw [if_pos (by omega), if_pos rfl]
    simp [hw]
  · rw [if_neg hj]
    split
    · rename_i hlt
      have hne : ¬ w - 1 - j = 0 := by omega
      simp [hne, coefficient]
    · rfl

/-! ## Moving down -/

theorem toPoly_down (c : BitVec w) :
    toPoly (c >>> 1) + C (coefficient (c.getLsbD 0)) * X ^ w = X * toPoly c := by
  ext j
  rw [coeff_add, coeff_toPoly, coeff_C_mul_X_pow, BitVec.getLsbD_ushiftRight]
  cases j with
  | zero =>
    rw [coeff_X_mul_zero]
    by_cases hw : w = 0
    · subst hw
      simp [coefficient]
    · have htop : c.getLsbD (1 + (w - 1 - 0)) = false := BitVec.getLsbD_of_ge c _ (by omega)
      rw [htop, if_pos (by omega), if_neg (Ne.symm hw)]
      simp [coefficient]
  | succ j =>
    rw [coeff_X_mul, coeff_toPoly]
    rcases Nat.lt_trichotomy (j + 1) w with h | h | h
    · rw [if_pos h, if_neg (by omega), if_pos (by omega), show 1 + (w - 1 - (j + 1)) = w - 1 - j by omega, add_zero]
    · rw [if_neg (by omega), if_pos h, if_pos (by omega), show w - 1 - j = 0 by omega, zero_add]
    · rw [if_neg (by omega), if_neg (by omega), if_neg (by omega), add_zero]

theorem toPoly_shift (poly c : BitVec w) :
    toPoly (shift poly c) = toPoly (c >>> 1) + C (coefficient (c.getLsbD 0)) * toPoly poly := by
  unfold shift
  cases c.getLsbD 0 with
  | false => simp [coefficient]
  | true =>
    rw [if_pos rfl, toPoly_xor]
    simp [coefficient]

/-- A step down is a step up in powers, less the generator where a one falls out. -/
theorem X_mul_toPoly (poly c : BitVec w) :
    X * toPoly c = toPoly (shift poly c) + C (coefficient (c.getLsbD 0)) * generator poly := by
  have htwice : C (coefficient (c.getLsbD 0)) * toPoly poly + C (coefficient (c.getLsbD 0)) * toPoly poly = 0 :=
    CharTwo.add_self_eq_zero _
  calc X * toPoly c = toPoly (c >>> 1) + C (coefficient (c.getLsbD 0)) * X ^ w +
        (C (coefficient (c.getLsbD 0)) * toPoly poly + C (coefficient (c.getLsbD 0)) * toPoly poly) := by
        rw [htwice, add_zero, toPoly_down]
    _ = toPoly (shift poly c) + C (coefficient (c.getLsbD 0)) * generator poly := by
        rw [toPoly_shift, generator]
        ring

/-! ## Feeding -/

theorem message_append (bits : List Bool) (b : Bool) : message (bits ++ [b]) = X * message bits + C (coefficient b) := by
  simp [message]

/-- One more bit, behind `f = a + g * q`. -/
theorem congruent_step {R : Type} [CommRing R] {x a c p s d g q f v : R} (hstep : x * (a + c * p) = s + d * g)
    (hq : a + g * q = f) (hv : v = x * p) : s + g * (x * q + d) = x * f + v * c := by
  linear_combination x * hq - hstep - c * hv

/-- What has been fed is congruent to what is left. -/
theorem feed_congruent (hw : 0 < w) (poly c : BitVec w) (bits : List Bool) :
    ∃ q, toPoly (feed poly c bits) + generator poly * q = X ^ bits.length * toPoly c + X ^ w * message bits := by
  induction bits using List.reverseRecOn with
  | nil =>
    refine ⟨0, ?_⟩
    simp [feed, message]
  | append_singleton bits b ih =>
    obtain ⟨q, hq⟩ := ih
    have hfeed : feed poly c (bits ++ [b]) = shift poly (feed poly c bits ^^^ bit b) := by
      rw [feed_append]
      rfl
    have hstep := X_mul_toPoly poly (feed poly c bits ^^^ bit b)
    have hpow : (X : (ZMod 2)[X]) ^ w = X * X ^ (w - 1) := by
      rw [← pow_succ', Nat.sub_add_cancel hw]
    rw [toPoly_xor, toPoly_bit hw] at hstep
    refine ⟨X * q + C (coefficient ((feed poly c bits ^^^ bit b).getLsbD 0)), ?_⟩
    rw [hfeed, congruent_step hstep hq hpow, message_append, List.length_append, List.length_singleton, pow_succ]
    ring

/-- The register is the remainder of the message behind what it held before. -/
theorem toPoly_feed (hw : 0 < w) (poly c : BitVec w) (bits : List Bool) :
    toPoly (feed poly c bits) = (X ^ bits.length * toPoly c + X ^ w * message bits) %ₘ generator poly := by
  obtain ⟨q, hq⟩ := feed_congruent hw poly c bits
  have hdegree : (toPoly (feed poly c bits)).degree < (generator poly).degree := by
    rw [degree_generator]
    exact degree_toPoly_lt _
  exact ((div_modByMonic_unique q _ (generator_monic poly) ⟨hq, hdegree⟩).2).symm

/-- With a register of ones before, and one added behind. -/
theorem toPoly_crc (hw : 0 < w) (poly : BitVec w) (bytes : List (BitVec 8)) :
    toPoly (crc poly bytes) =
      (X ^ (8 * bytes.length) * toPoly (BitVec.allOnes w) + X ^ w * message (bytes.flatMap lsbFirst)) %ₘ generator poly +
        toPoly (BitVec.allOnes w) := by
  have hnot : crc poly bytes = feedBytes poly (BitVec.allOnes w) bytes ^^^ BitVec.allOnes w := by
    rw [BitVec.xor_allOnes]
    rfl
  rw [hnot, toPoly_xor, ← lsbFirst_length, ← toPoly_feed hw]
  rfl

end Iosu.Lib.Crc
