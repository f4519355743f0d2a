/-
  Iosu.Libc.Delay — `udelay` (`libraries/libc/lib/delay.c`) and `udelay_realtime`
  (`bsp_util.c`).

  Both convert the microseconds to ticks of a 32-bit counter and read it until it is so
  many on. The conversion rounds down, but not to nothing, and ends at `UINT_MAX`
  (`usec_to_timer_ticks_toNat`). The loops leave at the first sample that is so far on,
  also when the counter runs around on the way (`delay_exact`); what the conversion rounded
  off is missing from the wait (`delay_elapsed`).
-/

import Iosu.Lib.Bytes
import Iosu.Lib.Counter

namespace Iosu.Libc

open Iosu.Lib

abbrev U64 := BitVec 64

def UINT_MAX : U32 := 0xFFFFFFFF

/-- `timerFrequency` is `bspHwInfo.clock.timerFrequency`. -/
def usec_to_timer_ticks (timerFrequency usec : U32) : U32 :=
  let ticks64 : U64 := timerFrequency.setWidth 64 * usec.setWidth 64 / 1000000
  if ticks64 >>> 32 ≠ 0 then UINT_MAX
  else
    let ticks : U32 := ticks64.setWidth 32
    if usec ≠ 0 ∧ ticks = 0 then 1 else ticks

section Functions

variable {φ : Type}

/-- What the two delays share: `read k` is what the counter shows when it is read for the
    `k`th time. The answer is the sample that the loop leaves at. -/
def delayLoop (read : Nat → U32) (ticks : U32) (fuel : Nat) : Res φ Nat :=
  let start := read 0
  firstFrom (fun k => ¬ read k - start < ticks) fuel 1

def udelay (timerFrequency : U32) (IOS_GetUpTime : Nat → U32) (usec : U32) (fuel : Nat) : Res φ Nat :=
  delayLoop IOS_GetUpTime (usec_to_timer_ticks timerFrequency usec) fuel

def udelay_realtime (timerFrequency : U32) (HW_TIMER : Nat → U32) (usec : U32) (fuel : Nat) : Res φ Nat :=
  delayLoop HW_TIMER (usec_to_timer_ticks timerFrequency usec) fuel

end Functions

/-! ## The conversion -/

section Ticks

variable (timerFrequency usec : U32)

/-- The product fits into its 64 bits. -/
theorem product_toNat : (timerFrequency.setWidth 64 * usec.setWidth 64 : U64).toNat = timerFrequency.toNat * usec.toNat := by
  have hfrequency := timerFrequency.isLt
  have husec := usec.isLt
  have hlt : timerFrequency.toNat * usec.toNat < 2 ^ 32 * 2 ^ 32 := Nat.mul_lt_mul'' hfrequency husec
  have hwide : ∀ x : U32, x.toNat % 2 ^ 64 = x.toNat := fun x => Nat.mod_eq_of_lt (by have := x.isLt; omega)
  rw [BitVec.toNat_mul, BitVec.toNat_setWidth, BitVec.toNat_setWidth, hwide, hwide]
  exact Nat.mod_eq_of_lt hlt

theorem usec_to_timer_ticks_toNat : (usec_to_timer_ticks timerFrequency usec).toNat =
    max (if 0 < usec.toNat then 1 else 0) (min (timerFrequency.toNat * usec.toNat / 1000000) (2 ^ 32 - 1)) := by
  have hticks : (timerFrequency.setWidth 64 * usec.setWidth 64 / 1000000 : U64).toNat =
      timerFrequency.toNat * usec.toNat / 1000000 := by
    rw [BitVec.toNat_udiv, product_toNat]
    rfl
  have hfits : (timerFrequency.setWidth 64 * usec.setWidth 64 / 1000000 : U64) >>> 32 ≠ 0 ↔
      2 ^ 32 ≤ timerFrequency.toNat * usec.toNat / 1000000 := by
    rw [Ne, ← BitVec.toNat_inj, BitVec.toNat_ushiftRight, hticks, Nat.shiftRight_eq_div_pow]
    simp
  unfold usec_to_timer_ticks
  dsimp only
  generalize hn : timerFrequency.toNat * usec.toNat / 1000000 = n at hticks hfits
  by_cases hlarge : 2 ^ 32 ≤ n
  · have hmax : UINT_MAX.toNat = 2 ^ 32 - 1 := rfl
    rw [if_pos (hfits.mpr hlarge), hmax]
    split <;> omega
  · have hlow : ((timerFrequency.setWidth 64 * usec.setWidth 64 / 1000000 : U64).setWidth 32).toNat = n := by
      rw [BitVec.toNat_setWidth, hticks, Nat.mod_eq_of_lt (by omega)]
    have hzero : ((timerFrequency.setWidth 64 * usec.setWidth 64 / 1000000 : U64).setWidth 32 = (0 : U32)) ↔ n = 0 := by
      rw [← BitVec.toNat_inj, hlow]
      rfl
    have husec : usec ≠ 0 ↔ 0 < usec.toNat := by
      rw [Ne, ← BitVec.toNat_inj, Nat.pos_iff_ne_zero]
      rfl
    rw [if_neg (fun h => hlarge (hfits.mp h))]
    by_cases hone : 0 < usec.toNat ∧ n = 0
    · have h1 : (1 : U32).toNat = 1 := rfl
      rw [if_pos ⟨husec.mpr hone.1, hzero.mpr hone.2⟩, if_pos hone.1, h1]
      omega
    · rw [if_neg (fun h => hone ⟨husec.mp h.1, hzero.mp h.2⟩), hlow]
      split <;> omega

theorem usec_to_timer_ticks_mono {usec usec' : U32} (h : usec ≤ usec') :
    usec_to_timer_ticks timerFrequency usec ≤ usec_to_timer_ticks timerFrequency usec' := by
  have hle : usec.toNat ≤ usec'.toNat := h
  have hproduct := Nat.div_le_div_right (c := 1000000) (Nat.mul_le_mul_left timerFrequency.toNat hle)
  rw [BitVec.le_def, usec_to_timer_ticks_toNat, usec_to_timer_ticks_toNat]
  split <;> split <;> omega

end Ticks

/-! ## The loops -/

theorem delayLoop_ends_iff {φ : Type} (c : Count) {ticks : U32}
    (hgap : ∀ k, c.sample (k + 1) - c.sample k ≤ 2 ^ 32 - ticks.toNat) (n : Nat) :
    (∃ fuel, (delayLoop (c.shown 32) ticks fuel : Res φ Nat) = .ok n) ↔ IsFirst (fun k => ticks.toNat ≤ c.elapsed k) 1 n :=
  firstFrom_ends_iff.trans (Count.isFirst_shown_iff hgap)

/-- Whenever a loop ends, the counter is that far on. -/
theorem delayLoop_elapsed {φ : Type} (c : Count) {ticks : U32} {fuel n : Nat}
    (h : (delayLoop (c.shown 32) ticks fuel : Res φ Nat) = .ok n) : ticks.toNat ≤ c.elapsed n :=
  c.le_elapsed (firstFrom_ok_iff.mp h).2.2.1

/-- The ticks of a delay, and the sample at which it ends. -/
theorem delay_exact {φ : Type} (timerFrequency usec : U32) :
    (timerFrequency.setWidth 64 * usec.setWidth 64 : U64).toNat = timerFrequency.toNat * usec.toNat ∧
    (usec_to_timer_ticks timerFrequency usec).toNat =
      max (if 0 < usec.toNat then 1 else 0) (min (timerFrequency.toNat * usec.toNat / 1000000) (2 ^ 32 - 1)) ∧
    (∀ usec', usec ≤ usec' → usec_to_timer_ticks timerFrequency usec ≤ usec_to_timer_ticks timerFrequency usec') ∧
    ∀ c : Count, (∀ k, c.sample (k + 1) - c.sample k ≤ 2 ^ 32 - (usec_to_timer_ticks timerFrequency usec).toNat) → ∀ n,
      ((∃ fuel, (udelay timerFrequency (c.shown 32) usec fuel : Res φ Nat) = .ok n) ↔
        IsFirst (fun k => (usec_to_timer_ticks timerFrequency usec).toNat ≤ c.elapsed k) 1 n) ∧
      ((∃ fuel, (udelay_realtime timerFrequency (c.shown 32) usec fuel : Res φ Nat) = .ok n) ↔
        IsFirst (fun k => (usec_to_timer_ticks timerFrequency usec).toNat ≤ c.elapsed k) 1 n) := by
  refine ⟨product_toNat timerFrequency usec, usec_to_timer_ticks_toNat timerFrequency usec,
    fun usec' h => usec_to_timer_ticks_mono timerFrequency h, fun c hgap n => ⟨?_, ?_⟩⟩
  · exact delayLoop_ends_iff c hgap n
  · exact delayLoop_ends_iff c hgap n

/-- A counter that is read every `step` ticks. -/
def steady (start step : Nat) : Count where
  sample k := start + step * k
  mono _ _ h := Nat.add_le_add_left (Nat.mul_le_mul_left step h) start

/-- At 248.625 MHz / 128, 4 µs are 7 ticks, the second sample of this one. The counter runs
    around in between. -/
theorem around_exact :
    ∃ fuel, (udelay 1942382 ((steady 0xFFFFFFFC 4).shown 32) 4 fuel : Res Empty Nat) = .ok 2 := by
  have hticks : (usec_to_timer_ticks 1942382 4).toNat = 7 := by decide
  obtain ⟨-, -, -, hends⟩ := delay_exact (φ := Empty) 1942382 4
  refine ((hends (steady 0xFFFFFFFC 4) (fun k => ?_) 2).1).mpr ⟨by omega, ?_, ?_⟩
  · rw [hticks]
    simp only [steady]
    omega
  · rw [hticks]
    decide
  · intro j hj hlt
    obtain rfl : j = 1 := by omega
    rw [hticks]
    decide

/-! ## Rounding -/

/-- A delay is short by less than a tick: not at all where the ticks come out even, or where
    they are raised to one. A product that is too large for the counter waits as long as
    that can show. -/
theorem delay_elapsed {φ : Type} (timerFrequency usec : U32) (c : Count) (fuel n : Nat)
    (h : (udelay timerFrequency (c.shown 32) usec fuel : Res φ Nat) = .ok n ∨
      (udelay_realtime timerFrequency (c.shown 32) usec fuel : Res φ Nat) = .ok n) :
    (usec.toNat * timerFrequency.toNat < 2 ^ 32 * 1000000 →
      usec.toNat * timerFrequency.toNat < (c.elapsed n + 1) * 1000000 ∧
      (1000000 ∣ usec.toNat * timerFrequency.toNat ∨ usec.toNat * timerFrequency.toNat ≤ 1000000 →
        usec.toNat * timerFrequency.toNat ≤ c.elapsed n * 1000000)) ∧
    (2 ^ 32 * 1000000 ≤ usec.toNat * timerFrequency.toNat → 2 ^ 32 - 1 ≤ c.elapsed n) := by
  have hwaited : (usec_to_timer_ticks timerFrequency usec).toNat ≤ c.elapsed n := by
    rcases h with h | h
    · exact delayLoop_elapsed c h
    · exact delayLoop_elapsed c h
  rw [usec_to_timer_ticks_toNat, Nat.mul_comm timerFrequency.toNat] at hwaited
  have husec : usec.toNat = 0 → usec.toNat * timerFrequency.toNat = 0 := fun h0 => by rw [h0, Nat.zero_mul]
  generalize usec.toNat * timerFrequency.toNat = product at hwaited husec ⊢
  split at hwaited <;> omega

theorem fraction_missing : 4 * 1942382 < ((steady 0 7).elapsed 1 + 1) * 1000000 :=
  ((delay_elapsed (φ := Empty) 1942382 4 (steady 0 7) 1 1 (Or.inl (by decide))).1 (by decide)).1

/-- At 248.625 MHz / 128, 4 µs are 7.77 ticks: after 7 of them the delay is over. -/
theorem early_by_a_fraction : ¬ ∀ (timerFrequency usec : U32) (c : Count) (fuel n : Nat), 0 < timerFrequency.toNat →
    (udelay timerFrequency (c.shown 32) usec fuel : Res Empty Nat) = .ok n →
    usec.toNat * timerFrequency.toNat ≤ c.elapsed n * 1000000 := by
  intro h
  have hearly := h 1942382 4 (steady 0 7) 1 1 (by decide) (by decide)
  exact absurd hearly (by decide)

end Iosu.Libc
