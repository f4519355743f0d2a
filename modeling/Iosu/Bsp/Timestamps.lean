/-
  Iosu.Bsp.Timestamps — the timestamps of `log_print_syslog` (`log.c`).

  A stamp is the time of day of the uptime in milliseconds, of which the code keeps the low
  32 bits: it divides `msec & 0xFFFFFFFF`, and takes `(int)msec`. So from 2^32 ms on (49 days)
  the stamps begin again at midnight (`stamp_timeOfDay`).
-/

import Iosu.Bsp.Syslog
import Mathlib.Data.Int.ModEq

namespace Iosu.Bsp

open Iosu.Lib Iosu.Libc

/-- A day in milliseconds. -/
def dayMillis : Nat := 86400000

/-- The milliseconds of a stamp since midnight. -/
def Stamp.millis (s : Stamp) : Nat := ((s.hrs.toNat * 60 + s.min.toNat) * 60 + s.sec.toNat) * 1000 + s.msec.toNat

/-- The numbers of a stamp are those of a clock. -/
structure Stamp.InRange (s : Stamp) : Prop where
  hrs : s.hrs.toNat < 24
  min : s.min.toNat < 60
  sec : s.sec.toNat < 60
  msec : s.msec.toNat < 1000

/-! ## The arithmetic of the four numbers -/

/-- `a - b`, where it does not wrap. -/
theorem sub_toNat {a b : U32} {m n : Nat} (ha : a.toNat = m) (hb : b.toNat = n) (h : n ≤ m) : (a - b).toNat = m - n := by
  have := a.isLt
  rw [BitVec.toNat_sub, ha, hb]
  omega

theorem mul_toNat {a b : U32} {m n : Nat} (ha : a.toNat = m) (hb : b.toNat = n) (h : m * n < 2 ^ 32) :
    (a * b).toNat = m * n := by
  rw [BitVec.toNat_mul, ha, hb, Nat.mod_eq_of_lt h]

section Fields

variable (uptime : U64)

/-- The milliseconds that the code keeps. -/
def keptMillis : Nat := uptime.toNat / 1000 % 2 ^ 32

theorem keptMillis_lt : keptMillis uptime < 2 ^ 32 := Nat.mod_lt _ (by omega)

theorem msec_toNat : (uptime / 1000).toNat = uptime.toNat / 1000 := by
  rw [BitVec.toNat_udiv]
  rfl

theorem work_toNat : ((uptime / 1000 &&& 0xFFFFFFFF) / 1000).toNat = keptMillis uptime / 1000 := by
  have hmask : (0xFFFFFFFF : U64).toNat = 2 ^ 32 - 1 := rfl
  rw [BitVec.toNat_udiv, BitVec.toNat_and, msec_toNat, hmask, Nat.and_two_pow_sub_one_eq_mod]
  rfl

theorem sec_toNat : (((uptime / 1000 &&& 0xFFFFFFFF) / 1000).setWidth 32 : U32).toNat = keptMillis uptime / 1000 := by
  have := keptMillis_lt uptime
  rw [BitVec.toNat_setWidth, work_toNat, Nat.mod_eq_of_lt (by omega)]

theorem min_toNat :
    (((uptime / 1000 &&& 0xFFFFFFFF) / 1000 / 60).setWidth 32 : U32).toNat = keptMillis uptime / 60000 := by
  have := keptMillis_lt uptime
  have h60 : (60 : U64).toNat = 60 := rfl
  rw [BitVec.toNat_setWidth, BitVec.toNat_udiv, work_toNat, h60, Nat.div_div_eq_div_mul, Nat.mod_eq_of_lt (by omega)]

theorem hrs_toNat :
    (((uptime / 1000 &&& 0xFFFFFFFF) / 1000 / 60 / 60).setWidth 32 : U32).toNat = keptMillis uptime / 3600000 := by
  have := keptMillis_lt uptime
  have h60 : (60 : U64).toNat = 60 := rfl
  rw [BitVec.toNat_setWidth, BitVec.toNat_udiv, BitVec.toNat_udiv, work_toNat, h60, Nat.div_div_eq_div_mul,
    Nat.div_div_eq_div_mul, Nat.mod_eq_of_lt (by omega)]

theorem msecLow_toNat : ((uptime / 1000).setWidth 32 : U32).toNat = keptMillis uptime := by
  rw [BitVec.toNat_setWidth, msec_toNat]
  rfl

/-- Each of them, in milliseconds kept. -/
theorem stamp_toNat : (stamp uptime).hrs.toNat = keptMillis uptime / 3600000 % 24 ∧
    (stamp uptime).min.toNat = keptMillis uptime / 60000 % 60 ∧
    (stamp uptime).sec.toNat = keptMillis uptime / 1000 % 60 ∧
    (stamp uptime).msec.toNat = keptMillis uptime % 1000 := by
  have hlt := keptMillis_lt uptime
  have h24 : (24 : U32).toNat = 24 := rfl
  have h60 : (60 : U32).toNat = 60 := rfl
  have h1000 : (1000 : U32).toNat = 1000 := rfl
  refine ⟨?_, ?_, ?_, ?_⟩
  · have hdiv : ∀ {h : U32} {n : Nat}, h.toNat = n → (h / 24).toNat = n / 24 := by
      intro h n hn
      rw [BitVec.toNat_udiv, hn, h24]
    refine (sub_toNat (hrs_toNat uptime) (mul_toNat (hdiv (hrs_toNat uptime)) h24 ?_) ?_).trans ?_ <;> omega
  · refine (sub_toNat (min_toNat uptime) (mul_toNat (hrs_toNat uptime) h60 ?_) ?_).trans ?_ <;> omega
  · refine (sub_toNat (sec_toNat uptime) (mul_toNat (min_toNat uptime) h60 ?_) ?_).trans ?_ <;> omega
  · refine (sub_toNat (msecLow_toNat uptime) (mul_toNat (sec_toNat uptime) h1000 ?_) ?_).trans ?_ <;> omega

theorem stamp_inRange : (stamp uptime).InRange := by
  obtain ⟨hhrs, hmin, hsec, hmsec⟩ := stamp_toNat uptime
  exact ⟨by omega, by omega, by omega, by omega⟩

theorem stamp_millis : (stamp uptime).millis = keptMillis uptime % dayMillis := by
  obtain ⟨hhrs, hmin, hsec, hmsec⟩ := stamp_toNat uptime
  rw [Stamp.millis, hhrs, hmin, hsec, hmsec, dayMillis]
  omega

end Fields

/-! ## The time of day -/

/-- 84375 times 2^32 ms are a whole number of days, and no fewer. -/
theorem days_iff (msec k : Nat) : (msec + 2 ^ 32 * k) % dayMillis = msec % dayMillis ↔ 84375 ∣ k := by
  have hday : dayMillis = 2 ^ 10 * 84375 := rfl
  have hwrap : 2 ^ 32 * k = 2 ^ 10 * (2 ^ 22 * k) := by omega
  have hmod : (msec + 2 ^ 32 * k) % dayMillis = msec % dayMillis ↔ dayMillis ∣ msec + 2 ^ 32 * k - msec :=
    eq_comm.trans (Nat.modEq_iff_dvd' (Nat.le_add_right _ _))
  rw [hmod, Nat.add_sub_cancel_left, hday, hwrap, Nat.mul_dvd_mul_iff_left (by decide)]
  exact Nat.Coprime.dvd_mul_left (by decide)

/-- Stamps are those of a clock, and tell the time of day of the milliseconds that are kept:
    that of the uptime exactly where a whole number of days is dropped. Stamps of the same
    2^32 ms differ by their distance, and less than a day apart only those. -/
theorem stamp_timeOfDay (uptime : U64) :
    (stamp uptime).InRange ∧
    (stamp uptime).millis = uptime.toNat / 1000 % 2 ^ 32 % dayMillis ∧
    ((stamp uptime).millis = uptime.toNat / 1000 % dayMillis ↔ 84375 ∣ uptime.toNat / 1000 / 2 ^ 32) ∧
    ∀ later : U64, uptime ≤ later → later.toNat - uptime.toNat < dayMillis * 1000 →
      (((stamp uptime).millis + (later.toNat / 1000 - uptime.toNat / 1000)) % dayMillis = (stamp later).millis ↔
        later.toNat / 1000 / 2 ^ 32 = uptime.toNat / 1000 / 2 ^ 32) := by
  refine ⟨stamp_inRange uptime, stamp_millis uptime, ?_, fun later hle hday => ?_⟩
  · have hsplit := Nat.mod_add_div (uptime.toNat / 1000) (2 ^ 32)
    rw [stamp_millis, keptMillis, ← days_iff (uptime.toNat / 1000 % 2 ^ 32), hsplit, eq_comm]
  · have hle' : uptime.toNat ≤ later.toNat := hle
    rw [dayMillis] at hday
    have hmono := Nat.div_le_div_right (c := 1000) hle'
    have hclose : later.toNat / 1000 ≤ uptime.toNat / 1000 + 86400000 := by omega
    rw [stamp_millis, stamp_millis, keptMillis, keptMillis, Nat.mod_add_mod]
    generalize later.toNat / 1000 = msec' at hmono hclose ⊢
    generalize uptime.toNat / 1000 = msec at hmono hclose ⊢
    -- The kept milliseconds differ by the distance, less 2^32 for each time they were dropped.
    have hdistance : msec % 2 ^ 32 + (msec' - msec) = msec' % 2 ^ 32 + 2 ^ 32 * (msec' / 2 ^ 32 - msec / 2 ^ 32) := by
      omega
    rw [hdistance, days_iff]
    omega

/-- Two messages a second apart. -/
theorem second_apart : ((stamp 3600000000).millis + (3601000000 / 1000 - 3600000000 / 1000)) % dayMillis =
    (stamp 3601000000).millis :=
  ((stamp_timeOfDay 3600000000).2.2.2 3601000000 (by decide) (by decide)).mpr (by decide)

/-- At 2^32 ms it is midnight again, after 17:02:47. -/
theorem midnight_again : ¬ ∀ uptime : U64, (stamp uptime).millis = uptime.toNat / 1000 % dayMillis := by
  intro h
  exact absurd (h 4294967296000) (by decide)

end Iosu.Bsp
