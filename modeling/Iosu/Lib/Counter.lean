/-
  Iosu.Lib.Counter — counters that run around, and waiting on one.

  A counter of `w` bits shows a true count modulo 2^w. The difference of two samples is
  the distance between them modulo 2^w (`shown_sub`), so it is never more than that
  distance. `firstFrom` polls until something holds. Polling until the difference is `T`
  leaves at the first sample that is `T` on, when consecutive samples are no further apart
  than what `T` leaves of the range (`isFirst_shown_iff`).
-/

import Iosu.Lib.Run
import Mathlib.Algebra.Group.Nat.Defs
import Mathlib.Order.Monotone.Defs
import Mathlib.Order.Nat

namespace Iosu.Lib

/-! ## Polling -/

section Polling

variable {φ : Type} (p : Nat → Prop)

/-- `n` is the first from `k` on for which `p` holds. -/
def IsFirst (k n : Nat) : Prop := k ≤ n ∧ p n ∧ ∀ j, k ≤ j → j < n → ¬ p j

/-- Polling from `k` on, with so many polls to go. -/
def firstFrom [DecidablePred p] : Nat → Nat → Res φ Nat
  | 0, _ => .spin
  | fuel + 1, k => if p k then .ok k else firstFrom fuel (k + 1)

variable {p}

theorem isFirst_self {k n : Nat} (h : p k) : IsFirst p k n ↔ n = k := by
  constructor
  · rintro ⟨hle, -, hnone⟩
    by_contra hne
    exact hnone k (Nat.le_refl k) (by omega) h
  · rintro rfl
    exact ⟨Nat.le_refl n, h, fun j hle hlt => absurd hlt (by omega)⟩

theorem isFirst_succ {k n : Nat} (h : ¬ p k) : IsFirst p k n ↔ IsFirst p (k + 1) n := by
  constructor
  · rintro ⟨hle, hn, hnone⟩
    have hne : n ≠ k := fun heq => h (heq ▸ hn)
    exact ⟨by omega, hn, fun j hj hlt => hnone j (by omega) hlt⟩
  · rintro ⟨hle, hn, hnone⟩
    refine ⟨by omega, hn, fun j hj hlt => ?_⟩
    by_cases hk : j = k
    · rw [hk]
      exact h
    · exact hnone j (by omega) hlt

theorem firstFrom_ok_iff [DecidablePred p] {fuel k n : Nat} :
    (firstFrom p fuel k : Res φ Nat) = .ok n ↔ n < k + fuel ∧ IsFirst p k n := by
  induction fuel generalizing k with
  | zero =>
    constructor
    · intro h
      cases h
    · rintro ⟨hlt, hle, -⟩
      omega
  | succ fuel ih =>
    unfold firstFrom
    by_cases h : p k
    · rw [if_pos h, isFirst_self h, Res.ok.injEq]
      omega
    · rw [if_neg h, ih, ← isFirst_succ h, Nat.add_right_comm, Nat.add_assoc]

/-- With enough polls to go, polling ends, and then at the first. -/
theorem firstFrom_ends_iff [DecidablePred p] {k n : Nat} :
    (∃ fuel, (firstFrom p fuel k : Res φ Nat) = .ok n) ↔ IsFirst p k n := by
  constructor
  · rintro ⟨fuel, h⟩
    exact (firstFrom_ok_iff.mp h).2
  · intro h
    exact ⟨n + 1, firstFrom_ok_iff.mpr ⟨by omega, h⟩⟩

end Polling

/-! ## Counts -/

/-- A count that never goes back, as it stands at each of its samples. -/
structure Count where
  sample : Nat → Nat
  mono : Monotone sample

namespace Count

variable (c : Count) {w : Nat}

/-- What a counter of `w` bits shows. -/
def shown (w k : Nat) : BitVec w := BitVec.ofNat w (c.sample k)

/-- The distance from the first sample. -/
def elapsed (k : Nat) : Nat := c.sample k - c.sample 0

@[simp] theorem elapsed_zero : c.elapsed 0 = 0 := by simp [elapsed]

theorem elapsed_succ_le {gap k : Nat} (h : c.sample (k + 1) - c.sample k ≤ gap) :
    c.elapsed (k + 1) ≤ c.elapsed k + gap := by
  have := c.mono (Nat.zero_le k)
  simp only [elapsed]
  omega

theorem shown_sub (k : Nat) : (c.shown w k - c.shown w 0).toNat = c.elapsed k % 2 ^ w := by
  have hsplit : c.sample k = c.elapsed k + c.sample 0 := (Nat.sub_add_cancel (c.mono (Nat.zero_le k))).symm
  rw [shown, shown, hsplit, BitVec.ofNat_add, BitVec.add_sub_cancel, BitVec.toNat_ofNat]

/-- However often it runs around, a counter shows no more than there was. -/
theorem le_elapsed {T : BitVec w} {k : Nat} (h : ¬ c.shown w k - c.shown w 0 < T) : T.toNat ≤ c.elapsed k := by
  rw [BitVec.lt_def, shown_sub, Nat.not_lt] at h
  exact Nat.le_trans h (Nat.mod_le _ _)

section Gaps

variable {c} {T : BitVec w} (hgap : ∀ k, c.sample (k + 1) - c.sample k ≤ 2 ^ w - T.toNat)

include hgap

/-- Up to the first sample that is `T` on, the difference shown is the distance. -/
theorem shown_sub_exact (hT : 0 < T.toNat) {n : Nat} (h : ∀ j < n, c.elapsed j < T.toNat) :
    (c.shown w n - c.shown w 0).toNat = c.elapsed n := by
  rw [shown_sub]
  apply Nat.mod_eq_of_lt
  have hT' := T.isLt
  cases n with
  | zero =>
    rw [elapsed_zero]
    omega
  | succ n =>
    have hlast := h n (Nat.lt_succ_self n)
    have := c.elapsed_succ_le (hgap n)
    omega

theorem isFirst_shown_iff {n : Nat} :
    IsFirst (fun k => ¬ c.shown w k - c.shown w 0 < T) 1 n ↔ IsFirst (fun k => T.toNat ≤ c.elapsed k) 1 n := by
  by_cases hT : 0 < T.toNat
  · -- Where all samples before are short of `T`, being `T` on shows.
    have hshows : ∀ k, (∀ j < k, c.elapsed j < T.toNat) →
        (¬ c.shown w k - c.shown w 0 < T ↔ T.toNat ≤ c.elapsed k) := by
      intro k hbelow
      rw [BitVec.lt_def, shown_sub_exact hgap hT hbelow, Nat.not_lt]
    constructor
    · rintro ⟨hle, hn, hnone⟩
      have hbelow : ∀ k ≤ n, ∀ j < k, c.elapsed j < T.toNat := by
        intro k
        induction k with
        | zero => exact fun _ j hj => absurd hj (Nat.not_lt_zero j)
        | succ k ih =>
          intro hk j hj
          have hprev := ih (by omega)
          rcases Nat.lt_succ_iff_lt_or_eq.mp hj with hj | rfl
          · exact hprev j hj
          · by_cases h0 : j = 0
            · simpa [h0] using hT
            · exact Nat.not_le.mp fun hT' => hnone j (by omega) hk ((hshows j hprev).mpr hT')
      exact ⟨hle, c.le_elapsed hn, fun j _ hj => Nat.not_le.mpr (hbelow n (Nat.le_refl n) j hj)⟩
    · rintro ⟨hle, hn, hnone⟩
      have hbelow : ∀ j < n, c.elapsed j < T.toNat := by
        intro j hj
        by_cases h0 : j = 0
        · simpa [h0] using hT
        · exact Nat.not_le.mp (hnone j (by omega) hj)
      refine ⟨hle, (hshows n hbelow).mpr hn, fun j hj hlt hshown => hnone j hj hlt ?_⟩
      exact (hshows j fun i hi => hbelow i (by omega)).mp hshown
  · -- A difference of zero is there at once.
    have hzero : T.toNat = 0 := by omega
    have hleft : ¬ c.shown w 1 - c.shown w 0 < T := by
      rw [BitVec.lt_def, hzero]
      exact Nat.not_lt_zero _
    rw [isFirst_self hleft, isFirst_self (by omega)]

end Gaps

end Count

end Iosu.Lib
