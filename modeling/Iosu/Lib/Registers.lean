/-
  Iosu.Lib.Registers — registers, and the parts of a word that masks select.

  A register reads back what was last written to it. Code that changes a part of one
  reads it, clears some bits and sets others: that puts the bits set into the register
  under the mask of all bits touched (`clear_or`), and leaves the others alone. A part is
  set to a value exactly when what the mask leaves of it was right before (`blend_sets_iff`).

  Parts without a bit in common are the cells of a store: the last write to a part is read
  back from it (`blends_and`), and only the last writes to each count (`blends_eq`).
-/

import Mathlib.Data.List.Basic
import Mathlib.Data.List.Induction
import Mathlib.Tactic.Common

namespace Iosu.Lib

/-- A register of `w` bits in a state. -/
structure Reg (σ : Type) (w : Nat) where
  read : σ → BitVec w
  write : BitVec w → σ → σ
  read_write : ∀ v s, read (write v s) = v

attribute [simp] Reg.read_write

variable {w : Nat}

/-- `reg`, with the bits of `v` under the mask. -/
def blend (mask v reg : BitVec w) : BitVec w := (reg &&& ~~~mask) ||| (v &&& mask)

section Blend

variable (mask k v u reg : BitVec w)

@[simp] theorem getElem_blend {i : Nat} (hi : i < w) : (blend mask v reg)[i] = if mask[i] then v[i] else reg[i] := by
  cases hm : mask[i] <;> simp [blend, hm]

theorem clear_or : (reg &&& ~~~mask) ||| v = blend (mask ||| v) v reg := by
  ext i hi
  cases hv : v[i] <;> cases hm : mask[i] <;> simp [hv, hm]

theorem clear_eq : reg &&& ~~~mask = blend mask 0 reg := by
  ext i hi
  cases hm : mask[i] <;> simp [hm]

theorem or_eq : reg ||| mask = blend mask (BitVec.allOnes w) reg := by
  ext i hi
  cases hm : mask[i] <;> simp [hm]

/-- What the mask leaves of a part decides. -/
theorem blend_sets_iff : blend mask v reg &&& k = v &&& k ↔ reg &&& (k &&& ~~~mask) = v &&& (k &&& ~~~mask) := by
  refine ⟨fun h => ?_, fun h => ?_⟩
  all_goals
    ext i hi
    have hbit := congrArg (fun x : BitVec w => x[i]) h
    cases hm : mask[i] with
    | false => simpa [hm] using hbit
    | true => simp [hm]

variable {mask k}

theorem apart_bit (h : mask &&& k = 0) {i : Nat} (hi : i < w) (hm : mask[i] = true) : k[i] = false := by
  have hbit := congrArg (fun x => BitVec.getLsbD x i) h
  simpa [hi, hm] using hbit

theorem blend_and_apart (h : mask &&& k = 0) : blend mask v reg &&& k = reg &&& k := by
  ext i hi
  cases hm : mask[i] with
  | false => simp [hm]
  | true => simp [apart_bit h hi hm]

theorem blend_and_self : blend mask v reg &&& mask = v &&& mask := by
  ext i hi
  cases hm : mask[i] <;> simp [hm]

end Blend

/-! ## Fields -/

/-- The `n` bits from bit `p` on. -/
def part (p n : Nat) : BitVec w := (BitVec.allOnes n).setWidth w <<< p

@[simp] theorem getElem_part {p n i : Nat} (hi : i < w) :
    (part p n : BitVec w)[i] = (decide (p ≤ i) && decide (i < p + n)) := by
  by_cases hp : p ≤ i
  · have hn : i - p < n ↔ i < p + n := by omega
    simp [part, hp, Nat.not_lt.mpr hp, hn]
  · simp [part, hp, Nat.lt_of_not_le hp]

/-- Two words have the same field exactly when they agree under its mask. -/
theorem extract_eq_iff {p n : Nat} (h : p + n ≤ w) (x y : BitVec w) :
    x.extractLsb' p n = y.extractLsb' p n ↔ x &&& part p n = y &&& part p n := by
  refine ⟨fun heq => ?_, fun heq => ?_⟩
  · ext i hi
    by_cases hin : p ≤ i ∧ i < p + n
    · have hbit := congrArg (fun v => BitVec.getLsbD v (i - p)) heq
      have hlt : i - p < n := by omega
      have hadd : p + (i - p) = i := by omega
      simpa [hin.1, hin.2, hlt, hadd, hi] using hbit
    · have hout : (part p n : BitVec w)[i] = false := by
        rw [getElem_part]
        simpa using hin
      rw [BitVec.getElem_and, BitVec.getElem_and, hout, Bool.and_false, Bool.and_false]
  · ext i hi
    have hbit := congrArg (fun v => BitVec.getLsbD v (p + i)) heq
    have hw : p + i < w := by omega
    simpa [hi, hw] using hbit

/-- A field is set exactly when what the mask leaves of it was right before. -/
theorem extract_blend_iff {p n : Nat} (h : p + n ≤ w) (mask v reg : BitVec w) :
    (blend mask v reg).extractLsb' p n = v.extractLsb' p n ↔
      reg &&& (part p n &&& ~~~mask) = v &&& (part p n &&& ~~~mask) :=
  (extract_eq_iff h _ _).trans (blend_sets_iff mask (part p n) v reg)

/-- A field that lies under the mask is set. -/
theorem extract_blend_inside {p n : Nat} (h : p + n ≤ w) {mask : BitVec w} (hin : part p n &&& ~~~mask = 0)
    (v reg : BitVec w) : (blend mask v reg).extractLsb' p n = v.extractLsb' p n := by
  rw [extract_blend_iff h, hin]
  exact BitVec.and_zero.trans BitVec.and_zero.symm

theorem and_part_one {p : Nat} (hp : p < w) (reg : BitVec w) : reg &&& part p 1 = 0 ↔ reg.getLsbD p = false := by
  refine ⟨fun h => ?_, fun h => ?_⟩
  · have hbit := congrArg (fun v => BitVec.getLsbD v p) h
    simpa [hp] using hbit
  · ext i hi
    by_cases hip : i = p
    · have hbit : reg[i] = false := by simpa [hip, hp] using h
      simp [hbit]
    · have hout : ¬ (p ≤ i ∧ i < p + 1) := by omega
      simp only [BitVec.getElem_and, getElem_part, BitVec.ofNat_eq_ofNat, BitVec.getElem_zero, Bool.and_eq_false_imp]
      exact fun _ => by simpa using hout

/-! ## Parts as a store -/

section Store

variable {ι : Type} [DecidableEq ι] (mask : ι → BitVec w)

def blends (ws : List (ι × BitVec w)) (reg : BitVec w) : BitVec w :=
  ws.foldl (fun reg p => blend (mask p.1) p.2 reg) reg

/-- The value of the last write to a part. -/
def lastTo {β : Type} (i : ι) (ws : List (ι × β)) : Option β := ((ws.filter fun p => p.1 = i).getLast?).map Prod.snd

@[simp] theorem lastTo_nil {β : Type} (i : ι) : lastTo i ([] : List (ι × β)) = none := rfl

theorem lastTo_snoc {β : Type} (i : ι) (ws : List (ι × β)) (p : ι × β) :
    lastTo i (ws ++ [p]) = if p.1 = i then some p.2 else lastTo i ws := by
  by_cases h : p.1 = i <;> simp [lastTo, List.filter_append, h]

theorem lastTo_mem {β : Type} {i : ι} {ws : List (ι × β)} {b : β} (h : lastTo i ws = some b) : (i, b) ∈ ws := by
  obtain ⟨p, hlast, rfl⟩ := Option.map_eq_some_iff.mp h
  obtain ⟨hmem, hi⟩ := List.mem_filter.mp (List.mem_of_getLast? hlast)
  rw [← of_decide_eq_true hi]
  exact hmem

theorem lastTo_map {β γ : Type} (i : ι) (f : β → γ) (ws : List (ι × β)) :
    lastTo i (ws.map fun p => (p.1, f p.2)) = (lastTo i ws).map f := by
  induction ws using List.reverseRecOn with
  | nil => rfl
  | append_singleton ws p ih =>
    rw [List.map_append, List.map_singleton, lastTo_snoc, lastTo_snoc, ih]
    split <;> rfl

omit [DecidableEq ι] in
theorem blends_snoc (ws : List (ι × BitVec w)) (p : ι × BitVec w) (reg : BitVec w) :
    blends mask (ws ++ [p]) reg = blend (mask p.1) p.2 (blends mask ws reg) := by
  unfold blends
  rw [List.foldl_append]
  rfl

omit [DecidableEq ι] in
/-- A bit under none of the masks is kept. -/
theorem getElem_blends {j : Nat} (hj : j < w) {ws : List (ι × BitVec w)} (h : ∀ p ∈ ws, (mask p.1)[j] = false)
    (reg : BitVec w) : (blends mask ws reg)[j] = reg[j] := by
  induction ws using List.reverseRecOn with
  | nil => rfl
  | append_singleton ws p ih =>
    have hp := h p (by simp)
    rw [blends_snoc, getElem_blend, hp, ih fun q hq => h q (List.mem_append_left _ hq)]
    simp

omit [DecidableEq ι] in
theorem blends_and_apart {k : BitVec w} {ws : List (ι × BitVec w)} (h : ∀ p ∈ ws, mask p.1 &&& k = 0)
    (reg : BitVec w) : blends mask ws reg &&& k = reg &&& k := by
  ext j hj
  cases hk : k[j] with
  | false => simp [hk]
  | true =>
    have hout : ∀ p ∈ ws, (mask p.1)[j] = false := by
      intro p hp
      cases hm : (mask p.1)[j] with
      | false => rfl
      | true =>
        rw [apart_bit (h p hp) hj hm] at hk
        cases hk
    simp [hk, getElem_blends mask hj hout]

variable {mask} (hapart : ∀ i j, i ≠ j → mask i &&& mask j = 0)

include hapart

/-- The last write to a part is read back, or what was there before. -/
theorem blends_and (i : ι) (ws : List (ι × BitVec w)) (reg : BitVec w) :
    blends mask ws reg &&& mask i = ((lastTo i ws).getD reg) &&& mask i := by
  induction ws using List.reverseRecOn with
  | nil => rfl
  | append_singleton ws p ih =>
    rw [blends_snoc, lastTo_snoc]
    by_cases h : p.1 = i
    · rw [if_pos h, ← h]
      exact blend_and_self _ _
    · rw [if_neg h, blend_and_apart _ _ (hapart p.1 i h), ih]

/-- Only the last write to each part counts. -/
theorem blends_eq {ws ws' : List (ι × BitVec w)} (h : ∀ i, lastTo i ws = lastTo i ws') (reg : BitVec w) :
    blends mask ws reg = blends mask ws' reg := by
  have hpart : ∀ i, blends mask ws reg &&& mask i = blends mask ws' reg &&& mask i := fun i => by
    rw [blends_and hapart, blends_and hapart, h]
  ext j hj
  by_cases hin : ∃ i, (mask i)[j] = true
  · obtain ⟨i, hi⟩ := hin
    have hbit := congrArg (fun x => BitVec.getLsbD x j) (hpart i)
    simpa [hj, hi] using hbit
  · have hout : ∀ vs : List (ι × BitVec w), (blends mask vs reg)[j] = reg[j] := fun vs =>
      getElem_blends mask hj (fun p _ => by simpa using fun hset => hin ⟨p.1, hset⟩) reg
    rw [hout, hout]

end Store

end Iosu.Lib
