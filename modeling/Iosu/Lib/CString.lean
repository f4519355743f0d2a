/-
  Iosu.Lib.CString — strings in an address space, and the loops over them.

  `Holds m p xs`: the bytes from `p` on are `xs`. `HoldsStr m p s`: there is the string `s`,
  which has no zero, and a zero behind it. A string is shorter than the address space
  (`HoldsStr.length_lt`). A loop that goes over one until a byte passes a test ends at the
  first such byte, or at the terminator (`HoldsStr.isFirst`).
-/

import Iosu.Lib.Bytes
import Iosu.Lib.Counter
import Mathlib.Logic.Function.Basic
import Mathlib.Data.List.GetD

namespace Iosu.Lib

/-! ## Loops with a bound -/

section Loops

variable {p : Nat → Prop}

theorem IsFirst.unique {k n n' : Nat} (h : IsFirst p k n) (h' : IsFirst p k n') : n = n' := by
  obtain ⟨hle, hn, hnone⟩ := h
  obtain ⟨hle', hn', hnone'⟩ := h'
  rcases Nat.lt_trichotomy n n' with hlt | heq | hlt
  · exact absurd hn (hnone' n hle hlt)
  · exact heq
  · exact absurd hn' (hnone n' hle' hlt)

theorem exists_isFirst {n : Nat} (h : p n) : ∃ i ≤ n, IsFirst p 0 i := by
  classical
  exact ⟨Nat.find ⟨n, h⟩, Nat.find_min' _ h, Nat.zero_le _, Nat.find_spec ⟨n, h⟩, fun j _ hlt => Nat.find_min _ hlt⟩

variable (p) [DecidablePred p]

/-- The first from `k` on for which `p` holds, of the next so many; else the one behind them. -/
def firstBelow : Nat → Nat → Nat
  | 0, k => k
  | n + 1, k => if p k then k else firstBelow n (k + 1)

theorem isFirst_firstBelow (n k : Nat) : IsFirst (fun i => p i ∨ k + n ≤ i) k (firstBelow p n k) := by
  induction n generalizing k with
  | zero => exact ⟨Nat.le_refl k, Or.inr (Nat.le_refl k), fun j hj hlt => absurd hlt (Nat.not_lt.mpr hj)⟩
  | succ n ih =>
    unfold firstBelow
    by_cases h : p k
    · rw [if_pos h]
      exact ⟨Nat.le_refl k, Or.inl h, fun j hj hlt => absurd hlt (Nat.not_lt.mpr hj)⟩
    · rw [if_neg h, isFirst_succ (by rintro (hp | hle) <;> [exact h hp; omega])]
      have heq : ∀ i, k + (n + 1) ≤ i ↔ k + 1 + n ≤ i := fun i => by omega
      simpa only [heq] using ih (k + 1)

/-- A bounded loop ends where the loop without the bound does, or at the bound. -/
theorem firstBelow_eq_min {n m : Nat} (h : IsFirst p 0 m) : firstBelow p n 0 = min m n := by
  refine (isFirst_firstBelow p n 0).unique ?_
  obtain ⟨-, hm, hnone⟩ := h
  rw [Nat.zero_add]
  refine ⟨Nat.zero_le _, ?_, fun j _ hlt => ?_⟩
  · rcases Nat.le_total m n with hle | hle
    · rw [Nat.min_eq_left hle]
      exact Or.inl hm
    · rw [Nat.min_eq_right hle]
      exact Or.inr (Nat.le_refl n)
  · rintro (hj | hj)
    · exact hnone j (Nat.zero_le j) (by omega) hj
    · omega

end Loops

namespace Mem

variable {m m' : Mem} {p q : U32} {xs s t : List U8}

/-! ## Addresses -/

theorem view_add (m : Mem) (p : U32) (k i : Nat) : m.view (p + BitVec.ofNat 32 k) i = m.view p (k + i) := by
  unfold view
  rw [BitVec.ofNat_add, BitVec.add_assoc]

/-- The addresses run around. -/
theorem view_mod (m : Mem) (p : U32) (i : Nat) : m.view p (i % 2 ^ 32) = m.view p i := by
  unfold view
  rw [← BitVec.toNat_ofNat, BitVec.ofNat_toNat, BitVec.setWidth_eq]

theorem view_update (m : Mem) (p : U32) (c : U8) {i j : Nat} (hi : i < 2 ^ 32) (hj : j < 2 ^ 32) :
    Mem.view (Function.update m (p + BitVec.ofNat 32 i) c) p j = if j = i then c else m.view p j := by
  have haddr : p + BitVec.ofNat 32 j = p + BitVec.ofNat 32 i ↔ j = i := by
    rw [BitVec.add_right_inj, ← BitVec.toNat_inj, BitVec.toNat_ofNat, BitVec.toNat_ofNat, Nat.mod_eq_of_lt hi,
      Nat.mod_eq_of_lt hj]
  unfold view
  by_cases h : j = i
  · rw [if_pos h, haddr.mpr h, Function.update_self]
  · rw [if_neg h, Function.update_of_ne (fun heq => h (haddr.mp heq))]

theorem inWindow_add {n i : Nat} (hi : i < n) (hn : n ≤ 2 ^ 32) : InWindow p n (p + BitVec.ofNat 32 i) := by
  unfold InWindow
  rw [BitVec.add_comm, BitVec.add_sub_cancel, BitVec.toNat_ofNat, Nat.mod_eq_of_lt (by omega)]
  exact hi

/-- Whatever is in a window is at some distance from its start. -/
theorem InWindow.exists_add {n : Nat} {a : U32} (h : InWindow p n a) : ∃ i < n, a = p + BitVec.ofNat 32 i := by
  refine ⟨(a - p).toNat, h, ?_⟩
  rw [BitVec.ofNat_toNat, BitVec.setWidth_eq, BitVec.add_comm, BitVec.sub_add_cancel]

/-- The end of a window is a window. -/
theorem InWindow.of_shift {k n : Nat} {a : U32} (h : InWindow (p + BitVec.ofNat 32 k) (n - k) a) (hn : n ≤ 2 ^ 32) :
    InWindow p n a := by
  obtain ⟨i, hi, rfl⟩ := h.exists_add
  rw [BitVec.add_assoc, ← BitVec.ofNat_add]
  exact inWindow_add (by omega) hn

/-- What is in front of the end of a window is not in it. -/
theorem not_inWindow_shift {i k n : Nat} (hi : i < k) (hk : k ≤ n) (hn : n ≤ 2 ^ 32) :
    ¬ InWindow (p + BitVec.ofNat 32 k) (n - k) (p + BitVec.ofNat 32 i) := by
  intro h
  obtain ⟨j, hj, heq⟩ := h.exists_add
  rw [BitVec.add_assoc, ← BitVec.ofNat_add, BitVec.add_right_inj, ← BitVec.toNat_inj, BitVec.toNat_ofNat,
    BitVec.toNat_ofNat, Nat.mod_eq_of_lt (by omega), Nat.mod_eq_of_lt (by omega)] at heq
  omega

/-! ## What is at a place -/

/-- The bytes from `p` on are `xs`. -/
def Holds (m : Mem) (p : U32) (xs : List U8) : Prop := ∀ i (h : i < xs.length), m.view p i = xs[i]

/-- At `p` is the string `s`. -/
structure HoldsStr (m : Mem) (p : U32) (s : List U8) : Prop where
  text : Holds m p s
  terminated : m.view p s.length = 0
  nonzero : ∀ c ∈ s, c ≠ 0

namespace HoldsStr

theorem ne_zero (h : HoldsStr m p s) {i : Nat} (hi : i < s.length) : m.view p i ≠ 0 := by
  rw [h.text i hi]
  exact h.nonzero _ (List.getElem_mem hi)

/-- A byte of the string, and its terminator. -/
theorem getD (h : HoldsStr m p s) {i : Nat} (hi : i ≤ s.length) : m.view p i = s.getD i 0 := by
  rcases Nat.lt_or_eq_of_le hi with hlt | rfl
  · rw [h.text i hlt, List.getD_eq_getElem _ _ hlt]
  · rw [h.terminated, List.getD_eq_default _ _ (Nat.le_refl _)]

/-- Where a loop over the string ends that looks for a byte. -/
theorem isFirst (h : HoldsStr m p s) (f : U8 → Bool) :
    IsFirst (fun i => m.view p i = 0 ∨ f (m.view p i) = true) 0 (s.findIdx f) := by
  refine ⟨Nat.zero_le _, ?_, fun j _ hlt => ?_⟩
  · have hle : s.findIdx f ≤ s.length := List.findIdx_le_length
    rcases Nat.lt_or_eq_of_le hle with hlt | heq
    · right
      rw [h.text _ hlt]
      exact List.findIdx_getElem
    · left
      rw [heq]
      exact h.terminated
  · have hj : j < s.length := Nat.lt_of_lt_of_le hlt List.findIdx_le_length
    rintro (h0 | hf)
    · exact h.ne_zero hj h0
    · rw [h.text j hj, List.not_of_lt_findIdx hlt] at hf
      cases hf

theorem isFirst_end (h : HoldsStr m p s) : IsFirst (fun i => m.view p i = 0) 0 s.length :=
  ⟨Nat.zero_le _, h.terminated, fun _ _ hlt => h.ne_zero hlt⟩

theorem length_lt (h : HoldsStr m p s) : s.length < 2 ^ 32 := by
  by_contra hge
  have hwrapped : m.view p (s.length % 2 ^ 32) = 0 := by rw [view_mod, h.terminated]
  exact h.ne_zero (by omega) hwrapped

/-- The rest of a string. -/
theorem drop (h : HoldsStr m p (s ++ t)) : HoldsStr m (p + BitVec.ofNat 32 s.length) t where
  text i hi := by
    rw [view_add, h.text _ (by rw [List.length_append]; omega), List.getElem_append_right (by omega)]
    simp
  terminated := by rw [view_add, ← List.length_append, h.terminated]
  nonzero c hc := h.nonzero c (List.mem_append_right s hc)

theorem tail (h : HoldsStr m p s) (hne : m.view p 0 ≠ 0) : HoldsStr m (p + BitVec.ofNat 32 1) s.tail := by
  cases s with
  | nil => exact absurd h.terminated hne
  | cons c s => exact HoldsStr.drop (s := [c]) h

/-- Text in front of a string. -/
theorem append (h : HoldsStr m (p + BitVec.ofNat 32 s.length) t) (hs : Holds m p s) (hne : ∀ c ∈ s, c ≠ 0) :
    HoldsStr m p (s ++ t) where
  text i hi := by
    by_cases hlt : i < s.length
    · rw [hs i hlt, List.getElem_append_left hlt]
    · rw [List.length_append] at hi
      obtain ⟨k, rfl⟩ := Nat.exists_eq_add_of_le (Nat.le_of_not_lt hlt)
      rw [← view_add, h.text k (by omega), List.getElem_append_right (by omega)]
      simp
  terminated := by rw [List.length_append, ← view_add, h.terminated]
  nonzero c hc := (List.mem_append.mp hc).elim (hne c) (h.nonzero c)

/-- A string stays where nothing of it is touched. -/
theorem frame (h : HoldsStr m p s) (hsame : ∀ i ≤ s.length, m'.view p i = m.view p i) : HoldsStr m' p s where
  text i hi := by rw [hsame i (Nat.le_of_lt hi), h.text i hi]
  terminated := by rw [hsame _ (Nat.le_refl _), h.terminated]
  nonzero := h.nonzero

end HoldsStr

end Mem

end Iosu.Lib
