/-
  Iosu.Lib.Slots — who holds a slot, from the history of the slots.

  Slots are taken and given back; `holders` replays the history, from slots nobody
  holds. `holders_eq_some_iff` is what a history is read for: a slot has a holder
  exactly when the last touch of it was a taking, and it is the one who took it.
-/

import Mathlib.Logic.Function.Basic
import Mathlib.Data.List.Basic
import Mathlib.Tactic.Common

namespace Iosu.Lib.Slots

variable {ι π : Type}

inductive Touch (ι π : Type) where
  | opened (i : ι) (p : π)
  | closed (i : ι)

namespace Touch

def slot : Touch ι π → ι
  | .opened i _ => i
  | .closed i => i

/-- The slot's holder behind the touch. -/
def holder : Touch ι π → Option π
  | .opened _ p => some p
  | .closed _ => none

theorem eq_opened_iff {t : Touch ι π} {i : ι} {p : π} : t = .opened i p ↔ t.slot = i ∧ t.holder = some p := by
  cases t <;> simp [slot, holder]

end Touch

variable [DecidableEq ι]

def apply (h : ι → Option π) (t : Touch ι π) : ι → Option π := Function.update h t.slot t.holder

def holders (ts : List (Touch ι π)) : ι → Option π := ts.foldl apply fun _ => none

@[simp] theorem holders_nil : holders ([] : List (Touch ι π)) = fun _ => none := rfl

theorem holders_snoc (ts : List (Touch ι π)) (t : Touch ι π) : holders (ts ++ [t]) = apply (holders ts) t := by
  unfold holders
  rw [List.foldl_append]
  rfl

theorem apply_slot (h : ι → Option π) (t : Touch ι π) : apply h t t.slot = t.holder := Function.update_self _ _ _

theorem apply_ne (h : ι → Option π) {t : Touch ι π} {i : ι} (hi : t.slot ≠ i) : apply h t i = h i :=
  Function.update_of_ne (Ne.symm hi) _ _

/-- Touches of other slots change nothing. -/
theorem holders_append_other {i : ι} (before after : List (Touch ι π)) (ha : ∀ u ∈ after, u.slot ≠ i) :
    holders (before ++ after) i = holders before i := by
  induction after generalizing before with
  | nil => rw [List.append_nil]
  | cons u after ih =>
    have hu : u.slot ≠ i := ha u List.mem_cons_self
    have hrest : holders (before ++ [u] ++ after) i = holders (before ++ [u]) i :=
      ih _ fun v hv => ha v (List.mem_cons_of_mem u hv)
    rw [List.append_cons, hrest, holders_snoc, apply_ne _ hu]

/-- A slot that was touched has a last touch. -/
theorem exists_last_touch (i : ι) (ts : List (Touch ι π)) :
    (∀ u ∈ ts, u.slot ≠ i) ∨ ∃ before t after, ts = before ++ t :: after ∧ t.slot = i ∧ ∀ u ∈ after, u.slot ≠ i := by
  induction ts with
  | nil => exact Or.inl fun u hu => absurd hu List.not_mem_nil
  | cons t ts ih =>
    rcases ih with hnone | ⟨before, u, after, hts, hu, hafter⟩
    · by_cases ht : t.slot = i
      · exact Or.inr ⟨[], t, ts, rfl, ht, hnone⟩
      · refine Or.inl fun u hu => ?_
        rcases List.mem_cons.mp hu with rfl | hu
        · exact ht
        · exact hnone u hu
    · exact Or.inr ⟨t :: before, u, after, by rw [hts]; rfl, hu, hafter⟩

/-- `p` took the slot and it was not touched since. -/
def LastOpened (i : ι) (p : π) (ts : List (Touch ι π)) : Prop :=
  ∃ before after, ts = before ++ .opened i p :: after ∧ ∀ u ∈ after, u.slot ≠ i

theorem holders_eq_some_iff (i : ι) (p : π) (ts : List (Touch ι π)) :
    holders ts i = some p ↔ LastOpened i p ts := by
  have hlast : ∀ before t after, t.slot = i → (∀ u ∈ after, u.slot ≠ i) →
      holders (before ++ t :: after : List (Touch ι π)) i = t.holder := by
    intro before t after ht hafter
    rw [List.append_cons, holders_append_other _ after hafter, holders_snoc, ← ht, apply_slot]
  refine ⟨?_, ?_⟩
  · intro h
    rcases exists_last_touch i ts with hnone | ⟨before, t, after, hts, ht, hafter⟩
    · have : holders ([] ++ ts) i = none := holders_append_other [] ts hnone
      rw [List.nil_append, h] at this
      cases this
    · rw [hts, hlast before t after ht hafter] at h
      have hopened : t = .opened i p := Touch.eq_opened_iff.mpr ⟨ht, h⟩
      exact ⟨before, after, by rw [hts, hopened], hafter⟩
  · intro h
    obtain ⟨before, after, rfl, hafter⟩ := h
    exact hlast before (.opened i p) after rfl hafter

end Iosu.Lib.Slots
