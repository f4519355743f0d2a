/-
  Iosu.Lib.Unwinding — inputs that the others do not see.

  A machine takes inputs from several sides and shows what it does at each. Some are hidden,
  by what they are and by the state they come in. `Unwinds R`: a hidden input leaves a state
  that looks the same, and at any other input the machine shows the same in states that look
  the same, and goes on in such. A hidden input can still be one that the machine never gets
  beyond, and then nobody sees any more of it. But that is all that hidden inputs do to the
  others: what these see of a run begins what they see when the hidden inputs never come, and
  it is all of that unless the run stops at a hidden input (`Unwinds.unseen`).
-/

import Iosu.Lib.Simulation

namespace Iosu.Lib.Run

variable {ε φ σ ι α β : Type}

/-- What comes behind a step, if it ends. -/
def behind (r : Run ε φ σ) (f : σ → List α) : List α :=
  match r.res with
  | .ok s => f s
  | .fault _ | .spin => []

@[simp] theorem behind_ok {r : Run ε φ σ} {s : σ} (h : r.res = .ok s) (f : σ → List α) : behind r f = f s := by
  simp only [behind, h]

theorem behind_none {r : Run ε φ σ} (h : ∀ s, r.res ≠ .ok s) (f : σ → List α) : behind r f = [] := by
  unfold behind
  split
  · exact absurd ‹_› (h _)
  · rfl
  · rfl

theorem iter_cons_trace (step : σ → ι → Run ε φ σ) (s : σ) (i : ι) (is : List ι) :
    (iter step s (i :: is)).trace = (step s i).trace ++ behind (step s i) fun s' => (iter step s' is).trace := by
  show (step s i >>= fun s' => iter step s' is).trace = _
  cases h : (step s i).res with
  | ok s' => rw [bind_trace_ok h, behind_ok h]
  | fault e =>
    rw [bind_fault _ h, behind_none (by simp [h]), List.append_nil]
  | spin =>
    rw [bind_spin _ h, behind_none (by simp [h]), List.append_nil]

section Unwinding

variable (step : σ → ι → Run ε φ σ) (hide : σ → ι → Prop)

structure Unwinds (R : σ → σ → Prop) : Prop where
  alike : ∀ {s t i}, R s t → (hide s i ↔ hide t i)
  hidden : ∀ {s t i s'}, R s t → hide s i → (step s i).res = .ok s' → R s' t
  other : ∀ {s t i}, R s t → ¬ hide s i → Sim R (step s i) (step t i)

variable [∀ s i, Decidable (hide s i)]

/-- The inputs, without those that are hidden in the run that never has them. -/
def without (s : σ) : List ι → List ι
  | [] => []
  | i :: is => if hide s i then without s is else i :: behind (step s i) fun s' => without s' is

/-- The run stops at a hidden input. -/
def stopsHidden (s : σ) : List ι → Bool
  | [] => false
  | i :: is =>
    match (step s i).res with
    | .ok s' => stopsHidden s' is
    | .fault _ | .spin => hide s i

/-- What a run shows at the inputs that are not hidden. -/
def shown (s : σ) : List ι → List ε
  | [] => []
  | i :: is => (if hide s i then [] else (step s i).trace) ++ behind (step s i) fun s' => shown s' is

variable {step hide} {R : σ → σ → Prop}

/-- What a run shows to the others begins what it shows when its hidden inputs never come, and
    is all of that unless the run stops at one of them. -/
theorem Unwinds.unseen (h : Unwinds step hide R) (is : List ι) {s t : σ} (hst : R s t) :
    shown step hide s is <+: (iter step t (without step hide t is)).trace ∧
      (stopsHidden step hide s is = false → shown step hide s is = (iter step t (without step hide t is)).trace) := by
  induction is generalizing s t with
  | nil => exact ⟨List.prefix_rfl, fun _ => rfl⟩
  | cons i is ih =>
    unfold shown without
    by_cases hi : hide s i
    · rw [if_pos hi, if_pos ((h.alike hst).mp hi), List.nil_append]
      unfold stopsHidden
      cases hres : (step s i).res with
      | ok s₁ =>
        rw [behind_ok hres]
        exact ih (h.hidden hst hi hres)
      | fault e =>
        rw [behind_none (by simp [hres])]
        exact ⟨List.nil_prefix, fun hno => absurd hi (of_decide_eq_false hno)⟩
      | spin =>
        rw [behind_none (by simp [hres])]
        exact ⟨List.nil_prefix, fun hno => absurd hi (of_decide_eq_false hno)⟩
    · have hsim : Sim R (step s i) (step t i) := h.other hst hi
      rw [if_neg hi, if_neg fun hi' => hi ((h.alike hst).mpr hi'), iter_cons_trace, hsim.trace]
      by_cases hok : ∃ s₁, (step s i).res = .ok s₁
      · obtain ⟨s₁, h₁⟩ := hok
        obtain ⟨t₁, ht₁, hR⟩ := hsim.ok h₁
        obtain ⟨hpre, hall⟩ := ih hR
        unfold stopsHidden
        simp only [h₁, behind_ok ht₁, behind_ok h₁]
        exact ⟨(List.prefix_append_right_inj _).mpr hpre, fun hno => congrArg _ (hall hno)⟩
      · -- an input that neither run gets beyond is the last of both
        have hs : ∀ s', (step s i).res ≠ .ok s' := fun s' hs' => hok ⟨s', hs'⟩
        have ht : ∀ t', (step t i).res ≠ .ok t' := by
          intro t' ht'
          obtain ⟨s', hs', -⟩ := hsim.ok_right ht'
          exact hs s' hs'
        rw [behind_none hs, behind_none ht]
        exact ⟨List.prefix_rfl, fun _ => rfl⟩

end Unwinding

end Iosu.Lib.Run
