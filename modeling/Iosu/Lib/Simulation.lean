/-
  Iosu.Lib.Simulation — one program follows another.

  `Sim R r r'`: the two runs show the same trace and end alike, with values that `R`
  relates; a fault or a run that never ends is matched by the same. The rules follow the
  structure of the two runs, and `sim_iter` lifts what one step keeps to a run over any list
  of inputs. So what is shown of an abstract machine's traces is shown of every program that
  follows it (`Sim.trace`).
-/

import Iosu.Lib.Run

namespace Iosu.Lib.Run

variable {ε φ α β γ δ σ τ ι : Type}

def Sim (R : α → β → Prop) (r : Run ε φ α) (r' : Run ε φ β) : Prop := r.trace = r'.trace ∧ Res.Rel R r.res r'.res

theorem Sim.trace {R : α → β → Prop} {r : Run ε φ α} {r' : Run ε φ β} (h : Sim R r r') : r.trace = r'.trace := h.1

/-- Where one comes to a value, so does the other. -/
theorem Sim.ok {R : α → β → Prop} {r : Run ε φ α} {r' : Run ε φ β} (h : Sim R r r') {a : α} (ha : r.res = .ok a) :
    ∃ b, r'.res = .ok b ∧ R a b := by
  have hrel := h.2
  rw [ha] at hrel
  cases hb : r'.res with
  | ok b =>
    rw [hb] at hrel
    exact ⟨b, rfl, hrel⟩
  | fault e =>
    rw [hb] at hrel
    exact absurd hrel id
  | spin =>
    rw [hb] at hrel
    exact absurd hrel id

/-- And the other way. -/
theorem Sim.ok_right {R : α → β → Prop} {r : Run ε φ α} {r' : Run ε φ β} (h : Sim R r r') {b : β}
    (hb : r'.res = .ok b) : ∃ a, r.res = .ok a ∧ R a b := by
  have hrel := h.2
  rw [hb] at hrel
  cases ha : r.res with
  | ok a =>
    rw [ha] at hrel
    exact ⟨a, rfl, hrel⟩
  | fault e =>
    rw [ha] at hrel
    exact absurd hrel id
  | spin =>
    rw [ha] at hrel
    exact absurd hrel id

/-- The run of the machine is the run of the program. -/
theorem Sim.eq_ok {R : α → β → Prop} {r : Run ε φ α} {t : List ε} {b : β} (h : Sim R r ⟨t, .ok b⟩) :
    ∃ a, r = ⟨t, .ok a⟩ ∧ R a b := by
  obtain ⟨htrace, hrel⟩ := h
  cases hr : r.res with
  | ok a =>
    rw [hr] at hrel
    refine ⟨a, ?_, hrel⟩
    ext1
    · exact htrace
    · exact hr
  | fault e =>
    rw [hr] at hrel
    exact absurd hrel id
  | spin =>
    rw [hr] at hrel
    exact absurd hrel id

theorem sim_pure {R : α → β → Prop} {a : α} {b : β} (h : R a b) : Sim R (pure a : Run ε φ α) (pure b : Run ε φ β) :=
  ⟨rfl, h⟩

theorem sim_emit (e : ε) : Sim (fun _ _ => True) (emit e : Run ε φ Unit) (emit e : Run ε φ Unit) := ⟨rfl, trivial⟩

theorem sim_lift {R : α → β → Prop} {r : Res φ α} {r' : Res φ β} (h : Res.Rel R r r') :
    Sim R (lift r : Run ε φ α) (lift r' : Run ε φ β) := ⟨rfl, h⟩

theorem Sim.bind {R : α → β → Prop} {S : γ → δ → Prop} {r : Run ε φ α} {r' : Run ε φ β} {f : α → Run ε φ γ}
    {g : β → Run ε φ δ} (h : Sim R r r') (hf : ∀ a b, R a b → Sim S (f a) (g b)) : Sim S (r >>= f) (r' >>= g) := by
  obtain ⟨htrace, hrel⟩ := h
  cases hr : r.res with
  | ok a =>
    obtain ⟨b, hb, hab⟩ := Sim.ok ⟨htrace, hrel⟩ hr
    obtain ⟨htrace', hrel'⟩ := hf a b hab
    rw [bind_ok f hr, bind_ok g hb]
    exact ⟨by rw [htrace, htrace'], hrel'⟩
  | fault e =>
    cases hb : r'.res with
    | fault e' =>
      rw [hr, hb] at hrel
      rw [bind_fault f hr, bind_fault g hb]
      exact ⟨htrace, hrel⟩
    | ok b =>
      rw [hr, hb] at hrel
      exact absurd hrel id
    | spin =>
      rw [hr, hb] at hrel
      exact absurd hrel id
  | spin =>
    cases hb : r'.res with
    | spin =>
      rw [bind_spin f hr, bind_spin g hb]
      exact ⟨htrace, trivial⟩
    | ok b =>
      rw [hr, hb] at hrel
      exact absurd hrel id
    | fault e =>
      rw [hr, hb] at hrel
      exact absurd hrel id

section Iter

variable {step : σ → ι → Run ε φ σ} {step' : τ → ι → Run ε φ τ} {R : σ → τ → Prop}

/-- What one step keeps, a run keeps. -/
theorem sim_iter (hstep : ∀ s t i, R s t → Sim R (step s i) (step' t i)) (is : List ι) {s : σ} {t : τ} (h : R s t) :
    Sim R (iter step s is) (iter step' t is) := by
  induction is generalizing s t with
  | nil => exact sim_pure h
  | cons i is ih => exact (hstep s t i h).bind fun s' t' h' => ih h'

end Iter

end Iosu.Lib.Run
