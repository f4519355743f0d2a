/-
  Iosu.Lib.Monitor — safety monitors.

  A monitor reads a trace event by event and refuses it at the first event that its
  state has no step for. So what it accepts is closed under prefixes (`run_append`),
  and a run that never ends can be monitored like one that does. `Keeps M s r Q`: the
  monitor, started in `s`, reads all of the run `r`, and where `r` comes to a value, `Q`
  holds of it and of the state that the monitor is then in. The rules follow the run's
  own structure; `run_inv` and `step_of_split` read facts about a trace off its monitor.
-/

import Iosu.Lib.Run

namespace Iosu.Lib

variable {ε φ α β σ τ ι : Type}

/-- What the next event makes of the state; `none` refuses it. -/
abbrev Monitor (ε σ : Type) := σ → ε → Option σ

namespace Monitor

variable (M : Monitor ε σ)

/-- The state behind a trace that is not refused. -/
def run (s : σ) (t : List ε) : Option σ := t.foldlM M s

@[simp] theorem run_nil (s : σ) : M.run s [] = some s := rfl

@[simp] theorem run_cons (s : σ) (e : ε) (t : List ε) : M.run s (e :: t) = (M s e).bind fun s' => M.run s' t := rfl

theorem run_append (s : σ) (t t' : List ε) : M.run s (t ++ t') = (M.run s t).bind fun s' => M.run s' t' :=
  List.foldlM_append

variable {M}

theorem run_append_eq_some {s s' : σ} {t t' : List ε} :
    M.run s (t ++ t') = some s' ↔ ∃ s₁, M.run s t = some s₁ ∧ M.run s₁ t' = some s' := by
  rw [run_append, Option.bind_eq_some_iff]

theorem run_cons_eq_some {s s' : σ} {e : ε} {t : List ε} :
    M.run s (e :: t) = some s' ↔ ∃ s₁, M s e = some s₁ ∧ M.run s₁ t = some s' := by
  rw [run_cons, Option.bind_eq_some_iff]

/-- The last step. -/
theorem run_snoc_eq_some {s s' : σ} {t : List ε} {e : ε} :
    M.run s (t ++ [e]) = some s' ↔ ∃ s₁, M.run s t = some s₁ ∧ M s₁ e = some s' := by
  simp [run_append_eq_some]

/-- What the steps keep holds behind every trace that is not refused. -/
theorem run_inv {P : σ → Prop} (hstep : ∀ s e s', P s → M s e = some s' → P s') {s s' : σ} {t : List ε} (h : P s)
    (hrun : M.run s t = some s') : P s' := by
  induction t generalizing s with
  | nil =>
    cases hrun
    exact h
  | cons e t ih =>
    obtain ⟨s₁, h₁, h₂⟩ := run_cons_eq_some.mp hrun
    exact ih (hstep s e s₁ h h₁) h₂

/-- Any event of a trace that is not refused was a step of the monitor. -/
theorem step_of_split {s s' : σ} {before after : List ε} {e : ε} (h : M.run s (before ++ e :: after) = some s') :
    ∃ s₁ s₂, M.run s before = some s₁ ∧ M s₁ e = some s₂ ∧ M.run s₂ after = some s' := by
  obtain ⟨s₁, h₁, h⟩ := run_append_eq_some.mp h
  obtain ⟨s₂, h₂, h₃⟩ := run_cons_eq_some.mp h
  exact ⟨s₁, s₂, h₁, h₂, h₃⟩

/-! ## Runs under a monitor -/

/-- The monitor reads all of the run, and where this has a value, `Q` holds. -/
def Keeps (M : Monitor ε σ) (s : σ) (r : Run ε φ α) (Q : α → σ → Prop) : Prop :=
  ∃ s', M.run s r.trace = some s' ∧ ∀ a, r.res = .ok a → Q a s'

theorem keeps_pure {s : σ} {a : α} {Q : α → σ → Prop} (h : Q a s) : M.Keeps s (pure a : Run ε φ α) Q := by
  refine ⟨s, rfl, fun b hb => ?_⟩
  cases hb
  exact h

theorem keeps_spin {s : σ} {Q : α → σ → Prop} : M.Keeps s (Run.spin : Run ε φ α) Q := by
  refine ⟨s, rfl, fun b hb => ?_⟩
  cases hb

theorem keeps_emit {s s' : σ} {e : ε} {Q : Unit → σ → Prop} (hstep : M s e = some s') (h : Q () s') :
    M.Keeps s (Run.emit e : Run ε φ Unit) Q := by
  refine ⟨s', ?_, fun _ _ => h⟩
  simp [hstep]

theorem Keeps.bind {s : σ} {r : Run ε φ α} {f : α → Run ε φ β} {Q : α → σ → Prop} {R : β → σ → Prop}
    (h : M.Keeps s r Q) (hf : ∀ a s', r.res = .ok a → Q a s' → M.Keeps s' (f a) R) : M.Keeps s (r >>= f) R := by
  obtain ⟨s', hrun, hval⟩ := h
  cases hr : r.res with
  | ok a =>
    obtain ⟨s₂, hrun₂, hval₂⟩ := hf a s' hr (hval a hr)
    rw [Run.bind_ok f hr]
    exact ⟨s₂, run_append_eq_some.mpr ⟨s', hrun, hrun₂⟩, hval₂⟩
  | fault e =>
    rw [Run.bind_fault f hr]
    exact ⟨s', hrun, fun b hb => by cases hb⟩
  | spin =>
    rw [Run.bind_spin f hr]
    exact ⟨s', hrun, fun b hb => by cases hb⟩

/-- The same in a run that also carries a state. -/
theorem Keeps.stateful_bind {m : StateT τ (Run ε φ) α} {k : α → StateT τ (Run ε φ) β} {x : τ} {s : σ}
    {Q : α × τ → σ → Prop} {R : β × τ → σ → Prop} (h : M.Keeps s (m x) Q)
    (hk : ∀ a x' s', (m x).res = .ok (a, x') → Q (a, x') s' → M.Keeps s' (k a x') R) : M.Keeps s ((m >>= k) x) R := by
  rw [Run.stateful_bind]
  exact h.bind fun p s' hp hq => hk p.1 p.2 s' hp hq

/-- An event, and what is behind it. -/
theorem keeps_emit_bind {s s' : σ} {e : ε} {f : Unit → Run ε φ β} {R : β → σ → Prop} (hstep : M s e = some s')
    (hf : M.Keeps s' (f ()) R) : M.Keeps s (Run.emit e >>= f) R :=
  (keeps_emit (Q := fun _ s₁ => s₁ = s') hstep rfl).bind fun _ _ _ hs => hs ▸ hf

/-- The events of a component, each read where the state allows it. -/
theorem keeps_mapTrace {g : ι → ε} {s : σ} {r : Run ι φ α} {s' : σ} (h : M.run s (r.trace.map g) = some s')
    {Q : α → σ → Prop} (hQ : ∀ a, r.res = .ok a → Q a s') : M.Keeps s (r.mapTrace g) Q := ⟨s', h, hQ⟩

/-- A run over a list of inputs, by what one input keeps. -/
theorem keeps_iter {step : τ → ι → Run ε φ τ} {P : τ → σ → Prop}
    (hstep : ∀ x i s, P x s → M.Keeps s (step x i) P) (is : List ι) {x : τ} {s : σ} (h : P x s) :
    M.Keeps s (Run.iter step x is) P := by
  induction is generalizing x s with
  | nil => exact keeps_pure h
  | cons i is ih => exact (hstep x i s h).bind fun x' s' _ hx' => ih hx'

end Monitor

end Iosu.Lib
