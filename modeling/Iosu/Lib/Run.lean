/-
  Iosu.Lib.Run — runs of imperative code.

  A run is what the code did, in order (`trace`), and how it ended (`res`): with a
  value, in a fault (undefined behaviour was reached), or still going when its fuel
  was used up (`spin`). What was done before a fault or a spin stays in the trace,
  so a statement about everything the code ever did also covers the runs that never
  end. The `stateful` lemmas step through code that also carries a state. `iter` feeds
  a list of inputs to a step that may fail; `iter_inv` is its invariant rule, over the
  trace so far and the state reached.
-/

import Mathlib.Logic.Basic
import Mathlib.Data.List.Basic
import Mathlib.Tactic.Common

namespace Iosu.Lib

inductive Res (φ α : Type) where
  | ok (a : α)
  | fault (f : φ)
  | spin
  deriving DecidableEq, Repr

structure Run (ε φ α : Type) where
  trace : List ε
  res : Res φ α
  deriving DecidableEq, Repr

variable {ε ε' ε'' φ ψ α β σ ι : Type}

namespace Res

def bind (r : Res φ α) (f : α → Res φ β) : Res φ β :=
  match r with
  | .ok a => f a
  | .fault e => .fault e
  | .spin => .spin

instance : Monad (Res φ) where
  pure := .ok
  bind := bind

@[simp] theorem pure_eq (a : α) : (pure a : Res φ α) = .ok a := rfl
@[simp] theorem ok_bind (a : α) (f : α → Res φ β) : (Res.ok a >>= f) = f a := rfl
@[simp] theorem fault_bind (e : φ) (f : α → Res φ β) : (Res.fault e >>= f) = .fault e := rfl
@[simp] theorem spin_bind (f : α → Res φ β) : ((Res.spin : Res φ α) >>= f) = .spin := rfl

theorem bind_eq_ok {r : Res φ α} {f : α → Res φ β} {b : β} :
    (r >>= f) = .ok b ↔ ∃ a, r = .ok a ∧ f a = .ok b := by
  cases r <;> simp

/-- The same outcome with its faults seen as faults of a larger system. -/
def mapFault (g : φ → ψ) : Res φ α → Res ψ α
  | .ok a => .ok a
  | .fault e => .fault (g e)
  | .spin => .spin

@[simp] theorem mapFault_eq_ok {g : φ → ψ} {r : Res φ α} {a : α} : r.mapFault g = .ok a ↔ r = .ok a := by
  cases r <;> simp [mapFault]

theorem mapFault_eq_fault {g : φ → ψ} {r : Res φ α} {e : ψ} :
    r.mapFault g = .fault e ↔ ∃ f, r = .fault f ∧ g f = e := by
  cases r <;> simp [mapFault]

def map (g : α → β) : Res φ α → Res φ β
  | .ok a => .ok (g a)
  | .fault e => .fault e
  | .spin => .spin

/-- The value comes back: no fault, no spin. -/
def Returns (r : Res φ α) : Prop := ∃ a, r = .ok a

instance : (r : Res φ α) → Decidable r.Returns
  | .ok a => isTrue ⟨a, rfl⟩
  | .fault _ | .spin => isFalse fun h => by
    obtain ⟨a, ha⟩ := h
    cases ha

/-- No fault but these. -/
def FaultsIn (P : φ → Prop) (r : Res φ α) : Prop := ∀ e, r = .fault e → P e

theorem faultsIn_ok (P : φ → Prop) (a : α) : (Res.ok a).FaultsIn P := by
  intro e h
  cases h

theorem faultsIn_fault {P : φ → Prop} {e : φ} (he : P e) : (Res.fault e : Res φ α).FaultsIn P := by
  intro e' h
  cases h
  exact he

theorem FaultsIn.bind {P : φ → Prop} {r : Res φ α} {f : α → Res φ β} (hr : r.FaultsIn P)
    (hf : ∀ a, (f a).FaultsIn P) : (r >>= f).FaultsIn P := by
  cases r with
  | ok a => exact hf a
  | fault e => exact faultsIn_fault (hr e rfl)
  | spin =>
    intro e h
    cases h

/-- Two outcomes of one kind, with related values. -/
def Rel (R : α → β → Prop) : Res φ α → Res φ β → Prop
  | .ok a, .ok b => R a b
  | .fault e, .fault e' => e = e'
  | .spin, .spin => True
  | _, _ => False

theorem Rel.refl {R : α → α → Prop} (hR : ∀ a, R a a) (r : Res φ α) : Rel R r r := by
  cases r with
  | ok a => exact hR a
  | fault e => exact rfl
  | spin => trivial

theorem Rel.imp {R S : α → β → Prop} {r : Res φ α} {r' : Res φ β} (h : Rel R r r')
    (hS : ∀ a b, r = .ok a → r' = .ok b → R a b → S a b) : Rel S r r' := by
  cases r <;> cases r' <;> first
    | exact hS _ _ rfl rfl h
    | exact h

theorem Rel.bind {γ δ : Type} {R : α → β → Prop} {S : γ → δ → Prop} {r : Res φ α} {r' : Res φ β} {f : α → Res φ γ}
    {g : β → Res φ δ} (h : Rel R r r') (hf : ∀ a b, R a b → Rel S (f a) (g b)) : Rel S (r >>= f) (r' >>= g) := by
  cases r <;> cases r' <;> first
    | exact hf _ _ h
    | exact h
    | exact absurd h id

/-- Two outcomes that are related to one and the same. -/
theorem Rel.common {γ : Type} {R : α → γ → Prop} {S : β → γ → Prop} {r : Res φ α} {r' : Res φ β} {q : Res φ γ} (h : Rel R r q)
    (h' : Rel S r' q) : Rel (fun a b => ∃ c, R a c ∧ S b c) r r' := by
  cases q <;> cases r <;> cases r' <;> first
    | exact ⟨_, h, h'⟩
    | exact h.trans h'.symm
    | trivial

theorem Rel.mapFault {R : α → β → Prop} {r : Res φ α} {r' : Res φ β} (h : Rel R r r') (g : φ → ψ) :
    Rel R (r.mapFault g) (r'.mapFault g) := by
  cases r <;> cases r' <;> first
    | exact h
    | exact congrArg g h

end Res

namespace Run

def bind (r : Run ε φ α) (f : α → Run ε φ β) : Run ε φ β :=
  match r.res with
  | .ok a => ⟨r.trace ++ (f a).trace, (f a).res⟩
  | .fault e => ⟨r.trace, .fault e⟩
  | .spin => ⟨r.trace, .spin⟩

instance : Monad (Run ε φ) where
  pure a := ⟨[], .ok a⟩
  bind := bind

/-- One observable action. -/
def emit (e : ε) : Run ε φ Unit := ⟨[e], .ok ()⟩

def lift (r : Res φ α) : Run ε φ α := ⟨[], r⟩

def fault (f : φ) : Run ε φ α := ⟨[], .fault f⟩

def spin : Run ε φ α := ⟨[], .spin⟩

/-- The same run with its actions seen as actions of a larger system. -/
def mapTrace (g : ε → ε') (r : Run ε φ α) : Run ε' φ α := ⟨r.trace.map g, r.res⟩

@[ext] theorem ext' {r s : Run ε φ α} (ht : r.trace = s.trace) (hr : r.res = s.res) : r = s := by
  cases r; cases s; simp_all

@[simp] theorem pure_trace (a : α) : (pure a : Run ε φ α).trace = [] := rfl
@[simp] theorem pure_res (a : α) : (pure a : Run ε φ α).res = .ok a := rfl
@[simp] theorem emit_trace (e : ε) : (emit e : Run ε φ Unit).trace = [e] := rfl
@[simp] theorem emit_res (e : ε) : (emit e : Run ε φ Unit).res = .ok () := rfl
@[simp] theorem lift_trace (r : Res φ α) : (lift r : Run ε φ α).trace = [] := rfl
@[simp] theorem lift_res (r : Res φ α) : (lift r : Run ε φ α).res = r := rfl
@[simp] theorem fault_trace (f : φ) : (fault f : Run ε φ α).trace = [] := rfl
@[simp] theorem fault_res (f : φ) : (fault f : Run ε φ α).res = .fault f := rfl
@[simp] theorem spin_trace : (spin : Run ε φ α).trace = [] := rfl
@[simp] theorem spin_res : (spin : Run ε φ α).res = .spin := rfl
@[simp] theorem mapTrace_trace (g : ε → ε') (r : Run ε φ α) : (r.mapTrace g).trace = r.trace.map g := rfl
@[simp] theorem mapTrace_res (g : ε → ε') (r : Run ε φ α) : (r.mapTrace g).res = r.res := rfl

/-! ## Binding -/

theorem bind_ok {r : Run ε φ α} {a : α} (f : α → Run ε φ β) (h : r.res = .ok a) :
    (r >>= f) = ⟨r.trace ++ (f a).trace, (f a).res⟩ := by
  show bind r f = _
  simp [bind, h]

theorem bind_fault {r : Run ε φ α} {e : φ} (f : α → Run ε φ β) (h : r.res = .fault e) :
    (r >>= f) = ⟨r.trace, .fault e⟩ := by
  show bind r f = _
  simp [bind, h]

theorem bind_spin {r : Run ε φ α} (f : α → Run ε φ β) (h : r.res = .spin) : (r >>= f) = ⟨r.trace, .spin⟩ := by
  show bind r f = _
  simp [bind, h]

@[simp] theorem pure_bind (a : α) (f : α → Run ε φ β) : (pure a >>= f) = f a := by
  rw [bind_ok f (pure_res a)]; simp

@[simp] theorem lift_ok_bind (a : α) (f : α → Run ε φ β) : ((lift (.ok a) : Run ε φ α) >>= f) = f a := by
  rw [bind_ok f (lift_res _)]; simp

@[simp] theorem lift_fault_bind (e : φ) (f : α → Run ε φ β) :
    ((lift (.fault e) : Run ε φ α) >>= f) = fault e := bind_fault f rfl

@[simp] theorem lift_spin_bind (f : α → Run ε φ β) : ((lift .spin : Run ε φ α) >>= f) = spin := bind_spin f rfl

@[simp] theorem fault_bind (e : φ) (f : α → Run ε φ β) : ((fault e : Run ε φ α) >>= f) = fault e := bind_fault f rfl

@[simp] theorem emit_bind_trace (e : ε) (f : Unit → Run ε φ β) : (emit e >>= f).trace = e :: (f ()).trace := by
  rw [bind_ok f (emit_res e)]; rfl

@[simp] theorem emit_bind_res (e : ε) (f : Unit → Run ε φ β) : (emit e >>= f).res = (f ()).res := by
  rw [bind_ok f (emit_res e)]

/-- With its trace left out, a run is a computation. -/
theorem bind_res (r : Run ε φ α) (f : α → Run ε φ β) : (r >>= f).res = r.res >>= fun a => (f a).res := by
  cases h : r.res with
  | ok a => rw [bind_ok f h]; rfl
  | fault e => rw [bind_fault f h]; rfl
  | spin => rw [bind_spin f h]; rfl

theorem bind_res_ok {r : Run ε φ α} {f : α → Run ε φ β} {b : β} :
    (r >>= f).res = .ok b ↔ ∃ a, r.res = .ok a ∧ (f a).res = .ok b := by
  cases h : r.res with
  | ok a => rw [bind_ok f h]; simp
  | fault e => rw [bind_fault f h]; simp
  | spin => rw [bind_spin f h]; simp

theorem bind_res_fault {r : Run ε φ α} {f : α → Run ε φ β} {e : φ} :
    (r >>= f).res = .fault e ↔ r.res = .fault e ∨ ∃ a, r.res = .ok a ∧ (f a).res = .fault e := by
  cases h : r.res with
  | ok a => rw [bind_ok f h]; simp
  | fault e => rw [bind_fault f h]; simp
  | spin => rw [bind_spin f h]; simp

theorem mem_bind_trace {r : Run ε φ α} {f : α → Run ε φ β} {e : ε} :
    e ∈ (r >>= f).trace ↔ e ∈ r.trace ∨ ∃ a, r.res = .ok a ∧ e ∈ (f a).trace := by
  cases h : r.res with
  | ok a => rw [bind_ok f h]; simp
  | fault e => rw [bind_fault f h]; simp
  | spin => rw [bind_spin f h]; simp

theorem bind_assoc {γ : Type} (r : Run ε φ α) (f : α → Run ε φ β) (g : β → Run ε φ γ) :
    (r >>= f) >>= g = r >>= fun a => f a >>= g := by
  cases h : r.res with
  | ok a =>
    rw [bind_ok f h, bind_ok _ h]
    rcases hf : f a with ⟨t, b | e | _⟩
    · rw [bind_ok g rfl, bind_ok g rfl]
      simp
    · rw [bind_fault g rfl, bind_fault g rfl]
    · rw [bind_spin g rfl, bind_spin g rfl]
  | fault e =>
    rw [bind_fault f h, bind_fault _ h]
    exact bind_fault g rfl
  | spin =>
    rw [bind_spin f h, bind_spin _ h]
    exact bind_spin g rfl

theorem mapTrace_bind (g : ε → ε') (r : Run ε φ α) (f : α → Run ε φ β) :
    (r >>= f).mapTrace g = r.mapTrace g >>= fun a => (f a).mapTrace g := by
  cases h : r.res with
  | ok a =>
    have hm : (r.mapTrace g).res = .ok a := h
    rw [bind_ok f h, bind_ok _ hm]
    simp [mapTrace]
  | fault e =>
    have hm : (r.mapTrace g).res = .fault e := h
    rw [bind_fault f h, bind_fault _ hm]
    simp [mapTrace]
  | spin =>
    have hm : (r.mapTrace g).res = .spin := h
    rw [bind_spin f h, bind_spin _ hm]
    simp [mapTrace]

theorem mapTrace_mapTrace (g : ε' → ε'') (h : ε → ε') (r : Run ε φ α) :
    (r.mapTrace h).mapTrace g = r.mapTrace fun e => g (h e) := by
  ext1
  · simp [Function.comp_def]
  · rfl

theorem bind_trace_ok {r : Run ε φ α} {f : α → Run ε φ β} {a : α} (h : r.res = .ok a) :
    (r >>= f).trace = r.trace ++ (f a).trace := by rw [bind_ok f h]

/-! ## Faults -/

/-- No fault but these. -/
def FaultsIn (P : φ → Prop) (r : Run ε φ α) : Prop := r.res.FaultsIn P

theorem faultsIn_pure (P : φ → Prop) (a : α) : (pure a : Run ε φ α).FaultsIn P := Res.faultsIn_ok P a

theorem faultsIn_fault {P : φ → Prop} {e : φ} (he : P e) : (fault e : Run ε φ α).FaultsIn P := Res.faultsIn_fault he

theorem faultsIn_lift {P : φ → Prop} {r : Res φ α} (hr : r.FaultsIn P) : (lift r : Run ε φ α).FaultsIn P := hr

theorem FaultsIn.bind {P : φ → Prop} {r : Run ε φ α} {f : α → Run ε φ β} (hr : r.FaultsIn P)
    (hf : ∀ a, (f a).FaultsIn P) : (r >>= f).FaultsIn P := by
  intro e h
  rcases bind_res_fault.mp h with h | ⟨a, -, h⟩
  · exact hr e h
  · exact hf a e h

/-! ## Two runs -/

/-- Two runs that come to related ends. -/
def Rel (R : α → β → Prop) (r : Run ε φ α) (r' : Run ε φ β) : Prop := Res.Rel R r.res r'.res

theorem rel_refl {R : α → α → Prop} (hR : ∀ a, R a a) (r : Run ε φ α) : Rel R r r := Res.Rel.refl hR r.res

theorem rel_pure {R : α → β → Prop} {a : α} {b : β} (h : R a b) :
    Rel R (pure a : Run ε φ α) (pure b : Run ε φ β) := h

theorem Rel.bind {R : α → β → Prop} {S : σ → ι → Prop} {r : Run ε φ α} {r' : Run ε φ β} {f : α → Run ε φ σ}
    {g : β → Run ε φ ι} (hr : Rel R r r') (hf : ∀ a b, R a b → Rel S (f a) (g b)) : Rel S (r >>= f) (r' >>= g) := by
  unfold Rel at hr ⊢
  cases h : r.res with
  | ok a =>
    cases h' : r'.res with
    | ok b =>
      rw [h, h'] at hr
      rw [bind_ok f h, bind_ok g h']
      exact hf a b hr
    | fault e => rw [h, h'] at hr; exact absurd hr id
    | spin => rw [h, h'] at hr; exact absurd hr id
  | fault e =>
    cases h' : r'.res with
    | ok b => rw [h, h'] at hr; exact absurd hr id
    | fault e' =>
      rw [h, h'] at hr
      rw [bind_fault f h, bind_fault g h']
      exact hr
    | spin => rw [h, h'] at hr; exact absurd hr id
  | spin =>
    cases h' : r'.res with
    | ok b => rw [h, h'] at hr; exact absurd hr id
    | fault e => rw [h, h'] at hr; exact absurd hr id
    | spin =>
      rw [bind_spin f h, bind_spin g h']
      trivial

/-! ## Runs with a state -/

section Stateful

variable {m : StateT σ (Run ε φ) α} {k : α → StateT σ (Run ε φ) β} {s s' : σ} {t : List ε} {a : α}

theorem stateful_bind (m : StateT σ (Run ε φ) α) (k : α → StateT σ (Run ε φ) β) (s : σ) :
    (m >>= k) s = m s >>= fun p => k p.1 p.2 := rfl

theorem stateful_get (s : σ) : (get : StateT σ (Run ε φ) σ) s = ⟨[], .ok (s, s)⟩ := rfl

theorem stateful_modify (f : σ → σ) (s : σ) : (modify f : StateT σ (Run ε φ) PUnit) s = ⟨[], .ok (PUnit.unit, f s)⟩ := rfl

/-- A step that comes back. -/
theorem stateful_bind_ok (h : m s = ⟨t, .ok (a, s')⟩) (k : α → StateT σ (Run ε φ) β) :
    (m >>= k) s = ⟨t ++ (k a s').trace, (k a s').res⟩ := by
  rw [stateful_bind, h]
  rfl

/-- One that also shows nothing. -/
theorem stateful_bind_silent (h : m s = ⟨[], .ok (a, s')⟩) (k : α → StateT σ (Run ε φ) β) : (m >>= k) s = k a s' := by
  rw [stateful_bind_ok h]
  rfl

/-- What is behind the last step shows nothing more. -/
theorem stateful_bind_last {r : Res φ (β × σ)} (h : m s = ⟨t, .ok (a, s')⟩) (hk : k a s' = ⟨[], r⟩) :
    (m >>= k) s = ⟨t, r⟩ := by
  rw [stateful_bind_ok h, hk, List.append_nil]

/-- The same, whether the step comes back or not. -/
theorem stateful_bind_tail (m : StateT σ (Run ε φ) α) (hk : ∀ a s, (k a s).trace = []) (s : σ) :
    ((m >>= k) s).trace = (m s).trace := by
  rw [stateful_bind]
  cases hr : (m s).res with
  | ok p => rw [bind_ok _ hr, hk, List.append_nil]
  | fault f => rw [bind_fault _ hr]
  | spin => rw [bind_spin _ hr]

/-- A sequence that comes back: so did its first step, and the traces are joined. -/
theorem stateful_bind_returns {p : β × σ} (h : ((m >>= k) s).res = .ok p) :
    ∃ a s', (m s).res = .ok (a, s') ∧ (k a s').res = .ok p ∧ ((m >>= k) s).trace = (m s).trace ++ (k a s').trace := by
  rw [stateful_bind] at h ⊢
  obtain ⟨q, hm, hk⟩ := bind_res_ok.mp h
  exact ⟨q.1, q.2, hm, hk, bind_trace_ok hm⟩

/-- The run does not come back. -/
def Stuck (r : Run ε φ α) : Prop := ∀ a, r.res ≠ .ok a

theorem Stuck.bind (h : Stuck (m s)) (k : α → StateT σ (Run ε φ) β) : Stuck ((m >>= k) s) := by
  intro q hq
  rw [stateful_bind] at hq
  obtain ⟨p, hp, -⟩ := bind_res_ok.mp hq
  exact h p hp

/-- What is behind a step that comes back does not. -/
theorem Stuck.behind (h : m s = ⟨t, .ok (a, s')⟩) (hk : Stuck (k a s')) : Stuck ((m >>= k) s) := by
  rw [stateful_bind_ok h]
  exact hk

end Stateful

/-! ## Runs over a list of inputs -/

/-- The state after the inputs, taken one after the other. -/
def iter (step : σ → ι → Run ε φ σ) (s : σ) : List ι → Run ε φ σ
  | [] => pure s
  | i :: is => step s i >>= fun s' => iter step s' is

theorem iter_append (step : σ → ι → Run ε φ σ) (s : σ) (is js : List ι) :
    iter step s (is ++ js) = iter step s is >>= fun s' => iter step s' js := by
  induction is generalizing s with
  | nil => simp [iter]
  | cons i is ih => simp only [List.cons_append, iter, ih, Run.bind_assoc]

theorem mem_iter_trace {step : σ → ι → Run ε φ σ} {s : σ} {is : List ι} {e : ε} (he : e ∈ (iter step s is).trace) :
    ∃ s', ∃ i ∈ is, e ∈ (step s' i).trace := by
  induction is generalizing s with
  | nil => cases he
  | cons i is ih =>
    rcases mem_bind_trace.mp he with he | ⟨s₁, -, he⟩
    · exact ⟨s, i, List.mem_cons_self, he⟩
    · obtain ⟨s', j, hj, he'⟩ := ih he
      exact ⟨s', j, List.mem_cons_of_mem i hj, he'⟩

theorem mapTrace_iter (g : ε → ε') (step : σ → ι → Run ε φ σ) (s : σ) (is : List ι) :
    (iter step s is).mapTrace g = iter (fun s i => (step s i).mapTrace g) s is := by
  induction is generalizing s with
  | nil => rfl
  | cons i is ih => simp only [iter, mapTrace_bind, ih]

/-- What holds of the empty trace and the first state, and is kept by every step
    that comes to an end, holds of the trace and the state of every run. -/
theorem iter_inv {step : σ → ι → Run ε φ σ} (P : List ε → σ → Prop)
    (hstep : ∀ t s i s', P t s → (step s i).res = .ok s' → P (t ++ (step s i).trace) s') :
    ∀ (is : List ι) (t : List ε) (s s' : σ), P t s → (iter step s is).res = .ok s' →
      P (t ++ (iter step s is).trace) s' := by
  intro is
  induction is with
  | nil =>
    intro t s s' h hr
    simp only [iter, pure_res, Res.ok.injEq] at hr
    subst hr
    simpa [iter] using h
  | cons i is ih =>
    intro t s s' h hr
    obtain ⟨s1, h1, h2⟩ := bind_res_ok.mp hr
    have := ih _ s1 s' (hstep t s i s1 h h1) h2
    rw [iter, bind_trace_ok h1, ← List.append_assoc]
    exact this

/-- `Q` of every input that the run takes, and of the state that it meets. -/
def Throughout (step : σ → ι → Run ε φ σ) (Q : σ → ι → Prop) : σ → List ι → Prop
  | _, [] => True
  | s, i :: is => Q s i ∧ ∀ s', (step s i).res = .ok s' → Throughout step Q s' is

theorem throughout_of_forall {step : σ → ι → Run ε φ σ} {Q : σ → ι → Prop} (h : ∀ s i, Q s i) (s : σ) (is : List ι) :
    Throughout step Q s is := by
  induction is generalizing s with
  | nil => trivial
  | cons i is ih => exact ⟨h s i, fun s' _ => ih s'⟩

/-- Where `Q` says of an input exactly that the step keeps `P`, a run meets `Q`
    throughout exactly when `P` holds in every state that it reaches. -/
theorem throughout_iff {step : σ → ι → Run ε φ σ} {P : σ → Prop} {Q : σ → ι → Prop}
    (hstep : ∀ s i, P s → (Q s i ↔ ∀ s', (step s i).res = .ok s' → P s')) {s : σ} (h : P s) (is : List ι) :
    Throughout step Q s is ↔ ∀ done rest s', is = done ++ rest → (iter step s done).res = .ok s' → P s' := by
  induction is generalizing s with
  | nil =>
    refine ⟨?_, fun _ => trivial⟩
    intro _ done rest s' hsplit hrun
    obtain ⟨rfl, -⟩ := List.append_eq_nil_iff.mp hsplit.symm
    cases hrun
    exact h
  | cons i is ih =>
    refine ⟨?_, ?_⟩
    · rintro ⟨hq, hrest⟩ done rest s' hsplit hrun
      cases done with
      | nil =>
        cases hrun
        exact h
      | cons j done =>
        obtain ⟨rfl, htail⟩ := List.cons_eq_cons.mp hsplit
        obtain ⟨s₁, h₁, h₂⟩ := bind_res_ok.mp hrun
        have hp := (hstep s i h).mp hq s₁ h₁
        exact (ih hp).mp (hrest s₁ h₁) done rest s' htail h₂
    · intro hall
      have hq : Q s i := by
        refine (hstep s i h).mpr fun s' hs' => ?_
        refine hall [i] is s' rfl (bind_res_ok.mpr ⟨s', hs', rfl⟩)
      refine ⟨hq, fun s₁ h₁ => ?_⟩
      refine (ih ((hstep s i h).mp hq s₁ h₁)).mpr fun done rest s' hsplit hrun => ?_
      exact hall (i :: done) rest s' (by rw [hsplit]; rfl) (bind_res_ok.mpr ⟨s₁, h₁, hrun⟩)

end Run

end Iosu.Lib
