/-
  Iosu.Lib.Frame — what a run leaves of its state.

  A program shows in its trace whatever it does to its state, and otherwise only hands the
  state on. A `Frame` is a bound on the changes, closed under doing nothing and under doing
  one thing after the other; `Framed F W s r g` says that `r`, started in `s`, stays within
  it where all its events are `W`, `g` being the state in the value of the run. The rules
  follow the run's structure, down to the `switch` and the run over a list of inputs. So a
  change that goes beyond the frame has its event in the trace (`Framed.event`). `Stays` is
  the same of a function that shows nothing.
-/

import Iosu.Lib.Switch

namespace Iosu.Lib

open Iosu.Lib.Switch

variable {ε ε' φ α β σ τ ι κ : Type}

/-! ## Frames -/

structure Frame (σ : Type) where
  rel : σ → σ → Prop
  refl : ∀ s, rel s s
  trans : ∀ {s t u}, rel s t → rel t u → rel s u

namespace Frame

/-- The invariant stays, and with it what `f` shows. -/
def keeping (P : σ → Prop) (f : σ → κ) : Frame σ where
  rel s t := P s → P t ∧ f t = f s
  refl := fun _ h => ⟨h, rfl⟩
  trans := fun hst htu h => ⟨(htu (hst h).1).1, (htu (hst h).1).2.trans (hst h).2⟩

@[simp] theorem keeping_rel {P : σ → Prop} {f : σ → κ} {s t : σ} : (keeping P f).rel s t ↔ (P s → P t ∧ f t = f s) :=
  Iff.rfl

/-- The same, of a component of the state. -/
def comap (F : Frame σ) (g : τ → σ) : Frame τ where
  rel s t := F.rel (g s) (g t)
  refl := fun s => F.refl (g s)
  trans := F.trans

@[simp] theorem comap_rel {F : Frame σ} {g : τ → σ} {s t : τ} : (F.comap g).rel s t ↔ F.rel (g s) (g t) := Iff.rfl

end Frame

/-! ## Functions within a frame -/

section Stays

variable {F : Frame σ}

def Stays (F : Frame σ) (f : StateT σ (Res φ) α) : Prop := ∀ s a s', f s = .ok (a, s') → F.rel s s'

theorem stays_pure (a : α) : Stays F (pure a : StateT σ (Res φ) α) := by
  intro s a' s' h
  cases h
  exact F.refl s

theorem stays_get : Stays F (get : StateT σ (Res φ) σ) := by
  intro s a s' h
  cases h
  exact F.refl s

theorem stays_modify {f : σ → σ} (hf : ∀ s, F.rel s (f s)) : Stays F (modify f : StateT σ (Res φ) PUnit) := by
  intro s a s' h
  cases h
  exact hf s

theorem Stays.bind {m : StateT σ (Res φ) α} {k : α → StateT σ (Res φ) β} (hm : Stays F m) (hk : ∀ a, Stays F (k a)) :
    Stays F (m >>= k) := by
  intro s c s' h
  have hrun : (m s >>= fun p => k p.1 p.2) = .ok (c, s') := h
  obtain ⟨⟨a, s₁⟩, h₁, h₂⟩ := Res.bind_eq_ok.mp hrun
  exact F.trans (hm s a s₁ h₁) (hk a s₁ c s' h₂)

end Stays

/-! ## Runs within a frame -/

namespace Run

def Framed (F : Frame σ) (W : ε → Prop) (s : σ) (r : Run ε φ α) (g : α → σ) : Prop :=
  (∀ e ∈ r.trace, W e) → ∀ a, r.res = .ok a → F.rel s (g a)

variable {F : Frame σ} {W : ε → Prop} {s : σ}

/-- The state is handed on. -/
theorem framed_pure {a : α} {g : α → σ} (h : g a = s) : Framed F W s (pure a : Run ε φ α) g := by
  intro _ b hb
  cases hb
  rw [h]
  exact F.refl s

theorem framed_lift {r : Res φ α} {g : α → σ} (h : ∀ a, r = .ok a → F.rel s (g a)) :
    Framed F W s (lift r : Run ε φ α) g := fun _ => h

theorem framed_fault {e : φ} {g : α → σ} : Framed F W s (fault e : Run ε φ α) g := by
  intro _ a ha
  cases ha

theorem framed_spin {g : α → σ} : Framed F W s (spin : Run ε φ α) g := by
  intro _ a ha
  cases ha

theorem Framed.bind {r : Run ε φ α} {f : α → Run ε φ β} {g : α → σ} {k : β → σ} (h : Framed F W s r g)
    (hf : ∀ a, Framed F W (g a) (f a) k) : Framed F W s (r >>= f) k := by
  intro hW b hb
  obtain ⟨a, ha, hb'⟩ := bind_res_ok.mp hb
  rw [bind_trace_ok ha] at hW
  exact F.trans (h (fun e he => hW e (List.mem_append_left _ he)) a ha)
    (hf a (fun e he => hW e (List.mem_append_right _ he)) b hb')

/-- A step that leaves the state out. -/
theorem Framed.bind_silent {r : Run ε φ α} {f : α → Run ε φ β} {k : β → σ} (hf : ∀ a, Framed F W s (f a) k) :
    Framed F W s (r >>= f) k :=
  Framed.bind (g := fun _ => s) (fun _ _ _ => F.refl s) hf

theorem Framed.ite {p : Prop} [Decidable p] {r r' : Run ε φ α} {g : α → σ} (h : Framed F W s r g)
    (h' : Framed F W s r' g) : Framed F W s (if p then r else r') g := by
  split
  · exact h
  · exact h'

/-- An event allows what comes behind it. -/
theorem framed_emit_bind {e : ε} {f : Unit → Run ε φ α} {g : α → σ} (h : W e → Framed F W s (f ()) g) :
    Framed F W s (emit e >>= f) g := by
  intro hW a ha
  rw [emit_bind_trace] at hW
  rw [emit_bind_res] at ha
  exact h (hW e List.mem_cons_self) (fun e' he' => hW e' (List.mem_cons_of_mem e he')) a ha

theorem Framed.mapTrace {V : ε' → Prop} {h : ε → ε'} {r : Run ε φ α} {g : α → σ} (hr : Framed F W s r g)
    (hV : ∀ e, V (h e) → W e) : Framed F V s (r.mapTrace h) g := by
  intro hall
  refine hr fun e he => hV e (hall (h e) ?_)
  rw [mapTrace_trace]
  exact List.mem_map_of_mem he

theorem framed_iter {step : σ → ι → Run ε φ σ} (hstep : ∀ s i, Framed F W s (step s i) id) (is : List ι) :
    Framed F W s (iter step s is) id := by
  induction is generalizing s with
  | nil => exact framed_pure rfl
  | cons i is ih => exact (hstep s i).bind fun s' => ih

/-- What is not within the frame is seen. -/
theorem Framed.event {r : Run ε φ α} {g : α → σ} (h : Framed F W s r g) {a : α} (ha : r.res = .ok a)
    (hout : ¬ F.rel s (g a)) : ∃ e ∈ r.trace, ¬ W e := by
  by_contra hno
  simp only [not_exists, not_and, not_not] at hno
  exact hout (h hno a ha)

end Run

namespace Switch

variable {F : Frame τ} {W : ε → Prop} {g : σ → τ} {dflt : σ → Run ε φ σ}

theorem runFrom_framed (hd : ∀ s, (dflt s).Framed F W (g s) g) (cases : List (Case κ ε φ σ))
    (hc : ∀ c ∈ cases, ∀ s, (c.body s).Framed F W (g s) g) (s : σ) : (runFrom dflt cases s).Framed F W (g s) g := by
  induction cases generalizing s with
  | nil => exact hd s
  | cons c cs ih =>
    refine (hc c List.mem_cons_self s).bind fun s' => ?_
    split
    · exact Run.framed_pure rfl
    · exact ih (fun c' hc' => hc c' (List.mem_cons_of_mem c hc')) s'

theorem switch_framed [DecidableEq κ] {k : κ} {cases : List (Case κ ε φ σ)} (hd : ∀ s, (dflt s).Framed F W (g s) g)
    (hc : ∀ c ∈ cases, ∀ s, (c.body s).Framed F W (g s) g) (s : σ) : (switch k cases dflt s).Framed F W (g s) g :=
  runFrom_framed hd _ (fun c hmem => hc c ((List.dropWhile_sublist _).mem hmem)) s

end Switch

end Iosu.Lib
