/-
  Iosu.Lib.Switch — the `switch` statement, with its fall-through.

  A `switch` jumps to the first case with the selected label and runs on from there:
  through every case below it, up to one that breaks, and into the default, which is
  the last, when none does. `runFrom_split` takes apart a run that fell into a case and
  ended; `selected` is the case alone, as it runs where each one breaks.
-/

import Iosu.Lib.Run

namespace Iosu.Lib.Switch

variable {κ ε φ σ : Type}

structure Case (κ ε φ σ : Type) where
  label : κ
  body : σ → Run ε φ σ
  /-- The case ends in a `break`. -/
  breaks : Bool

/-- The statement from a case on. -/
def runFrom (dflt : σ → Run ε φ σ) : List (Case κ ε φ σ) → σ → Run ε φ σ
  | [], s => dflt s
  | c :: cs, s => c.body s >>= fun s' => if c.breaks then pure s' else runFrom dflt cs s'

/-- A run that ends without a `break` in front of `c` has run `c`, and then on from
    behind it. -/
theorem runFrom_split (dflt : σ → Run ε φ σ) (before : List (Case κ ε φ σ)) (c : Case κ ε φ σ)
    (after : List (Case κ ε φ σ)) (hb : ∀ b ∈ before, b.breaks = false) (hc : c.breaks = false) :
    ∀ (s s' : σ), (runFrom dflt (before ++ c :: after) s).res = .ok s' →
      ∃ pre s1 s2, (c.body s1).res = .ok s2 ∧ (runFrom dflt after s2).res = .ok s' ∧
        (runFrom dflt (before ++ c :: after) s).trace =
          pre ++ (c.body s1).trace ++ (runFrom dflt after s2).trace := by
  induction before with
  | nil =>
    intro s s' h
    simp only [List.nil_append, runFrom, hc, Bool.false_eq_true, if_false] at h ⊢
    obtain ⟨s2, h2, hrest⟩ := Run.bind_res_ok.mp h
    exact ⟨[], s, s2, h2, hrest, by rw [Run.bind_trace_ok h2]; simp⟩
  | cons b before ih =>
    intro s s' h
    have hb0 := hb b List.mem_cons_self
    simp only [List.cons_append, runFrom, hb0, Bool.false_eq_true, if_false] at h ⊢
    obtain ⟨s0, h0, hrest⟩ := Run.bind_res_ok.mp h
    obtain ⟨pre, s1, s2, h1, h2, htrace⟩ := ih (fun b' hb' => hb b' (List.mem_cons_of_mem _ hb')) s0 s' hrest
    exact ⟨(b.body s).trace ++ pre, s1, s2, h1, h2, by rw [Run.bind_trace_ok h0, htrace]; simp⟩

/-- What a run does is done by a case or by the default. -/
theorem mem_runFrom_trace (dflt : σ → Run ε φ σ) {e : ε} (cases : List (Case κ ε φ σ)) (s : σ)
    (he : e ∈ (runFrom dflt cases s).trace) :
    (∃ c ∈ cases, ∃ s', e ∈ (c.body s').trace) ∨ ∃ s', e ∈ (dflt s').trace := by
  induction cases generalizing s with
  | nil => exact Or.inr ⟨s, he⟩
  | cons c cs ih =>
    rcases Run.mem_bind_trace.mp he with he | ⟨s', -, he⟩
    · exact Or.inl ⟨c, List.mem_cons_self, s, he⟩
    · by_cases hc : c.breaks = true
      · simp [hc] at he
      · rw [if_neg hc] at he
        rcases ih s' he with ⟨c', hc', hbody⟩ | hdflt
        · exact Or.inl ⟨c', List.mem_cons_of_mem c hc', hbody⟩
        · exact Or.inr hdflt

/-- What can go wrong in a run goes wrong in a case or in the default. -/
theorem runFrom_faultsIn {P : φ → Prop} {dflt : σ → Run ε φ σ} (hd : ∀ s, (dflt s).FaultsIn P)
    (cases : List (Case κ ε φ σ)) (hc : ∀ c ∈ cases, ∀ s, (c.body s).FaultsIn P) (s : σ) :
    (runFrom dflt cases s).FaultsIn P := by
  induction cases generalizing s with
  | nil => exact hd s
  | cons c cs ih =>
    refine (hc c List.mem_cons_self s).bind fun s' => ?_
    split
    · exact Run.faultsIn_pure P s'
    · exact ih (fun c' hc' => hc c' (List.mem_cons_of_mem c hc')) s'

/-- What every case and the default keep of two states, a run keeps. -/
theorem runFrom_rel {R : σ → σ → Prop} {dflt : σ → Run ε φ σ} (hd : ∀ s s', R s s' → Run.Rel R (dflt s) (dflt s'))
    (cases : List (Case κ ε φ σ)) (hc : ∀ c ∈ cases, ∀ s s', R s s' → Run.Rel R (c.body s) (c.body s')) {s s' : σ}
    (h : R s s') : Run.Rel R (runFrom dflt cases s) (runFrom dflt cases s') := by
  induction cases generalizing s s' with
  | nil => exact hd s s' h
  | cons c cs ih =>
    refine (hc c List.mem_cons_self s s' h).bind fun a b hab => ?_
    split
    · exact Run.rel_pure hab
    · exact ih (fun c' hc' => hc c' (List.mem_cons_of_mem c hc')) hab

variable [DecidableEq κ]

def switch (k : κ) (cases : List (Case κ ε φ σ)) (dflt : σ → Run ε φ σ) (s : σ) : Run ε φ σ :=
  runFrom dflt (cases.dropWhile fun c => c.label ≠ k) s

theorem mem_switch_trace {k : κ} {cases : List (Case κ ε φ σ)} {dflt : σ → Run ε φ σ} {s : σ} {e : ε}
    (he : e ∈ (switch k cases dflt s).trace) :
    (∃ c ∈ cases, ∃ s', e ∈ (c.body s').trace) ∨ ∃ s', e ∈ (dflt s').trace := by
  rcases mem_runFrom_trace dflt _ s he with ⟨c, hc, hbody⟩ | hdflt
  · exact Or.inl ⟨c, (List.dropWhile_sublist _).mem hc, hbody⟩
  · exact Or.inr hdflt

theorem switch_faultsIn {P : φ → Prop} {k : κ} {cases : List (Case κ ε φ σ)} {dflt : σ → Run ε φ σ}
    (hd : ∀ s, (dflt s).FaultsIn P) (hc : ∀ c ∈ cases, ∀ s, (c.body s).FaultsIn P) (s : σ) :
    (switch k cases dflt s).FaultsIn P :=
  runFrom_faultsIn hd _ (fun c hmem => hc c ((List.dropWhile_sublist _).mem hmem)) s

theorem switch_rel {R : σ → σ → Prop} {k : κ} {cases : List (Case κ ε φ σ)} {dflt : σ → Run ε φ σ}
    (hd : ∀ s s', R s s' → Run.Rel R (dflt s) (dflt s'))
    (hc : ∀ c ∈ cases, ∀ s s', R s s' → Run.Rel R (c.body s) (c.body s')) {s s' : σ} (h : R s s') :
    Run.Rel R (switch k cases dflt s) (switch k cases dflt s') :=
  runFrom_rel hd _ (fun c hmem => hc c ((List.dropWhile_sublist _).mem hmem)) h

/-- The selected case alone, or the default. -/
def selected (k : κ) (cases : List (Case κ ε φ σ)) (dflt : σ → Run ε φ σ) (s : σ) : Run ε φ σ :=
  match cases.find? fun c => c.label = k with
  | some c => c.body s
  | none => dflt s

end Iosu.Lib.Switch
