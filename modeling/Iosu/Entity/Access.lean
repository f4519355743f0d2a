/-
  Iosu.Entity.Access — what a request's own credentials let it call.

  A call has a class, that of the request functions that start it (`Call.classBits`).
  `Allowed` is the policy that the lookup and the five functions amount to: with INTERNAL
  everything; without it an attribute that is not internal and shares a bit of the class;
  and, whoever asks, the initMethods that a global init starts (`run_allowed`).
-/

import Iosu.Entity.Authorisation

namespace Iosu.Entity

open Iosu.Lib Iosu.Libc

variable {σ : Type}

/-! ## The class of a call -/

def Call.classBits : Call σ → U32
  | .read _ _ | .query _ _ | .copyDirect _ | .copyIndirect _ => (Op.read (fun _ => 0)).classBits
  | .write _ _ _ => (Op.write (fun _ => 0)).classBits
  | .init _ _ _ _ => (Op.init none).classBits
  | .shutdown _ _ => Op.shutdown.classBits

/-- A call of a global init: the attribute opts in, and is given no data. -/
def Call.FromGlobalInit : Call σ → Prop
  | .init _ a none size => size = 0 ∧ a.optsIn = true
  | _ => False

/-- The policy. -/
def Call.Allowed (clientCredentials : U32) (c : Call σ) : Prop :=
  clientCredentials &&& BSP_PERMISSIONS_INTERNAL ≠ 0 ∨
    (c.attribute.permissions &&& BSP_PERMISSIONS_INTERNAL = 0 ∧
      clientCredentials &&& c.attribute.permissions &&& c.classBits ≠ 0) ∨
    c.FromGlobalInit

instance : (c : Call σ) → Decidable c.FromGlobalInit
  | .init _ a none size => inferInstanceAs (Decidable (size = 0 ∧ a.optsIn = true))
  | .init _ _ (some _) _ | .read _ _ | .query _ _ | .copyDirect _ | .copyIndirect _ | .write _ _ _ | .shutdown _ _ =>
    inferInstanceAs (Decidable False)

instance (clientCredentials : U32) (c : Call σ) : Decidable (c.Allowed clientCredentials) :=
  inferInstanceAs (Decidable (_ ∨ _ ∨ _))

/-! ## The calls of a request are of its class -/

/-- Every call has this class. -/
def Classed {α : Type} (k : U32) (p : Prog σ α) : Prop := ∀ c ∈ p.trace, c.classBits = k

theorem classed_silent {α : Type} {k : U32} {p : Prog σ α} (h : p.trace = []) : Classed k p := by
  intro c hc
  rw [h] at hc
  cases hc

theorem classed_call {α : Type} {k : U32} {c : Call σ} (hc : c.classBits = k) (r : Res Fault α) :
    Classed k (call c r) := by
  intro c' hc'
  rw [call_trace, List.mem_singleton] at hc'
  rw [hc', hc]

theorem Classed.bind {α β : Type} {k : U32} {p : Prog σ α} {f : α → Prog σ β} (hp : Classed k p)
    (hf : ∀ a, Classed k (f a)) : Classed k (p >>= f) := by
  intro c hc
  rcases Run.mem_bind_trace.mp hc with hc | ⟨a, -, hc⟩
  · exact hp c hc
  · exact hf a c hc

theorem Classed.ite {α : Type} {k : U32} {b : Prop} [Decidable b] {p q : Prog σ α} (hp : Classed k p)
    (hq : Classed k q) : Classed k (if b then p else q) := by
  split
  · exact hp
  · exact hq

theorem classed_derefAttribute (k : U32) (pA : Option (BspAttribute σ)) : Classed k (derefAttribute pA) := by
  cases pA with
  | none => exact classed_silent rfl
  | some a => exact classed_silent rfl

theorem classed_derefEntity (k : U32) (pE : Option (BspEntity σ)) : Classed k (derefEntity pE) := by
  cases pE with
  | none => exact classed_silent rfl
  | some e => exact classed_silent rfl

theorem classed_initGlobalFrom (inst : U32) (fuel : Nat) (t : List (BspAttribute σ)) (ret : BspRval) (s : σ) :
    Classed (Op.init none).classBits (initGlobalFrom inst fuel t ret s) := by
  intro c hc
  induction fuel generalizing t ret s with
  | zero => cases hc
  | succ fuel ih =>
    cases t with
    | nil => cases hc
    | cons a rest =>
      rcases initGlobalFrom_cases inst fuel a rest ret s with ⟨-, hrun⟩ | ⟨-, -, hrun⟩ | ⟨n, m, -, -, -, hrun⟩
      · rw [hrun] at hc
        cases hc
      · rw [hrun] at hc
        cases hc
      · rw [hrun] at hc
        rcases Run.mem_bind_trace.mp hc with hc | ⟨p, -, hc⟩
        · exact classed_call (by rfl) _ c hc
        · exact ih _ _ _ hc

theorem run_classed [DataMem σ] (r : Request) (fuel : Nat) (es : List (BspEntity σ)) (s : σ) :
    Classed r.op.classBits (r.run fuel es s) := by
  have hlift : ∀ {α : Type} (k : U32) (r : Res Fault α), Classed k (Run.lift r : Prog σ α) :=
    fun _ _ => classed_silent rfl
  have hpure : ∀ {α : Type} (k : U32) (a : α), Classed k (pure a : Prog σ α) := fun _ _ => classed_silent rfl
  obtain ⟨op, en, i, an, size, cred⟩ := r
  cases op with
  | read p =>
    refine Classed.bind ?_ fun _ => hpure _ _
    refine (hlift _ _).bind fun _ => Classed.ite (hpure _ _) ?_
    refine (classed_derefAttribute _ _).bind fun a => Classed.ite (hpure _ _) ?_
    split
    · exact hpure _ _
    · exact classed_call rfl _
  | query p =>
    refine Classed.bind ?_ fun _ => hpure _ _
    refine (hlift _ _).bind fun _ => Classed.ite (hpure _ _) ?_
    refine (classed_derefAttribute _ _).bind fun a => Classed.ite (hpure _ _) ?_
    split
    · exact classed_call rfl _
    · refine Classed.ite (Classed.ite (hpure _ _) (classed_call rfl _)) ?_
      exact Classed.ite (classed_call rfl _) (hpure _ _)
  | write p =>
    refine (hlift _ _).bind fun _ => Classed.ite (hpure _ _) ?_
    refine (classed_derefAttribute _ _).bind fun a => Classed.ite (hpure _ _) ?_
    split
    · exact hpure _ _
    · exact classed_call rfl _
  | init p =>
    refine (hlift _ _).bind fun _ => Classed.ite (hpure _ _) (Classed.ite ?_ ?_)
    · refine (classed_derefAttribute _ _).bind fun a => ?_
      split
      · exact hpure _ _
      · exact classed_call rfl _
    · exact (classed_derefEntity _ _).bind fun e => (hlift _ _).bind fun t => classed_initGlobalFrom _ _ _ _ _
  | shutdown =>
    refine (hlift _ _).bind fun _ => Classed.ite (hpure _ _) ?_
    refine (classed_derefAttribute _ _).bind fun a => ?_
    split
    · exact hpure _ _
    · exact classed_call rfl _

/-! ## The policy is kept -/

theorem initGlobalFrom_fromGlobalInit {inst : U32} {fuel : Nat} {t : List (BspAttribute σ)} {ret : BspRval} {s : σ}
    {c : Call σ} (hc : c ∈ (initGlobalFrom inst fuel t ret s).trace) : c.FromGlobalInit := by
  induction fuel generalizing t ret s with
  | zero => cases hc
  | succ fuel ih =>
    cases t with
    | nil => cases hc
    | cons a rest =>
      rcases initGlobalFrom_cases inst fuel a rest ret s with ⟨-, hrun⟩ | ⟨-, -, hrun⟩ | ⟨n, m, -, -, ho, hrun⟩
      · rw [hrun] at hc
        cases hc
      · rw [hrun] at hc
        cases hc
      · rw [hrun] at hc
        rcases Run.mem_bind_trace.mp hc with hc | ⟨p, -, hc⟩
        · rw [call_trace, List.mem_singleton] at hc
          subst hc
          exact ⟨rfl, ho⟩
        · exact ih hc

/-- Whatever a request calls, the policy allows with the request's credentials. -/
theorem run_allowed [DataMem σ] {r : Request} (fuel : Nat) {es : List (BspEntity σ)} {s : σ} {c : Call σ}
    (hc : c ∈ (r.run fuel es s).trace) : c.Allowed r.clientCredentials := by
  by_cases hint : r.clientCredentials &&& BSP_PERMISSIONS_INTERNAL = 0
  swap
  · exact Or.inl hint
  have hclass : c.classBits = r.op.classBits := run_classed r fuel es s c hc
  rcases bspFindAttribute_cases es r.entityName r.inst r.attributeName r.clientCredentials r.op.command with
    ⟨-, hf⟩ | ⟨ret, pE, hret, hf⟩ | ⟨e, he, hi, hn, hf⟩ | ⟨e, f, -, -, -, -, hf⟩ | ⟨e, t, a, -, -, hn, -, -, hf⟩
  · rw [Request.run_of_fault hf] at hc
    cases hc
  · rw [Request.run_of_error hf hret] at hc
    cases hc
  · by_cases hop : ∃ p, r.op = .init p
    · have hg : r.IsGlobalInit := ⟨hop, hn⟩
      rw [Request.run_globalInit hg hf] at hc
      rcases Run.mem_bind_trace.mp hc with hc | ⟨t, -, hc⟩
      · cases hc
      · exact Or.inr (Or.inr (initGlobalFrom_fromGlobalInit hc))
    · rw [Request.run_of_null hf fun p hp => hop ⟨p, hp⟩] at hc
      cases hc
  · rw [Request.run_of_fault hf] at hc
    cases hc
  · have hg : ¬ r.IsGlobalInit := fun h => hn h.2
    by_cases hok : checkPermissions BSP_RVAL_OK (some a) r.clientCredentials r.op.command = BSP_RVAL_OK
    · obtain ⟨hplain, hbits⟩ := checkPermissions_authorises hint hok
      rw [hok] at hf
      have hattr : c.attribute = a := (Request.run_of_found hf hg).1 c hc
      refine Or.inr (Or.inl ?_)
      rw [hattr, hclass]
      exact ⟨hplain, hbits⟩
    · rw [Request.run_of_error hf hok] at hc
      cases hc

/-! ## The calls of a request are of its list -/

/-- The call is of an attribute in a table of the list. -/
def Call.Of (es : List (BspEntity σ)) (c : Call σ) : Prop := ∃ e ∈ es, ∃ t ∈ e.pAttributes, c.attribute ∈ t

theorem selectTable_mem {e : BspEntity σ} {i : U32} {t : List (BspAttribute σ)} (h : selectTable e i = .ok t) :
    t ∈ e.pAttributes := by
  rw [selectTable_eq] at h
  split at h
  · cases h
    exact List.mem_of_getElem? ‹_›
  · cases h

theorem run_listed [DataMem σ] {r : Request} {fuel : Nat} {es : List (BspEntity σ)} {s : σ} {c : Call σ}
    (hc : c ∈ (r.run fuel es s).trace) : c.Of es := by
  rcases bspFindAttribute_cases es r.entityName r.inst r.attributeName r.clientCredentials r.op.command with
    ⟨-, hf⟩ | ⟨ret, pE, hret, hf⟩ | ⟨e, he, hi, hn, hf⟩ | ⟨e, f, -, -, -, -, hf⟩ | ⟨e, t, a, he, -, hn, ht, hs, hf⟩
  · rw [Request.run_of_fault hf] at hc
    cases hc
  · rw [Request.run_of_error hf hret] at hc
    cases hc
  · by_cases hop : ∃ p, r.op = .init p
    · rw [Request.run_globalInit ⟨hop, hn⟩ hf] at hc
      rcases Run.mem_bind_trace.mp hc with hc | ⟨t, ht, hc⟩
      · cases hc
      · obtain ⟨pre, a, post, hlive, -, -, -, ha⟩ := mem_initGlobalFrom_trace r.inst fuel t _ s c hc
        have hmem : a ∈ live t := by simp [hlive]
        exact ⟨e, (bspFindEntity_mem he).1, t, selectTable_mem ht, ha ▸ (List.takeWhile_sublist _).mem hmem⟩
    · rw [Request.run_of_null hf fun p hp => hop ⟨p, hp⟩] at hc
      cases hc
  · rw [Request.run_of_fault hf] at hc
    cases hc
  · by_cases hok : checkPermissions BSP_RVAL_OK (some a) r.clientCredentials r.op.command = BSP_RVAL_OK
    · rw [hok] at hf
      have hattr : c.attribute = a := (Request.run_of_found hf fun h => hn h.2).1 c hc
      exact ⟨e, (bspFindEntity_mem he).1, t, selectTable_mem ht, hattr ▸ (scanAttributes_some hs).1⟩
    · rw [Request.run_of_error hf hok] at hc
      cases hc

/-! ## The request functions, one by one -/

/-- A call of some request with these credentials. -/
def Requested [DataMem σ] (es : List (BspEntity σ)) (clientCredentials : U32) (c : Call σ) : Prop :=
  ∃ (r : Request) (fuel : Nat) (s : σ), r.clientCredentials = clientCredentials ∧ c ∈ (r.run fuel es s).trace

section Methods

variable [DataMem σ] {es : List (BspEntity σ)} {en an : CStr} {i size cred : U32} {s : σ} {c : Call σ}

theorem Requested.allowed (h : Requested es cred c) : c.Allowed cred := by
  obtain ⟨r, fuel, s, rfl, hc⟩ := h
  exact run_allowed fuel hc

theorem Requested.listed (h : Requested es cred c) : c.Of es := by
  obtain ⟨r, fuel, s, -, hc⟩ := h
  exact run_listed hc

theorem read_requested {p : Buf} (hc : c ∈ (bspMethodRead es en i an size p cred s).trace) : Requested es cred c :=
  ⟨⟨.read p, en, i, an, size, cred⟩, 0, s, rfl, Run.mem_bind_trace.mpr (Or.inl hc)⟩

theorem query_requested {p : Buf} (hc : c ∈ (bspMethodQuery es en i an size p cred s).trace) : Requested es cred c :=
  ⟨⟨.query p, en, i, an, size, cred⟩, 0, s, rfl, Run.mem_bind_trace.mpr (Or.inl hc)⟩

theorem write_requested {p : Buf} (hc : c ∈ (bspMethodWrite es en i an size p cred s).trace) : Requested es cred c :=
  ⟨⟨.write p, en, i, an, size, cred⟩, 0, s, rfl, hc⟩

theorem init_requested {fuel : Nat} {p : Option Buf} (hc : c ∈ (bspMethodInit es en i an fuel size p cred s).trace) :
    Requested es cred c := ⟨⟨.init p, en, i, an, size, cred⟩, fuel, s, rfl, hc⟩

theorem shutdown_requested (hc : c ∈ (bspMethodShutdown es en i an cred s).trace) : Requested es cred c :=
  ⟨⟨.shutdown, en, i, an, 0, cred⟩, 0, s, rfl, hc⟩

omit [DataMem σ] in
theorem getEntityVersion_silent : (bspGetEntityVersion es en).trace = [] := by
  unfold bspGetEntityVersion
  rcases bspFindEntity es en with ⟨ret, pE⟩
  dsimp only
  split
  · rfl
  · cases pE <;> rfl

end Methods

end Iosu.Entity
