/-
  Iosu.Entity.NullSafety — which requests read through a NULL entity or attribute.

  The lookups answer BSP_RVAL_OK in two cases without what their callers then read. A
  name that sorts after every entity of the list leaves the entity NULL, and
  `bspFindAttribute` and `bspGetEntityVersion` read through it. The empty attribute
  name leaves the attribute NULL, which Init alone provides for. `null_safe_iff` says
  that these two are all.
-/

import Iosu.Entity.GlobalInit

namespace Iosu.Entity

open Iosu.Lib Iosu.Libc

variable {σ : Type}

/-! ## Reading through NULL -/

/-- The code reads no field of a NULL entity or attribute. A fault inside a callback is
    the callback's own. -/
def NullFree {α : Type} (p : Prog σ α) : Prop := p.res ≠ .fault .nullEntity ∧ p.res ≠ .fault .nullAttribute

/-- A Read, Query, Write or Shutdown of the empty attribute name on an instance that
    exists. -/
def Request.MissesAttribute (r : Request) (es : List (BspEntity σ)) : Prop :=
  (∀ p, r.op ≠ .init p) ∧ first r.attributeName = 0 ∧
    ∃ e, Names es r.entityName e ∧ r.inst < e.instanceCount

theorem nullFree_pure {α : Type} (x : α) : NullFree (pure x : Prog σ α) := by
  refine ⟨?_, ?_⟩
  · intro h; cases h
  · intro h; cases h

/-- The global init's own fault is to run past its table. -/
theorem initGlobalFrom_fault (inst : U32) :
    ∀ (fuel : Nat) (t : List (BspAttribute σ)) (ret : BspRval) (s : σ) (f : Fault),
      (initGlobalFrom inst fuel t ret s).res = .fault f → f = .tableOverrun ∨ ∃ f', f = .inCallback f' := by
  intro fuel
  induction fuel with
  | zero => intro t ret s f h; cases h
  | succ fuel ih =>
    intro t ret s f h
    cases t with
    | nil => cases h; exact Or.inl rfl
    | cons a rest =>
      rcases initGlobalFrom_cases inst fuel a rest ret s with ⟨-, hrun⟩ | ⟨-, -, hrun⟩ | ⟨n, m, -, -, -, hrun⟩
      · rw [hrun] at h
        cases h
      · rw [hrun] at h
        cases h
      · rw [hrun] at h
        rcases Run.bind_res_fault.mp h with h | ⟨p, -, h⟩
        · rw [call_res] at h
          obtain ⟨f', -, rfl⟩ := Res.mapFault_eq_fault.mp h
          exact Or.inr ⟨f', rfl⟩
        · exact ih _ _ _ _ h

/-! ## The requests -/

/-- Everything that can go wrong in a request. -/
theorem Request.run_fault [DataMem σ] {es : List (BspEntity σ)} {r : Request} {fuel : Nat} {s : σ} {f : Fault}
    (h : (r.run fuel es s).res = .fault f) :
    (f = .nullEntity ∧ RunsOff es r.entityName) ∨ (f = .nullAttribute ∧ r.MissesAttribute es) ∨
      f = .tableIndex ∨ f = .tableOverrun ∨ ∃ f', f = .inCallback f' := by
  rcases bspFindAttribute_cases es r.entityName r.inst r.attributeName r.clientCredentials r.op.command with
    ⟨ho, hf⟩ | ⟨ret, pE, hret, hf⟩ | ⟨e, he, hi, hn, hf⟩ | ⟨e, f', -, -, -, hfault, hf⟩ | ⟨e, t, a, -, -, hn, -, -, hf⟩
  · rw [run_of_fault hf] at h
    cases h
    exact Or.inl ⟨rfl, ho⟩
  · rw [run_of_error hf hret] at h
    cases h
  · by_cases hop : ∃ p, r.op = .init p
    · rw [run_globalInit ⟨hop, hn⟩ hf] at h
      rcases Run.bind_res_fault.mp h with h | ⟨t, -, h⟩
      · rw [Run.lift_res, selectTable_eq] at h
        split at h
        · cases h
        · cases h
          exact Or.inr (Or.inr (Or.inl rfl))
      · exact Or.inr (Or.inr (Or.inr (initGlobalFrom_fault r.inst fuel t _ s f h)))
    · have hno : ∀ p, r.op ≠ .init p := fun p hp => hop ⟨p, hp⟩
      rw [run_of_null hf hno] at h
      cases h
      exact Or.inr (Or.inl ⟨rfl, hno, hn, e, (bspFindEntity_eq_some es _ e).mp he, hi⟩)
  · rw [run_of_fault hf] at h
    cases h
    rcases hfault with rfl | rfl
    · exact Or.inr (Or.inr (Or.inl rfl))
    · exact Or.inr (Or.inr (Or.inr (Or.inl rfl)))
  · have hg : ¬ r.IsGlobalInit := fun h => hn h.2
    by_cases hc : checkPermissions BSP_RVAL_OK (some a) r.clientCredentials r.op.command = BSP_RVAL_OK
    · rw [hc] at hf
      exact Or.inr (Or.inr (Or.inr (Or.inr ((run_of_found hf hg).2 f h))))
    · rw [run_of_error hf hc] at h
      cases h

theorem Request.nullFree [DataMem σ] {es : List (BspEntity σ)} {r : Request} (hoff : ¬ RunsOff es r.entityName)
    (hmiss : ¬ r.MissesAttribute es) (fuel : Nat) (s : σ) : NullFree (r.run fuel es s) := by
  refine ⟨?_, ?_⟩
  · intro h
    rcases run_fault h with ⟨-, ho⟩ | ⟨hf, -⟩ | hf | hf | ⟨f', hf⟩
    · exact hoff ho
    all_goals cases hf
  · intro h
    rcases run_fault h with ⟨hf, -⟩ | ⟨-, hm⟩ | hf | hf | ⟨f', hf⟩
    · cases hf
    · exact hmiss hm
    all_goals cases hf

theorem bspGetEntityVersion_nullFree_iff (es : List (BspEntity σ)) (en : CStr) :
    NullFree (bspGetEntityVersion es en) ↔ ¬ RunsOff es en := by
  constructor
  · intro h ho
    refine h.1 ?_
    simp [bspGetEntityVersion, (bspFindEntity_eq_null es en).mpr ho]
  · intro hno
    unfold bspGetEntityVersion
    rcases bspFindEntity_cases es en with ⟨e, -, -, he⟩ | ⟨hu, -⟩ | ⟨-, ho⟩
    · simp only [he, ne_eq, not_true_eq_false, if_false, derefEntity_some, Run.pure_bind]
      exact nullFree_pure _
    · simp only [hu]
      rw [if_pos unknown_ne_ok]
      exact nullFree_pure _
    · exact absurd ho hno

theorem bspFindEntity_ok_iff (es : List (BspEntity σ)) (en : CStr) :
    ((bspFindEntity es en).1 = BSP_RVAL_OK → (bspFindEntity es en).2 ≠ none) ↔ ¬ RunsOff es en := by
  constructor
  · intro h ho
    have hnull := (bspFindEntity_eq_null es en).mpr ho
    exact h (by rw [hnull]) (by rw [hnull])
  · intro hno hok hnone
    exact hno ((bspFindEntity_eq_null es en).mp (Prod.ext hok hnone))

/-- No request reads through NULL, and BSP_RVAL_OK comes with an entity, exactly when
    the name does not sort after the whole list and the request is not a Read, Query,
    Write or Shutdown of the empty name on an instance that exists. -/
theorem null_safe_iff [DataMem σ] (es : List (BspEntity σ)) :
    (∀ (r : Request) (s : σ), (∀ fuel, NullFree (r.run fuel es s)) ↔
        ¬ RunsOff es r.entityName ∧ ¬ r.MissesAttribute es) ∧
      (∀ en, NullFree (bspGetEntityVersion es en) ↔ ¬ RunsOff es en) ∧
      ∀ en, ((bspFindEntity es en).1 = BSP_RVAL_OK → (bspFindEntity es en).2 ≠ none) ↔ ¬ RunsOff es en := by
  refine ⟨?_, bspGetEntityVersion_nullFree_iff es, bspFindEntity_ok_iff es⟩
  intro r s
  constructor
  · intro h
    refine ⟨?_, ?_⟩
    · intro ho
      refine (h 0).1 ?_
      rw [Request.run_of_fault (find_runsOff ho)]
      rfl
    · intro hsome
      obtain ⟨hop, hn, e, he, hi⟩ := hsome
      refine (h 0).2 ?_
      rw [Request.run_of_null (find_empty ((bspFindEntity_eq_some es _ e).mpr he) hi hn) hop]
      rfl
  · rintro ⟨hoff, hmiss⟩ fuel
    exact Request.nullFree hoff hmiss fuel s

/-! ## A list with one entity -/

def oneEntity : BspEntity Unit where
  pName := cstr "GPIO"
  version := 1
  instanceCount := 1
  options := BSP_EO_NONE
  pAttributes := [[{ pName := none }]]

theorem oneEntity_wf : oneEntity.Wf := by
  intro i hi
  have h0 : i = 0 := by
    have h1 : i < 1#32 := hi
    bv_omega
  subst h0
  exact ⟨_, rfl, _, List.mem_cons_self, rfl⟩

instance : DataMem Unit := ⟨fun _ _ => 0⟩

/-- On a well-formed list: a version query for a name past its end, and a Read of the
    empty attribute name. -/
theorem null_read_oneEntity :
    oneEntity.Wf ∧ (bspFindEntity [oneEntity] (cstr "ZZ")) = (BSP_RVAL_OK, none) ∧
      ¬ NullFree (bspGetEntityVersion [oneEntity] (cstr "ZZ")) ∧
      ¬ NullFree (Request.run 0 [oneEntity] ⟨.read fun _ => 0, cstr "GPIO", 0, [], 4, BSP_PERMISSIONS_ALL⟩ ()) := by
  refine ⟨oneEntity_wf, rfl, ?_, ?_⟩
  · intro h; exact h.1 rfl
  · intro h; exact h.2 rfl

end Iosu.Entity
