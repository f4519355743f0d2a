/-
  Iosu.Entity.Respect — requests in states that look the same.

  `R` relates the states that a client is to see no difference between. A call respects it when
  it answers the same in two such states, fills in the same and leaves two such states again
  (`Call.Respects`). Then a request over a list whose calls all do answers the same as well,
  whichever function serves it. `Requested.placed` says from where a request can call an
  attribute: on its credentials, or in a global init that every attribute in front opts into.
-/

import Iosu.Entity.Access
import Iosu.Entity.Footprint

namespace Iosu.Entity

open Iosu.Lib Iosu.Libc

variable {σ : Type}

/-- The same answer, and states that look the same. -/
def SameRet {α : Type} (R : σ → σ → Prop) (q q' : α × σ) : Prop := q.1 = q'.1 ∧ R q.2 q'.2

/-- With the same in the buffer. -/
def SameOut (R : σ → σ → Prop) (q q' : BspRval × Buf × σ) : Prop := q.1 = q'.1 ∧ q.2.1 = q'.2.1 ∧ R q.2.2 q'.2.2

def Call.Respects [DataMem σ] (R : σ → σ → Prop) : Call σ → Prop
  | .read inst a => ∀ m, a.readMethod = some m → ∀ p s s', R s s' →
      Res.Rel (SameOut R) (m inst a.toAttributeData p s) (m inst a.toAttributeData p s')
  | .query inst a => ∀ m, a.queryMethod = some m → ∀ p s s', R s s' →
      Res.Rel (SameOut R) (m inst a.toAttributeData p s) (m inst a.toAttributeData p s')
  | .copyDirect _ => True
  | .copyIndirect a => a.options &&& BSP_AO_QUERY_DATA_INDIRECT ≠ 0 → ∀ s s', R s s' →
      (Mem.view (DataMem.peek s) a.data).bytes 0 a.dataSize.toNat = (Mem.view (DataMem.peek s') a.data).bytes 0 a.dataSize.toNat
  | .write inst a p => ∀ m, a.writeMethod = some m → ∀ s s', R s s' →
      Res.Rel (SameRet R) (m inst a.toAttributeData p s) (m inst a.toAttributeData p s')
  | .init inst a p size => ∀ m, a.initMethod = some m → ∀ s s', R s s' →
      Res.Rel (SameRet R) (m inst a.toAttributeData p size s) (m inst a.toAttributeData p size s')
  | .shutdown inst a => ∀ m, a.shutdownMethod = some m → ∀ s s', R s s' →
      Res.Rel (SameRet R) (m inst a.toAttributeData s) (m inst a.toAttributeData s')

/-- The attribute that a lookup finds is in a table of the list. -/
theorem find_listed {es : List (BspEntity σ)} {en an : CStr} {i c cmd : U32} {r : BspRval} {pE : Option (BspEntity σ)}
    {a : BspAttribute σ} (h : bspFindAttribute es en i an c cmd = .ok (r, pE, some a)) :
    ∃ e ∈ es, ∃ t ∈ e.pAttributes, a ∈ t := by
  rcases bspFindAttribute_cases es en i an c cmd with
    ⟨-, hf⟩ | ⟨ret, pE, -, hf⟩ | ⟨e, -, -, -, hf⟩ | ⟨e, f, -, -, -, -, hf⟩ | ⟨e, t, a', he, -, -, ht, hs, hf⟩
  · rw [hf] at h
    cases h
  · rw [hf] at h
    cases h
  · rw [hf] at h
    cases h
  · rw [hf] at h
    cases h
  · rw [hf] at h
    cases h
    exact ⟨e, (bspFindEntity_mem he).1, t, selectTable_mem ht, (scanAttributes_some hs).1⟩

/-! ## The request functions -/

section Requests

variable [DataMem σ] {R : σ → σ → Prop} {es : List (BspEntity σ)} {en an : CStr} {i size cred : U32} {s s' : σ}

theorem read_respects (hes : ∀ c : Call σ, c.Of es → c.Respects R) (h : R s s') (p : Buf) :
    Run.Rel (SameOut R) (bspMethodRead es en i an size p cred s) (bspMethodRead es en i an size p cred s') := by
  refine rel_lookup (fun ret => (ret, p, s)) (fun ret => (ret, p, s')) (fun _ => ⟨rfl, rfl, h⟩) fun pE a hf => ?_
  by_cases hsize : size = a.dataSize
  · rw [if_neg (not_not.mpr hsize), if_neg (not_not.mpr hsize)]
    cases hm : a.readMethod with
    | none => exact ⟨rfl, rfl, h⟩
    | some m => exact rel_call (hes (.read i a) (find_listed hf) m hm p s s' h) _ _
  · rw [if_pos hsize, if_pos hsize]
    exact ⟨rfl, rfl, h⟩

theorem query_respects (hes : ∀ c : Call σ, c.Of es → c.Respects R) (h : R s s') (p : Buf) :
    Run.Rel (SameOut R) (bspMethodQuery es en i an size p cred s) (bspMethodQuery es en i an size p cred s') := by
  refine rel_lookup (fun ret => (ret, p, s)) (fun ret => (ret, p, s')) (fun _ => ⟨rfl, rfl, h⟩) fun pE a hf => ?_
  by_cases hsize : size = a.dataSize
  · rw [if_neg (not_not.mpr hsize), if_neg (not_not.mpr hsize)]
    cases hm : a.queryMethod with
    | some m => exact rel_call (hes (.query i a) (find_listed hf) m hm p s s' h) _ _
    | none =>
      have hcopy : ∀ ret out, Res.Rel (SameOut R) (.ok (ret, out, s) : Res Fault _) (.ok (ret, out, s')) :=
        fun _ _ => ⟨rfl, rfl, h⟩
      dsimp only
      split
      · split
        · exact ⟨rfl, rfl, h⟩
        · exact rel_call (hcopy _ _) _ _
      · split
        · rename_i hindirect
          rw [hsize, hes (.copyIndirect a) (find_listed hf) hindirect s s' h]
          exact rel_call (hcopy _ _) _ _
        · exact ⟨rfl, rfl, h⟩
  · rw [if_pos hsize, if_pos hsize]
    exact ⟨rfl, rfl, h⟩

theorem write_respects (hes : ∀ c : Call σ, c.Of es → c.Respects R) (h : R s s') (p : Buf) :
    Run.Rel (SameRet R) (bspMethodWrite es en i an size p cred s) (bspMethodWrite es en i an size p cred s') := by
  refine rel_lookup (fun ret => (ret, s)) (fun ret => (ret, s')) (fun _ => ⟨rfl, h⟩) fun pE a hf => ?_
  by_cases hsize : size = a.dataSize
  · rw [if_neg (not_not.mpr hsize), if_neg (not_not.mpr hsize)]
    cases hm : a.writeMethod with
    | none => exact ⟨rfl, h⟩
    | some m => exact rel_call (hes (.write i a p) (find_listed hf) m hm s s' h) _ _
  · rw [if_pos hsize, if_pos hsize]
    exact ⟨rfl, h⟩

theorem initGlobalFrom_respects {t : List (BspAttribute σ)} (ht : ∀ a ∈ t, ∀ c : Call σ, c.attribute = a → c.Respects R)
    (h : R s s') (fuel : Nat) (ret : BspRval) :
    Run.Rel (SameRet R) (initGlobalFrom i fuel t ret s) (initGlobalFrom i fuel t ret s') := by
  induction fuel generalizing t ret s s' with
  | zero => trivial
  | succ fuel ih =>
    cases t with
    | nil => exact rfl
    | cons a rest =>
      unfold initGlobalFrom
      cases a.pName with
      | none => exact ⟨rfl, h⟩
      | some n =>
        dsimp only
        cases hm : a.initMethod with
        | none => exact ih ht h ret
        | some m =>
          dsimp only
          split
          · exact ih ht h ret
          · refine Run.Rel.bind (rel_call (ht a List.mem_cons_self (.init i a none 0) rfl m hm s s' h) _ _) ?_
            rintro ⟨r, s₁⟩ ⟨r', s₁'⟩ ⟨heq, h₁⟩
            cases heq
            exact ih (fun b hb => ht b (List.mem_cons_of_mem a hb)) h₁ _

theorem init_respects (hes : ∀ c : Call σ, c.Of es → c.Respects R) (h : R s s') (fuel : Nat) (p : Option Buf) :
    Run.Rel (SameRet R) (bspMethodInit es en i an fuel size p cred s) (bspMethodInit es en i an fuel size p cred s') := by
  unfold bspMethodInit
  by_cases hn : first an ≠ 0
  · simp only [if_pos hn]
    refine rel_lookup (fun ret => (ret, s)) (fun ret => (ret, s')) (fun _ => ⟨rfl, h⟩) fun pE a hf => ?_
    cases hm : a.initMethod with
    | none => exact ⟨rfl, h⟩
    | some m => exact rel_call (hes (.init i a p size) (find_listed hf) m hm s s' h) _ _
  · simp only [if_neg hn]
    rcases bspFindAttribute_cases es en i an cred BSP_IOCTL_METHOD_INIT with
      ⟨-, hf⟩ | ⟨ret, pE, hret, hf⟩ | ⟨e, he, -, -, hf⟩ | ⟨e, f, -, -, -, -, hf⟩ | ⟨e, t, a, he, -, hn', -, -, hf⟩
    · rw [hf]
      exact rfl
    · rw [hf, Run.lift_ok_bind, Run.lift_ok_bind]
      dsimp only
      rw [if_pos hret, if_pos hret]
      exact ⟨rfl, h⟩
    · rw [hf, Run.lift_ok_bind, Run.lift_ok_bind]
      dsimp only
      rw [if_neg (not_not.mpr rfl), if_neg (not_not.mpr rfl), derefEntity_some, Run.pure_bind, Run.pure_bind]
      cases ht : selectTable e i with
      | ok t =>
        rw [Run.lift_ok_bind, Run.lift_ok_bind]
        refine initGlobalFrom_respects (fun a ha c hc => hes c ?_) h fuel _
        exact ⟨e, (bspFindEntity_mem he).1, t, selectTable_mem ht, hc ▸ ha⟩
      | fault f => exact rfl
      | spin => trivial
    · rw [hf]
      exact rfl
    · exact absurd hn' hn

theorem shutdown_respects (hes : ∀ c : Call σ, c.Of es → c.Respects R) (h : R s s') :
    Run.Rel (SameRet R) (bspMethodShutdown es en i an cred s) (bspMethodShutdown es en i an cred s') := by
  refine rel_lookup (fun ret => (ret, s)) (fun ret => (ret, s')) (fun _ => ⟨rfl, h⟩) fun pE a hf => ?_
  cases hm : a.shutdownMethod with
  | none => exact ⟨rfl, h⟩
  | some m => exact rel_call (hes (.shutdown i a) (find_listed hf) m hm s s' h) _ _

end Requests

/-! ## From where an attribute is called -/

/-- By credentials that the attribute grants the call, or by a global init of its table, all of
    whose attributes up to this one opt in. -/
theorem Requested.placed [DataMem σ] {es : List (BspEntity σ)} {cred : U32} {c : Call σ} (h : Requested es cred c) :
    ∃ e ∈ es, ∃ t ∈ e.pAttributes, c.attribute ∈ t ∧
      (cred &&& BSP_PERMISSIONS_INTERNAL ≠ 0 ∨ cred &&& c.attribute.permissions &&& c.classBits ≠ 0 ∨
        ∃ pre post, live t = pre ++ c.attribute :: post ∧ (∀ b ∈ pre, b.optsIn = true) ∧ c.attribute.optsIn = true) := by
  obtain ⟨r, fuel, s, rfl, hc⟩ := h
  have hclass : c.classBits = r.op.classBits := run_classed r fuel es s c hc
  rcases bspFindAttribute_cases es r.entityName r.inst r.attributeName r.clientCredentials r.op.command with
    ⟨-, hf⟩ | ⟨ret, pE, hret, hf⟩ | ⟨e, he, hi, hn, hf⟩ | ⟨e, f, -, -, -, -, hf⟩ | ⟨e, t, a, he, -, hn, ht, hs, hf⟩
  · rw [Request.run_of_fault hf] at hc
    cases hc
  · rw [Request.run_of_error hf hret] at hc
    cases hc
  · by_cases hop : ∃ p, r.op = .init p
    · rw [Request.run_globalInit ⟨hop, hn⟩ hf] at hc
      rcases Run.mem_bind_trace.mp hc with hc | ⟨t, ht, hc⟩
      · cases hc
      obtain ⟨pre, a, post, hlive, hpre, ha, -, rfl⟩ := mem_initGlobalFrom_trace r.inst fuel t _ s c hc
      have hmem : c.attribute ∈ live t := by simp [hlive]
      exact ⟨e, (bspFindEntity_mem he).1, t, selectTable_mem ht, (List.takeWhile_sublist _).mem hmem,
        Or.inr (Or.inr ⟨pre, post, hlive, hpre, ha⟩)⟩
    · rw [Request.run_of_null hf fun p hp => hop ⟨p, hp⟩] at hc
      cases hc
  · rw [Request.run_of_fault hf] at hc
    cases hc
  · by_cases hok : checkPermissions BSP_RVAL_OK (some a) r.clientCredentials r.op.command = BSP_RVAL_OK
    · rw [hok] at hf
      have hattr : c.attribute = a := (Request.run_of_found hf fun h => hn h.2).1 c hc
      refine ⟨e, (bspFindEntity_mem he).1, t, selectTable_mem ht, hattr ▸ (scanAttributes_some hs).1, ?_⟩
      by_cases hint : r.clientCredentials &&& BSP_PERMISSIONS_INTERNAL = 0
      · rw [hattr, hclass]
        exact Or.inr (Or.inl (checkPermissions_authorises hint hok).2)
      · exact Or.inl hint
    · rw [Request.run_of_error hf hok] at hc
      cases hc

end Iosu.Entity
