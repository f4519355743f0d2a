/-
  Iosu.Entity.Footprint — the bytes that a request reads and writes.

  A request function is given a data pointer and a size. The callbacks are not given
  the size (an initMethod apart): they rely on it being their attribute's `dataSize`
  (`KeepsTo`). For Read, Query and Write the request function sees to that; an Init is
  handed on with whatever size it declares. So each of them stays inside the first
  `size` bytes.
-/

import Iosu.Entity.Methods

namespace Iosu.Entity

open Iosu.Lib Iosu.Libc

variable {σ : Type}

/-! ## Callbacks that keep to their data -/

/-- Two outcomes of a method that fills a buffer: the same but for the bytes from `n`
    on, which are what they were. -/
structure Filled (n : Nat) (b b' : Buf) (p p' : BspRval × Buf × σ) : Prop where
  ret : p.1 = p'.1
  state : p.2.2 = p'.2.2
  agree : Buf.AgreeBelow n p.2.1 p'.2.1
  frame : ∀ k, n ≤ k → p.2.1 k = b k
  frame' : ∀ k, n ≤ k → p'.2.1 k = b' k

/-- A readMethod or queryMethod that reads and writes no more than `n` bytes. -/
def FillsOnly (n : Nat) (d : AttributeData) (m : OutMethod σ) : Prop :=
  ∀ inst b b' s, Buf.AgreeBelow n b b' → Res.Rel (Filled n b b') (m inst d b s) (m inst d b' s)

/-- The attribute's callbacks keep to its `dataSize`, its initMethod to the size that it
    is given. -/
structure BspAttribute.KeepsTo (a : BspAttribute σ) : Prop where
  read : ∀ m, a.readMethod = some m → FillsOnly a.dataSize.toNat a.toAttributeData m
  query : ∀ m, a.queryMethod = some m → FillsOnly a.dataSize.toNat a.toAttributeData m
  write : ∀ m, a.writeMethod = some m → ∀ inst b b' s, Buf.AgreeBelow a.dataSize.toNat b b' →
    m inst a.toAttributeData b s = m inst a.toAttributeData b' s
  init : ∀ m, a.initMethod = some m → ∀ (inst : U32) (b b' : Buf) (size : U32) (s : σ), Buf.AgreeBelow size.toNat b b' →
    m inst a.toAttributeData (some b) size s = m inst a.toAttributeData (some b') size s

def TablesKeep (es : List (BspEntity σ)) : Prop := ∀ e ∈ es, ∀ t ∈ e.pAttributes, ∀ a ∈ t, a.KeepsTo

theorem filled_same {n : Nat} {b b' : Buf} (h : Buf.AgreeBelow n b b') (r : BspRval) (s : σ) :
    Filled n b b' (r, b, s) (r, b', s) where
  ret := rfl
  state := rfl
  agree := h
  frame := fun _ _ => rfl
  frame' := fun _ _ => rfl

/-- A copy of at most `n` bytes. -/
theorem filled_store {n : Nat} {b b' : Buf} (h : Buf.AgreeBelow n b b') (xs : List U8) (hx : xs.length ≤ n)
    (r : BspRval) (s : σ) : Filled n b b' (r, b.store xs, s) (r, b'.store xs, s) where
  ret := rfl
  state := rfl
  agree := by
    intro i hi
    by_cases hlt : i < xs.length
    · exact Buf.store_lt b b' xs hlt
    · have hle : xs.length ≤ i := by omega
      show b.store xs i = b'.store xs i
      rw [Buf.store_ge b xs hle, Buf.store_ge b' xs hle]
      exact h i hi
  frame := by
    intro k hk
    exact Buf.store_ge b xs (by omega)
  frame' := by
    intro k hk
    exact Buf.store_ge b' xs (by omega)

theorem rel_call {α : Type} {R : α → α → Prop} {r r' : Res Fault α} (h : Res.Rel R r r') (c c' : Call σ) :
    Run.Rel R (call c r) (call c' r') := by
  unfold Run.Rel
  rw [call_res, call_res]
  exact h.mapFault _

theorem rel_copy {n : Nat} {b b' : Buf} (h : Buf.AgreeBelow n b b') {xs : List U8} (hx : xs.length ≤ n) (r : BspRval)
    (s : σ) (c c' : Call σ) :
    Run.Rel (Filled n b b') (call c (.ok (r, b.store xs, s))) (call c' (.ok (r, b'.store xs, s))) := by
  have hstore : Res.Rel (Filled n b b') (.ok (r, b.store xs, s) : Res Fault _) (.ok (r, b'.store xs, s)) :=
    filled_store h xs hx r s
  exact rel_call hstore c c'

/-- The attribute a lookup finds is in a table of the list. -/
theorem find_keepsTo {es : List (BspEntity σ)} (hk : TablesKeep es) {en : CStr} {i : U32} {an : CStr} {c cmd : U32}
    {r : BspRval} {pE : Option (BspEntity σ)} {a : BspAttribute σ}
    (h : bspFindAttribute es en i an c cmd = .ok (r, pE, some a)) : a.KeepsTo := by
  rcases bspFindAttribute_cases es en i an c cmd with
    ⟨-, hf⟩ | ⟨ret, pE, -, hf⟩ | ⟨e, -, -, -, hf⟩ | ⟨e, f, -, -, -, -, hf⟩ | ⟨e, t, a', he, -, -, ht, hs, hf⟩
  · rw [hf] at h; cases h
  · rw [hf] at h; cases h
  · rw [hf] at h; cases h
  · rw [hf] at h; cases h
  · rw [hf] at h
    cases h
    have hmem : t ∈ e.pAttributes := by
      rw [selectTable_eq] at ht
      split at ht
      · cases ht
        exact List.mem_of_getElem? ‹_›
      · cases ht
    exact hk e (bspFindEntity_mem he).1 t hmem a (scanAttributes_some hs).1

/-! ## The request functions -/

section Requests

variable {es : List (BspEntity σ)} {en : CStr} {i : U32} {an : CStr} {size c : U32} {b b' : Buf} {s : σ}

/-- The start that the request functions share: they look the attribute up and give the
    answer back unless it is BSP_RVAL_OK. -/
theorem rel_lookup {α : Type} {R : α → α → Prop} {find : Res Fault (Found σ)} (refuse refuse' : BspRval → α)
    {body body' : BspAttribute σ → Prog σ α} (hr : ∀ ret, R (refuse ret) (refuse' ret))
    (hb : ∀ pE a, find = .ok (BSP_RVAL_OK, pE, some a) → Run.Rel R (body a) (body' a)) :
    Run.Rel R
      (do
        let (ret, _, pA) ← Run.lift find
        if ret ≠ BSP_RVAL_OK then return refuse ret
        let a ← derefAttribute pA
        body a)
      (do
        let (ret, _, pA) ← Run.lift find
        if ret ≠ BSP_RVAL_OK then return refuse' ret
        let a ← derefAttribute pA
        body' a) := by
  cases hf : find with
  | fault f => exact rfl
  | spin => trivial
  | ok y =>
    obtain ⟨ret, pE, pA⟩ := y
    rw [Run.lift_ok_bind, Run.lift_ok_bind]
    dsimp only
    by_cases hret : ret = BSP_RVAL_OK
    · rw [if_neg (not_not.mpr hret), if_neg (not_not.mpr hret)]
      subst hret
      cases pA with
      | none => exact rfl
      | some a =>
        rw [derefAttribute_some, Run.pure_bind, Run.pure_bind]
        exact hb pE a hf
    · rw [if_pos hret, if_pos hret]
      exact hr ret

theorem bspMethodRead_rel (hk : TablesKeep es) (h : Buf.AgreeBelow size.toNat b b') :
    Run.Rel (Filled size.toNat b b') (bspMethodRead es en i an size b c s) (bspMethodRead es en i an size b' c s) := by
  refine rel_lookup (fun ret => (ret, b, s)) (fun ret => (ret, b', s)) (fun ret => filled_same h ret s) fun pE a hf => ?_
  by_cases hsize : size = a.dataSize
  · rw [if_neg (not_not.mpr hsize), if_neg (not_not.mpr hsize)]
    cases hm : a.readMethod with
    | none => exact filled_same h _ s
    | some m =>
      have hfill := (find_keepsTo hk hf).read m hm
      rw [← hsize] at hfill
      exact rel_call (hfill i b b' s h) _ _
  · rw [if_pos hsize, if_pos hsize]
    exact filled_same h _ s

theorem bspMethodQuery_rel [DataMem σ] (hk : TablesKeep es) (h : Buf.AgreeBelow size.toNat b b') :
    Run.Rel (Filled size.toNat b b') (bspMethodQuery es en i an size b c s) (bspMethodQuery es en i an size b' c s) := by
  refine rel_lookup (fun ret => (ret, b, s)) (fun ret => (ret, b', s)) (fun ret => filled_same h ret s) fun pE a hf => ?_
  by_cases hsize : size = a.dataSize
  · rw [if_neg (not_not.mpr hsize), if_neg (not_not.mpr hsize)]
    cases hm : a.queryMethod with
    | some m =>
      have hfill := (find_keepsTo hk hf).query m hm
      rw [← hsize] at hfill
      exact rel_call (hfill i b b' s h) _ _
    | none =>
      dsimp only
      split
      · split
        · exact filled_same h _ s
        · -- the four bytes of the word, less those in front of its last `size`
          have hle : ((Buf.ofU32 a.data).drop (4 - size.toNat)).length ≤ size.toNat := by
            rw [List.length_drop, Buf.ofU32_length]
            omega
          exact rel_copy h hle BSP_RVAL_OK s _ _
      · split
        · have hle : ((Mem.view (DataMem.peek s) a.data).bytes 0 size.toNat).length ≤ size.toNat :=
            Nat.le_of_eq (Buf.bytes_length _ _ _)
          exact rel_copy h hle BSP_RVAL_OK s _ _
        · exact filled_same h _ s
  · rw [if_pos hsize, if_pos hsize]
    exact filled_same h _ s

theorem bspMethodWrite_rel (hk : TablesKeep es) (h : Buf.AgreeBelow size.toNat b b') :
    Run.Rel Eq (bspMethodWrite es en i an size b c s) (bspMethodWrite es en i an size b' c s) := by
  refine rel_lookup (fun ret => (ret, s)) (fun ret => (ret, s)) (fun ret => rfl) fun pE a hf => ?_
  by_cases hsize : size = a.dataSize
  · rw [if_neg (not_not.mpr hsize), if_neg (not_not.mpr hsize)]
    cases hm : a.writeMethod with
    | none => exact rfl
    | some m =>
      rw [hsize] at h
      refine rel_call ?_ _ _
      rw [(find_keepsTo hk hf).write m hm i b b' s h]
      exact Res.Rel.refl (fun _ => rfl) _
  · rw [if_pos hsize, if_pos hsize]
    exact rfl

/-- The walk of a global init passes NULL to every initMethod. -/
theorem bspMethodInit_rel (hk : TablesKeep es) (h : Buf.AgreeBelow size.toNat b b') (fuel : Nat) :
    Run.Rel Eq (bspMethodInit es en i an fuel size (some b) c s) (bspMethodInit es en i an fuel size (some b') c s) := by
  unfold bspMethodInit
  by_cases hn : first an ≠ 0
  · simp only [if_pos hn]
    refine rel_lookup (fun ret => (ret, s)) (fun ret => (ret, s)) (fun ret => rfl) fun pE a hf => ?_
    cases hm : a.initMethod with
    | none => exact rfl
    | some m =>
      refine rel_call ?_ _ _
      rw [(find_keepsTo hk hf).init m hm i b b' size s h]
      exact Res.Rel.refl (fun _ => rfl) _
  · simp only [if_neg hn]
    exact Run.rel_refl (fun _ => rfl) _

/-! ## A size that does not fit -/

/-- With the attribute found, what is left of a request function is its body. -/
theorem lookup_found {α : Type} {find : Res Fault (Found σ)} (refuse : BspRval → α) (body : BspAttribute σ → Prog σ α)
    {pE : Option (BspEntity σ)} {a : BspAttribute σ} (hf : find = .ok (BSP_RVAL_OK, pE, some a)) :
    (do
      let (ret, _, pA) ← Run.lift find
      if ret ≠ BSP_RVAL_OK then return refuse ret
      let a ← derefAttribute pA
      body a) = body a := by
  rw [hf, Run.lift_ok_bind]
  dsimp only
  rw [if_neg (not_not.mpr rfl), derefAttribute_some, Run.pure_bind]

theorem bspMethodRead_refuses {pE : Option (BspEntity σ)} {a : BspAttribute σ}
    (hf : bspFindAttribute es en i an c BSP_IOCTL_METHOD_READ = .ok (BSP_RVAL_OK, pE, some a)) (hs : size ≠ a.dataSize) :
    bspMethodRead es en i an size b c s = pure (BSP_RVAL_SPECIFIED_SIZE_INVALID, b, s) :=
  (lookup_found (fun ret => (ret, b, s)) _ hf).trans (if_pos hs)

theorem bspMethodQuery_refuses [DataMem σ] {pE : Option (BspEntity σ)} {a : BspAttribute σ}
    (hf : bspFindAttribute es en i an c BSP_IOCTL_METHOD_QUERY = .ok (BSP_RVAL_OK, pE, some a))
    (hs : size ≠ a.dataSize) :
    bspMethodQuery es en i an size b c s = pure (BSP_RVAL_SPECIFIED_SIZE_INVALID, b, s) :=
  (lookup_found (fun ret => (ret, b, s)) _ hf).trans (if_pos hs)

theorem bspMethodWrite_refuses {pE : Option (BspEntity σ)} {a : BspAttribute σ}
    (hf : bspFindAttribute es en i an c BSP_IOCTL_METHOD_WRITE = .ok (BSP_RVAL_OK, pE, some a))
    (hs : size ≠ a.dataSize) :
    bspMethodWrite es en i an size b c s = pure (BSP_RVAL_SPECIFIED_SIZE_INVALID, s) :=
  (lookup_found (fun ret => (ret, s)) _ hf).trans (if_pos hs)

end Requests

end Iosu.Entity
