/-
  Iosu.Entity.Find — `bspFindEntity` and `bspFindAttribute` (`entity.c`).

  `bspFindEntity` walks the entity list in order: it stops at the first entity whose
  name agrees with the query on 32 bytes, gives up at the first one that sorts after
  it, and answers BSP_RVAL_OK with a NULL entity when the list ends before either
  (`bspFindEntity_eq_null`). `bspFindAttribute` looks the entity up, checks the
  instance, answers BSP_RVAL_OK with a NULL attribute for the empty attribute name,
  scans the instance's table, and last checks the client's credentials against the
  attribute it found.

  `bspFindAttribute_cases` says once what a lookup can answer; the methods' properties
  are read off it.
-/

import Iosu.Entity.Types

namespace Iosu.Entity

open Iosu.Lib Iosu.Libc

variable {σ : Type}

/-! ## `bspFindEntity` -/

def findEntityFrom (entityName : CStr) : List (BspEntity σ) → BspRval × Option (BspEntity σ)
  | [] => (BSP_RVAL_OK, none)
  | e :: es =>
    let ret := strncmp entityName e.pName 32
    if ret = 0 then (BSP_RVAL_OK, some e)
    else if ret < 0 then (BSP_RVAL_UNKNOWN_ENTITY, none)
    else findEntityFrom entityName es

def bspFindEntity (bspEntityList : List (BspEntity σ)) (entityName : CStr) : BspRval × Option (BspEntity σ) :=
  if bspEntityList.length = 0 then (BSP_RVAL_UNKNOWN_ENTITY, none)
  else findEntityFrom entityName bspEntityList

/-- The list ends before an entity at or after the name. -/
def RunsOff (bspEntityList : List (BspEntity σ)) (entityName : CStr) : Prop :=
  bspEntityList ≠ [] ∧ ∀ e ∈ bspEntityList, 0 < strncmp entityName e.pName 32

instance (es : List (BspEntity σ)) (n : CStr) : Decidable (RunsOff es n) :=
  inferInstanceAs (Decidable (_ ∧ _))

/-- `e` is the first entity at or after the name, and the name is its. -/
def Names (bspEntityList : List (BspEntity σ)) (entityName : CStr) (e : BspEntity σ) : Prop :=
  ∃ pre post, bspEntityList = pre ++ e :: post ∧ (∀ e' ∈ pre, 0 < strncmp entityName e'.pName 32) ∧
    strncmp entityName e.pName 32 = 0

theorem findEntityFrom_cases (n : CStr) (es : List (BspEntity σ)) :
    (∃ e ∈ es, strncmp n e.pName 32 = 0 ∧ findEntityFrom n es = (BSP_RVAL_OK, some e)) ∨
      findEntityFrom n es = (BSP_RVAL_UNKNOWN_ENTITY, none) ∧ (∃ e ∈ es, strncmp n e.pName 32 < 0) ∨
      findEntityFrom n es = (BSP_RVAL_OK, none) ∧ ∀ e ∈ es, 0 < strncmp n e.pName 32 := by
  induction es with
  | nil => right; right; exact ⟨rfl, by simp⟩
  | cons e es ih =>
    simp only [findEntityFrom]
    split
    · rename_i h0
      exact Or.inl ⟨e, List.mem_cons_self, h0, rfl⟩
    · split
      · rename_i hneg
        exact Or.inr (Or.inl ⟨rfl, e, List.mem_cons_self, hneg⟩)
      · rename_i h0 hneg
        rcases ih with ⟨e', he', h, hr⟩ | ⟨hr, e', he', h⟩ | ⟨hr, h⟩
        · exact Or.inl ⟨e', List.mem_cons_of_mem _ he', h, hr⟩
        · exact Or.inr (Or.inl ⟨hr, e', List.mem_cons_of_mem _ he', h⟩)
        · refine Or.inr (Or.inr ⟨hr, fun e' he' => ?_⟩)
          rcases List.mem_cons.mp he' with rfl | he'
          · omega
          · exact h e' he'

/-- What a lookup of an entity answers. -/
theorem bspFindEntity_cases (es : List (BspEntity σ)) (n : CStr) :
    (∃ e ∈ es, strncmp n e.pName 32 = 0 ∧ bspFindEntity es n = (BSP_RVAL_OK, some e)) ∨
      (bspFindEntity es n = (BSP_RVAL_UNKNOWN_ENTITY, none) ∧ ¬ RunsOff es n) ∨
      (bspFindEntity es n = (BSP_RVAL_OK, none) ∧ RunsOff es n) := by
  unfold bspFindEntity
  split
  · rename_i h
    have : es = [] := List.eq_nil_of_length_eq_zero h
    exact Or.inr (Or.inl ⟨rfl, fun hr => hr.1 this⟩)
  · rename_i h
    rcases findEntityFrom_cases n es with he | ⟨hr, e, he, hlt⟩ | ⟨hr, hall⟩
    · exact Or.inl he
    · exact Or.inr (Or.inl ⟨hr, fun ho => by have := ho.2 e he; omega⟩)
    · exact Or.inr (Or.inr ⟨hr, by rintro rfl; simp at h, hall⟩)

theorem unknown_ne_ok : BSP_RVAL_UNKNOWN_ENTITY ≠ BSP_RVAL_OK := by decide

/-- BSP_RVAL_OK with a NULL entity: exactly when the list runs off its end. -/
theorem bspFindEntity_eq_null (es : List (BspEntity σ)) (n : CStr) :
    bspFindEntity es n = (BSP_RVAL_OK, none) ↔ RunsOff es n := by
  rcases bspFindEntity_cases es n with ⟨e, he, h0, hr⟩ | ⟨hr, hno⟩ | ⟨hr, ho⟩
  · rw [hr]
    refine ⟨by simp, fun ho => ?_⟩
    have := ho.2 e he
    omega
  · rw [hr]
    exact ⟨fun h => absurd (Prod.mk.inj h).1 unknown_ne_ok, fun ho => absurd ho hno⟩
  · rw [hr]; simp [ho]

theorem bspFindEntity_mem {es : List (BspEntity σ)} {n : CStr} {r : BspRval} {e : BspEntity σ}
    (h : bspFindEntity es n = (r, some e)) : e ∈ es ∧ r = BSP_RVAL_OK := by
  rcases bspFindEntity_cases es n with ⟨e', he, -, hr⟩ | ⟨hr, -⟩ | ⟨hr, -⟩
  · rw [hr] at h
    simp only [Prod.mk.injEq, Option.some.injEq] at h
    obtain ⟨rfl, rfl⟩ := h
    exact ⟨he, rfl⟩
  · rw [hr] at h; simp at h
  · rw [hr] at h; simp at h

theorem findEntityFrom_eq_some (es : List (BspEntity σ)) (n : CStr) (e : BspEntity σ) :
    findEntityFrom n es = (BSP_RVAL_OK, some e) ↔ Names es n e := by
  induction es with
  | nil =>
    constructor
    · intro h; cases h
    · intro hsome
      obtain ⟨pre, post, h, -, -⟩ := hsome
      cases pre <;> cases h
  | cons b es ih =>
    simp only [findEntityFrom]
    by_cases h0 : strncmp n b.pName 32 = 0
    · rw [if_pos h0]
      constructor
      · intro h
        obtain rfl : b = e := by simpa using h
        exact ⟨[], es, rfl, by simp, h0⟩
      · intro hsome
        obtain ⟨pre, post, h, hpre, -⟩ := hsome
        cases pre with
        | nil => cases h; rfl
        | cons x pre =>
          cases h
          have := hpre b List.mem_cons_self
          omega
    · rw [if_neg h0]
      by_cases hneg : strncmp n b.pName 32 < 0
      · rw [if_pos hneg]
        constructor
        · intro h; cases h
        · intro hsome
          obtain ⟨pre, post, h, hpre, heq⟩ := hsome
          cases pre with
          | nil => cases h; omega
          | cons x pre =>
            cases h
            have := hpre b List.mem_cons_self
            omega
      · rw [if_neg hneg, ih]
        constructor
        · intro hsome
          obtain ⟨pre, post, rfl, hpre, heq⟩ := hsome
          refine ⟨b :: pre, post, rfl, ?_, heq⟩
          intro x hx
          rcases List.mem_cons.mp hx with rfl | hx
          · omega
          · exact hpre x hx
        · intro hsome
          obtain ⟨pre, post, h, hpre, heq⟩ := hsome
          cases pre with
          | nil => cases h; omega
          | cons x pre =>
            cases h
            exact ⟨pre, post, rfl, fun y hy => hpre y (List.mem_cons_of_mem _ hy), heq⟩

/-- BSP_RVAL_OK with an entity: exactly the one the name is for. -/
theorem bspFindEntity_eq_some (es : List (BspEntity σ)) (n : CStr) (e : BspEntity σ) :
    bspFindEntity es n = (BSP_RVAL_OK, some e) ↔ Names es n e := by
  unfold bspFindEntity
  split
  · rename_i h
    have hnil : es = [] := List.eq_nil_of_length_eq_zero h
    constructor
    · intro h'; cases (Prod.mk.inj h').2
    · intro hsome
      obtain ⟨pre, post, rfl, -, -⟩ := hsome
      simp at hnil
  · exact findEntityFrom_eq_some es n e

/-! ## `bspFindAttribute` -/

/-- The bits of the credentials that count for a command; none for a command that is
    not one of the five methods. -/
def commandMask (attributeCommand : U32) : Option U32 :=
  if attributeCommand = BSP_IOCTL_METHOD_QUERY ∨ attributeCommand = BSP_IOCTL_METHOD_READ then
    some (BSP_PERMISSIONS_INTERNAL ||| BSP_PERMISSIONS_PPC_SUPV_READ ||| BSP_PERMISSIONS_PPC_USER_READ |||
      BSP_PERMISSIONS_IOS_SUPV_READ ||| BSP_PERMISSIONS_IOS_USER_READ)
  else if attributeCommand = BSP_IOCTL_METHOD_WRITE then
    some (BSP_PERMISSIONS_INTERNAL ||| BSP_PERMISSIONS_PPC_SUPV_WRITE ||| BSP_PERMISSIONS_PPC_USER_WRITE |||
      BSP_PERMISSIONS_IOS_SUPV_WRITE ||| BSP_PERMISSIONS_IOS_USER_WRITE)
  else if attributeCommand = BSP_IOCTL_METHOD_INIT then
    some (BSP_PERMISSIONS_INTERNAL ||| BSP_PERMISSIONS_PPC_SUPV_INIT ||| BSP_PERMISSIONS_PPC_USER_INIT |||
      BSP_PERMISSIONS_IOS_SUPV_INIT ||| BSP_PERMISSIONS_IOS_USER_INIT)
  else if attributeCommand = BSP_IOCTL_METHOD_SHUTDOWN then
    some (BSP_PERMISSIONS_INTERNAL ||| BSP_PERMISSIONS_PPC_SUPV_SHUTDOWN ||| BSP_PERMISSIONS_PPC_USER_SHUTDOWN |||
      BSP_PERMISSIONS_IOS_SUPV_SHUTDOWN ||| BSP_PERMISSIONS_IOS_USER_SHUTDOWN)
  else none

/-- The end of `bspFindAttribute`: `ret`, or `ret` with the denial or-ed in. -/
def checkPermissions (ret : BspRval) (pA : Option (BspAttribute σ)) (clientCredentials attributeCommand : U32) :
    BspRval :=
  if clientCredentials &&& BSP_PERMISSIONS_INTERNAL ≠ 0 then ret
  else
    match pA with
    | none => ret
    | some a =>
      let permissions := if a.permissions &&& BSP_PERMISSIONS_INTERNAL ≠ 0 then BSP_PERMISSIONS_INTERNAL
        else a.permissions
      match commandMask attributeCommand with
      | none => ret ||| BSP_RVAL_REQUEST_DENIED
      | some mask => if clientCredentials &&& mask &&& permissions ≠ 0 then ret else ret ||| BSP_RVAL_REQUEST_DENIED

/-- `entity->pAttributes[0]` or `entity->pAttributes[instance]`. -/
def selectTable (entity : BspEntity σ) (inst : U32) : Res Fault (List (BspAttribute σ)) :=
  if entity.options &&& BSP_EO_FLAT_INSTANCES ≠ 0 then
    match entity.pAttributes[0]? with
    | some t => .ok t
    | none => .fault .tableIndex
  else
    match entity.pAttributes[inst.toNat]? with
    | some t => .ok t
    | none => .fault .tableIndex

/-- The `for (;;)` over the table. -/
def scanAttributes (attributeName : CStr) : List (BspAttribute σ) → Res Fault (Option (BspAttribute σ))
  | [] => .fault .tableOverrun
  | attrib :: rest =>
    match attrib.pName with
    | none => .ok none
    | some pName => if strncmp attributeName pName 32 = 0 then .ok (some attrib) else scanAttributes attributeName rest

/-- The answer, `*ppE` and `*ppA`. -/
abbrev Found (σ : Type) := BspRval × Option (BspEntity σ) × Option (BspAttribute σ)

def bspFindAttribute (bspEntityList : List (BspEntity σ)) (entityName : CStr) (inst : U32) (attributeName : CStr)
    (clientCredentials attributeCommand : U32) : Res Fault (Found σ) :=
  let (ret, pE) := bspFindEntity bspEntityList entityName
  if ret = BSP_RVAL_OK then
    match pE with
    | none => .fault .nullEntity
    | some entity =>
      if entity.instanceCount ≤ inst then .ok (BSP_RVAL_INVALID_INSTANCE, some entity, none)
      else if first attributeName = 0 then .ok (BSP_RVAL_OK, some entity, none)
      else do
        let attrib ← selectTable entity inst
        match ← scanAttributes attributeName attrib with
        | none => .ok (BSP_RVAL_UNKNOWN_ATTRIBUTE, some entity, none)
        | some a => .ok (checkPermissions ret (some a) clientCredentials attributeCommand, some entity, some a)
  else .ok (checkPermissions ret (none : Option (BspAttribute σ)) clientCredentials attributeCommand, pE, none)

theorem selectTable_eq (e : BspEntity σ) (i : U32) :
    selectTable e i = match e.pAttributes[e.tableIndex i]? with
      | some t => .ok t
      | none => .fault .tableIndex := by
  unfold selectTable BspEntity.tableIndex
  split <;> rfl

/-- A scan that finds something finds a named entry that agrees with the name, and
    the first such. -/
theorem scanAttributes_some {n : CStr} {t : List (BspAttribute σ)} {a : BspAttribute σ}
    (h : scanAttributes n t = .ok (some a)) : a ∈ t ∧ ∃ m, a.pName = some m ∧ strncmp n m 32 = 0 := by
  induction t with
  | nil => simp [scanAttributes] at h
  | cons b rest ih =>
    simp only [scanAttributes] at h
    split at h
    · simp at h
    · rename_i m hm
      split at h
      · rename_i h0
        obtain rfl : b = a := by simpa using h
        exact ⟨List.mem_cons_self, m, hm, h0⟩
      · obtain ⟨ha, hx⟩ := ih h
        exact ⟨List.mem_cons_of_mem _ ha, hx⟩

theorem scanAttributes_fault {n : CStr} {t : List (BspAttribute σ)} {f : Fault}
    (h : scanAttributes n t = .fault f) : f = .tableOverrun := by
  induction t with
  | nil => simpa [scanAttributes, eq_comm] using h
  | cons b rest ih =>
    simp only [scanAttributes] at h
    split at h
    · simp at h
    · split at h
      · simp at h
      · exact ih h

theorem scanAttributes_ne_spin (n : CStr) (t : List (BspAttribute σ)) : scanAttributes n t ≠ .spin := by
  induction t with
  | nil => simp [scanAttributes]
  | cons b rest ih =>
    simp only [scanAttributes]
    split
    · simp
    · split
      · simp
      · exact ih

theorem checkPermissions_none (r : BspRval) (c cmd : U32) :
    checkPermissions r (none : Option (BspAttribute σ)) c cmd = r := by
  simp [checkPermissions]

theorem checkPermissions_ret (a : BspAttribute σ) (c cmd : U32) :
    checkPermissions BSP_RVAL_OK (some a) c cmd = BSP_RVAL_OK ∨
      checkPermissions BSP_RVAL_OK (some a) c cmd = BSP_RVAL_REQUEST_DENIED := by
  have hden : BSP_RVAL_OK ||| BSP_RVAL_REQUEST_DENIED = BSP_RVAL_REQUEST_DENIED := by decide
  unfold checkPermissions
  split
  · exact Or.inl rfl
  · dsimp only
    rw [hden]
    cases commandMask cmd with
    | none => exact Or.inr rfl
    | some mask => exact ite_eq_or_eq _ _ _

/-- A denial leaves a bit in the answer. -/
theorem checkPermissions_ok {a : BspAttribute σ} {c cmd : U32}
    (h : checkPermissions BSP_RVAL_OK (some a) c cmd = BSP_RVAL_OK) :
    c &&& BSP_PERMISSIONS_INTERNAL ≠ 0 ∨
      ∃ mask, commandMask cmd = some mask ∧
        c &&& mask &&& (if a.permissions &&& BSP_PERMISSIONS_INTERNAL ≠ 0 then BSP_PERMISSIONS_INTERNAL
          else a.permissions) ≠ 0 := by
  have hden : BSP_RVAL_OK ||| BSP_RVAL_REQUEST_DENIED ≠ BSP_RVAL_OK := by decide
  unfold checkPermissions at h
  split at h
  · exact Or.inl ‹_›
  · right
    dsimp only at h
    cases hm : commandMask cmd with
    | none => rw [hm] at h; exact absurd h hden
    | some mask =>
      rw [hm] at h
      refine ⟨mask, rfl, fun h0 => ?_⟩
      simp only [h0, ne_eq, not_true_eq_false, if_false] at h
      exact absurd h hden

section Lookup

variable {es : List (BspEntity σ)} {en an : CStr} {i c cmd : U32}

theorem find_runsOff (h : RunsOff es en) : bspFindAttribute es en i an c cmd = .fault .nullEntity := by
  simp [bspFindAttribute, (bspFindEntity_eq_null es en).mpr h]

theorem find_unknown (h : bspFindEntity es en = (BSP_RVAL_UNKNOWN_ENTITY, none)) :
    bspFindAttribute es en i an c cmd = .ok (BSP_RVAL_UNKNOWN_ENTITY, none, none) := by
  simp [bspFindAttribute, h, unknown_ne_ok, checkPermissions_none]

theorem find_instance {e : BspEntity σ} (h : bspFindEntity es en = (BSP_RVAL_OK, some e))
    (hi : e.instanceCount ≤ i) :
    bspFindAttribute es en i an c cmd = .ok (BSP_RVAL_INVALID_INSTANCE, some e, none) := by
  simp [bspFindAttribute, h, hi]

theorem find_empty {e : BspEntity σ} (h : bspFindEntity es en = (BSP_RVAL_OK, some e))
    (hi : i < e.instanceCount) (hn : first an = 0) :
    bspFindAttribute es en i an c cmd = .ok (BSP_RVAL_OK, some e, none) := by
  have : ¬ e.instanceCount ≤ i := BitVec.not_le.mpr hi
  simp [bspFindAttribute, h, this, hn]

theorem find_scan {e : BspEntity σ} (h : bspFindEntity es en = (BSP_RVAL_OK, some e))
    (hi : i < e.instanceCount) (hn : first an ≠ 0) :
    bspFindAttribute es en i an c cmd = (selectTable e i >>= fun t => scanAttributes an t >>= fun r =>
      match r with
      | none => .ok (BSP_RVAL_UNKNOWN_ATTRIBUTE, some e, none)
      | some a => .ok (checkPermissions BSP_RVAL_OK (some a) c cmd, some e, some a)) := by
  have : ¬ e.instanceCount ≤ i := BitVec.not_le.mpr hi
  simp only [bspFindAttribute, h, if_true]
  rw [if_neg this, if_neg hn]

/-- Everything a lookup can answer. -/
theorem bspFindAttribute_cases (es : List (BspEntity σ)) (en : CStr) (i : U32) (an : CStr) (c cmd : U32) :
    (RunsOff es en ∧ bspFindAttribute es en i an c cmd = .fault .nullEntity) ∨
    (∃ r pE, r ≠ BSP_RVAL_OK ∧ bspFindAttribute es en i an c cmd = .ok (r, pE, none)) ∨
    (∃ e, bspFindEntity es en = (BSP_RVAL_OK, some e) ∧ i < e.instanceCount ∧ first an = 0 ∧
      bspFindAttribute es en i an c cmd = .ok (BSP_RVAL_OK, some e, none)) ∨
    (∃ e f, bspFindEntity es en = (BSP_RVAL_OK, some e) ∧ i < e.instanceCount ∧ first an ≠ 0 ∧
      (f = .tableIndex ∨ f = .tableOverrun) ∧ bspFindAttribute es en i an c cmd = .fault f) ∨
    (∃ e t a, bspFindEntity es en = (BSP_RVAL_OK, some e) ∧ i < e.instanceCount ∧ first an ≠ 0 ∧
      selectTable e i = .ok t ∧ scanAttributes an t = .ok (some a) ∧
      bspFindAttribute es en i an c cmd = .ok (checkPermissions BSP_RVAL_OK (some a) c cmd, some e, some a)) := by
  rcases bspFindEntity_cases es en with ⟨e, -, -, he⟩ | ⟨hu, -⟩ | ⟨-, ho⟩
  · by_cases hi : i < e.instanceCount
    · by_cases hn : first an = 0
      · exact Or.inr (Or.inr (Or.inl ⟨e, he, hi, hn, find_empty he hi hn⟩))
      · have hs : bspFindAttribute es en i an c cmd = _ := find_scan he hi hn
        cases ht : selectTable e i with
        | ok t =>
          rw [ht, Res.ok_bind] at hs
          cases hr : scanAttributes an t with
          | ok r =>
            rw [hr, Res.ok_bind] at hs
            cases r with
            | none => exact Or.inr (Or.inl ⟨_, _, by decide, hs⟩)
            | some a => exact Or.inr (Or.inr (Or.inr (Or.inr ⟨e, t, a, he, hi, hn, ht, hr, hs⟩)))
          | fault f =>
            rw [hr] at hs
            exact Or.inr (Or.inr (Or.inr (Or.inl ⟨e, f, he, hi, hn, Or.inr (scanAttributes_fault hr), hs⟩)))
          | spin => exact absurd hr (scanAttributes_ne_spin an t)
        | fault f =>
          rw [ht] at hs
          have hf : f = .tableIndex := by
            rw [selectTable_eq] at ht
            split at ht <;> simp_all
          exact Or.inr (Or.inr (Or.inr (Or.inl ⟨e, f, he, hi, hn, Or.inl hf, hs⟩)))
        | spin =>
          rw [selectTable_eq] at ht
          split at ht <;> simp at ht
    · exact Or.inr (Or.inl ⟨_, _, by decide, find_instance he (BitVec.not_lt.mp hi)⟩)
  · exact Or.inr (Or.inl ⟨_, _, by decide, find_unknown hu⟩)
  · exact Or.inl ⟨ho, find_runsOff ho⟩

/-- The answers of a lookup. -/
theorem bspFindAttribute_ret {r : BspRval} {pE : Option (BspEntity σ)} {pA : Option (BspAttribute σ)}
    (h : bspFindAttribute es en i an c cmd = .ok (r, pE, pA)) :
    r = BSP_RVAL_OK ∨ r = BSP_RVAL_UNKNOWN_ENTITY ∨ r = BSP_RVAL_INVALID_INSTANCE ∨
      r = BSP_RVAL_UNKNOWN_ATTRIBUTE ∨ r = BSP_RVAL_REQUEST_DENIED := by
  rcases bspFindEntity_cases es en with ⟨e, -, -, he⟩ | ⟨hu, -⟩ | ⟨-, ho⟩
  · by_cases hi : i < e.instanceCount
    · by_cases hn : first an = 0
      · rw [find_empty he hi hn] at h
        cases h
        exact Or.inl rfl
      · rw [find_scan he hi hn] at h
        obtain ⟨t, -, h⟩ := Res.bind_eq_ok.mp h
        obtain ⟨a, -, h⟩ := Res.bind_eq_ok.mp h
        cases a with
        | none =>
          cases h
          exact Or.inr (Or.inr (Or.inr (Or.inl rfl)))
        | some a =>
          cases h
          rcases checkPermissions_ret a c cmd with hr | hr
          · exact Or.inl hr
          · exact Or.inr (Or.inr (Or.inr (Or.inr hr)))
    · rw [find_instance he (BitVec.not_lt.mp hi)] at h
      cases h
      exact Or.inr (Or.inr (Or.inl rfl))
  · rw [find_unknown hu] at h
    cases h
    exact Or.inr (Or.inl rfl)
  · rw [find_runsOff ho] at h
    cases h

end Lookup

end Iosu.Entity
