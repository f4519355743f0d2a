/-
  Iosu.Entity.Decision — the whole answer of `bspFindAttribute`.

  `decision` is what a lookup of an attribute is to answer, from the entity, the
  instance, the name, the credentials and the command. `bspFindAttribute` gives that
  answer exactly where the search of the entity list comes to the entity, and the scan
  of the instance's table to an end: at the attribute, or at a NULL name
  (`decides_iff`).
-/

import Iosu.Entity.Sorted
import Iosu.Entities.Tables

namespace Iosu.Entity

open Iosu.Lib Iosu.Libc Iosu.Entities

variable {σ : Type}

/-! ## What a lookup is to answer -/

def BspAttribute.agrees (attributeName : CStr) (a : BspAttribute σ) : Bool :=
  match a.pName with
  | none => false
  | some pName => strncmp attributeName pName 32 = 0

def methodCommands : List U32 :=
  [BSP_IOCTL_METHOD_QUERY, BSP_IOCTL_METHOD_READ, BSP_IOCTL_METHOD_WRITE, BSP_IOCTL_METHOD_INIT, BSP_IOCTL_METHOD_SHUTDOWN]

/-- INTERNAL, and for each of the four kinds of client the bit of the command's class. -/
def classMask (attributeCommand : U32) : U32 :=
  BSP_PERMISSIONS_INTERNAL |||
    (if attributeCommand = BSP_IOCTL_METHOD_WRITE then 0x2222
    else if attributeCommand = BSP_IOCTL_METHOD_INIT then 0x4444
    else if attributeCommand = BSP_IOCTL_METHOD_SHUTDOWN then 0x8888
    else 0x1111)

def BspAttribute.effectivePermissions (a : BspAttribute σ) : U32 :=
  if a.permissions &&& BSP_PERMISSIONS_INTERNAL ≠ 0 then BSP_PERMISSIONS_INTERNAL else a.permissions

def BspAttribute.Allows (a : BspAttribute σ) (clientCredentials attributeCommand : U32) : Prop :=
  clientCredentials &&& BSP_PERMISSIONS_INTERNAL ≠ 0 ∨
    (attributeCommand ∈ methodCommands ∧
      clientCredentials &&& classMask attributeCommand &&& a.effectivePermissions ≠ 0)

instance (a : BspAttribute σ) (c cmd : U32) : Decidable (a.Allows c cmd) := inferInstanceAs (Decidable (_ ∨ _))

/-- The attributes of an instance; none where the entity has no table for it. -/
def BspEntity.attributesOf (e : BspEntity σ) (inst : U32) : List (BspAttribute σ) :=
  live ((e.pAttributes[e.tableIndex inst]?).getD [])

/-- The answer and `*ppA`. -/
def decision (e : BspEntity σ) (inst : U32) (attributeName : CStr) (clientCredentials attributeCommand : U32) :
    BspRval × Option (BspAttribute σ) :=
  if e.instanceCount ≤ inst then (BSP_RVAL_INVALID_INSTANCE, none)
  else
    match (e.attributesOf inst).find? (BspAttribute.agrees attributeName) with
    | none => (BSP_RVAL_UNKNOWN_ATTRIBUTE, none)
    | some a => (if a.Allows clientCredentials attributeCommand then BSP_RVAL_OK else BSP_RVAL_REQUEST_DENIED, some a)

/-- The first entity that agrees with the name. -/
def FirstNamed (es : List (BspEntity σ)) (entityName : CStr) (e : BspEntity σ) : Prop :=
  es.find? (fun e => strncmp entityName e.pName 32 = 0) = some e

def Decides (es : List (BspEntity σ)) (en : CStr) (e : BspEntity σ) (i : U32) (an : CStr) (c cmd : U32) : Prop :=
  ∃ pE, bspFindAttribute es en i an c cmd = .ok ((decision e i an c cmd).1, pE, (decision e i an c cmd).2)

/-- The scan of the instance's table comes to an end. -/
def BspEntity.ScanEnds (e : BspEntity σ) (inst : U32) (attributeName : CStr) : Prop :=
  ∃ t, e.pAttributes[e.tableIndex inst]? = some t ∧ ((∃ a ∈ live t, a.agrees attributeName = true) ∨ Terminated t)

theorem decision_ne_unknown_entity (e : BspEntity σ) (i : U32) (an : CStr) (c cmd : U32) :
    (decision e i an c cmd).1 ≠ BSP_RVAL_UNKNOWN_ENTITY := by
  have hcodes : BSP_RVAL_INVALID_INSTANCE ≠ BSP_RVAL_UNKNOWN_ENTITY ∧ BSP_RVAL_UNKNOWN_ATTRIBUTE ≠ BSP_RVAL_UNKNOWN_ENTITY ∧
      BSP_RVAL_OK ≠ BSP_RVAL_UNKNOWN_ENTITY ∧ BSP_RVAL_REQUEST_DENIED ≠ BSP_RVAL_UNKNOWN_ENTITY := by decide
  obtain ⟨hinstance, hattribute, hok, hdenied⟩ := hcodes
  unfold decision
  split
  · exact hinstance
  · split
    · exact hattribute
    · dsimp only
      split
      · exact hok
      · exact hdenied

/-! ## The parts of a lookup -/

theorem commandMask_classMask (cmd : U32) :
    commandMask cmd = if cmd ∈ methodCommands then some (classMask cmd) else none := by
  by_cases hmem : cmd ∈ methodCommands
  · rw [if_pos hmem]
    simp only [methodCommands, List.mem_cons, List.not_mem_nil, or_false] at hmem
    rcases hmem with rfl | rfl | rfl | rfl | rfl <;> decide
  · rw [if_neg hmem]
    simp only [methodCommands, List.mem_cons, List.not_mem_nil, or_false, not_or] at hmem
    obtain ⟨hquery, hread, hwrite, hinit, hshutdown⟩ := hmem
    unfold commandMask
    rw [if_neg (not_or.mpr ⟨hquery, hread⟩), if_neg hwrite, if_neg hinit, if_neg hshutdown]

theorem checkPermissions_decision (a : BspAttribute σ) (c cmd : U32) :
    checkPermissions BSP_RVAL_OK (some a) c cmd = if a.Allows c cmd then BSP_RVAL_OK else BSP_RVAL_REQUEST_DENIED := by
  have hdenied : BSP_RVAL_OK ||| BSP_RVAL_REQUEST_DENIED = BSP_RVAL_REQUEST_DENIED := by decide
  unfold checkPermissions
  by_cases hinternal : c &&& BSP_PERMISSIONS_INTERNAL ≠ 0
  · rw [if_pos hinternal, if_pos (show a.Allows c cmd from Or.inl hinternal)]
  · rw [if_neg hinternal]
    dsimp only
    rw [commandMask_classMask, hdenied]
    by_cases hmem : cmd ∈ methodCommands
    · rw [if_pos hmem]
      show (if c &&& classMask cmd &&& a.effectivePermissions ≠ 0 then BSP_RVAL_OK else BSP_RVAL_REQUEST_DENIED) = _
      refine if_congr ?_ rfl rfl
      exact ⟨fun h => Or.inr ⟨hmem, h⟩, fun h => (h.resolve_left hinternal).2⟩
    · have hnot : ¬ a.Allows c cmd := fun h => hmem (h.resolve_left hinternal).1
      rw [if_neg hmem, if_neg hnot]

/-- The scan finds the first entry that agrees; without one it ends at a NULL name, or
    not at all. -/
theorem scanAttributes_find (an : CStr) (t : List (BspAttribute σ)) :
    (∀ a, (live t).find? (BspAttribute.agrees an) = some a → scanAttributes an t = .ok (some a)) ∧
      ((live t).find? (BspAttribute.agrees an) = none →
        (Terminated t → scanAttributes an t = .ok none) ∧ (¬ Terminated t → scanAttributes an t = .fault .tableOverrun)) := by
  induction t with
  | nil =>
    refine ⟨fun a h => (by cases h), fun _ => ⟨fun h => ?_, fun _ => rfl⟩⟩
    obtain ⟨a, ha, -⟩ := h
    cases ha
  | cons b rest ih =>
    unfold scanAttributes
    cases hb : b.pName with
    | none =>
      rw [live_cons_none rest hb]
      refine ⟨fun a h => (by cases h), fun _ => ⟨fun _ => rfl, fun h => ?_⟩⟩
      exact absurd ⟨b, List.mem_cons_self, hb⟩ h
    | some n =>
      have hterminated : Terminated (b :: rest) ↔ Terminated rest := by
        unfold Terminated
        simp [hb]
      have hagrees : b.agrees an = decide (strncmp an n 32 = 0) := by
        unfold BspAttribute.agrees
        rw [hb]
      rw [live_cons_some rest hb, List.find?_cons, hagrees, hterminated]
      by_cases h0 : strncmp an n 32 = 0
      · simp only [h0, decide_true, if_true]
        exact ⟨fun a h => congrArg Res.ok h, fun h => (by cases h)⟩
      · simp only [h0, decide_false, if_false]
        exact ih

theorem FirstNamed.of_names {es : List (BspEntity σ)} {n : CStr} {e : BspEntity σ} (h : Names es n e) : FirstNamed es n e := by
  obtain ⟨pre, post, rfl, hpre, hn⟩ := h
  refine List.find?_eq_some_iff_append.mpr ⟨by simpa using hn, pre, post, rfl, fun e' he' => ?_⟩
  have := hpre e' he'
  simp
  omega

/-! ## The answer -/

/-- With the entity found, the instance in range and its table at hand. -/
theorem find_table {es : List (BspEntity σ)} {en an : CStr} {e : BspEntity σ} {i c cmd : U32} {t : List (BspAttribute σ)}
    (he : Names es en e) (hi : i < e.instanceCount) (hn : first an ≠ 0) (ht : e.pAttributes[e.tableIndex i]? = some t) :
    bspFindAttribute es en i an c cmd = (scanAttributes an t >>= fun r =>
      match r with
      | none => .ok (BSP_RVAL_UNKNOWN_ATTRIBUTE, some e, none)
      | some a => .ok (checkPermissions BSP_RVAL_OK (some a) c cmd, some e, some a)) := by
  rw [find_scan ((bspFindEntity_eq_some es en e).mpr he) hi hn, selectTable_eq, ht]
  rfl

theorem decision_of_table {e : BspEntity σ} {i : U32} {an : CStr} {t : List (BspAttribute σ)} (c cmd : U32)
    (hi : i < e.instanceCount) (ht : e.pAttributes[e.tableIndex i]? = some t) :
    decision e i an c cmd =
      match (live t).find? (BspAttribute.agrees an) with
      | none => (BSP_RVAL_UNKNOWN_ATTRIBUTE, none)
      | some a => (if a.Allows c cmd then BSP_RVAL_OK else BSP_RVAL_REQUEST_DENIED, some a) := by
  unfold decision BspEntity.attributesOf
  rw [if_neg (BitVec.not_le.mpr hi), ht]
  rfl

/-- Where the search comes to the entity. -/
theorem decides_found {es : List (BspEntity σ)} {en an : CStr} {e : BspEntity σ} {i : U32} (he : Names es en e)
    (hn : first an ≠ 0) (c cmd : U32) :
    Decides es en e i an c cmd ↔ (i < e.instanceCount → e.ScanEnds i an) := by
  by_cases hi : i < e.instanceCount
  · cases ht : e.pAttributes[e.tableIndex i]? with
    | none =>
      have hfault : bspFindAttribute es en i an c cmd = .fault .tableIndex := by
        rw [find_scan ((bspFindEntity_eq_some es en e).mpr he) hi hn, selectTable_eq, ht]
        rfl
      refine ⟨?_, fun h => ?_⟩
      · intro hsome
        obtain ⟨pE, h⟩ := hsome
        rw [hfault] at h
        cases h
      · obtain ⟨t, ht', -⟩ := h hi
        rw [ht] at ht'
        cases ht'
    | some t =>
      have hends : e.ScanEnds i an ↔ ((∃ a ∈ live t, a.agrees an = true) ∨ Terminated t) := by
        unfold BspEntity.ScanEnds
        simp [ht]
      have hscan := scanAttributes_find an t
      unfold Decides
      rw [find_table he hi hn ht, decision_of_table c cmd hi ht, hends]
      cases hfind : (live t).find? (BspAttribute.agrees an) with
      | some a =>
        have hfound : ∃ a ∈ live t, a.agrees an = true := ⟨a, List.mem_of_find?_eq_some hfind, List.find?_some hfind⟩
        refine ⟨fun _ _ => Or.inl hfound, fun _ => ⟨some e, ?_⟩⟩
        rw [hscan.1 a hfind, Res.ok_bind]
        exact congrArg (fun ret => Res.ok (ret, some e, some a)) (checkPermissions_decision a c cmd)
      | none =>
        have hnot : ¬ ∃ a ∈ live t, a.agrees an = true := by
          intro hsome
          obtain ⟨a, ha, hagrees⟩ := hsome
          exact absurd hagrees (List.find?_eq_none.mp hfind a ha)
        by_cases hterm : Terminated t
        · refine ⟨fun _ _ => Or.inr hterm, fun _ => ⟨some e, ?_⟩⟩
          rw [(hscan.2 hfind).1 hterm]
          rfl
        · refine ⟨?_, fun h => absurd (h hi) (not_or.mpr ⟨hnot, hterm⟩)⟩
          intro hsome
          obtain ⟨pE, h⟩ := hsome
          rw [(hscan.2 hfind).2 hterm] at h
          cases h
  · refine ⟨fun _ h => absurd h hi, fun _ => ⟨some e, ?_⟩⟩
    unfold decision
    rw [find_instance ((bspFindEntity_eq_some es en e).mpr he) (BitVec.not_lt.mp hi), if_pos (BitVec.not_lt.mp hi)]

/-- A lookup of an attribute in an entity that the list has answers as it should exactly
    when the search comes to the entity, and for an instance in range the scan of its
    table to an end. -/
theorem decides_iff {es : List (BspEntity σ)} {en an : CStr} {e : BspEntity σ} (he : FirstNamed es en e)
    (hn : first an ≠ 0) (i c cmd : U32) :
    Decides es en e i an c cmd ↔ Names es en e ∧ (i < e.instanceCount → e.ScanEnds i an) := by
  by_cases hnames : Names es en e
  · rw [decides_found hnames hn]
    exact ⟨fun h => ⟨hnames, h⟩, fun h => h.2⟩
  · refine ⟨?_, fun h => absurd h.1 hnames⟩
    intro hsome
    obtain ⟨pE, h⟩ := hsome
    rcases bspFindEntity_cases es en with ⟨e', -, -, hr⟩ | ⟨hr, -⟩ | ⟨-, hoff⟩
    · have hnames' := (bspFindEntity_eq_some es en e').mp hr
      have hsame : e' = e := Option.some.inj ((FirstNamed.of_names hnames').symm.trans he)
      exact absurd (hsame ▸ hnames') hnames
    · rw [find_unknown hr] at h
      simp only [Res.ok.injEq, Prod.mk.injEq] at h
      exact absurd h.1.symm (decision_ne_unknown_entity e i an c cmd)
    · rw [find_runsOff hoff] at h
      cases h

/-- A list with nothing but EE. -/
def eeList : List (BspEntity Unit) := [bspEE_entity idleCallbacks]

theorem eeList_named : Names eeList (cstr "EE") (bspEE_entity idleCallbacks) :=
  ⟨[], [], rfl, fun e' he' => absurd he' List.not_mem_nil, by decide⟩

/-- Its "access" is found for a supervisor. -/
theorem eeList_access : Decides eeList (cstr "EE") (bspEE_entity idleCallbacks) 5 (cstr "access")
    BSP_PERMISSIONS_IOS_SUPV_READ BSP_IOCTL_METHOD_READ :=
  (decides_iff (FirstNamed.of_names eeList_named) (by decide) 5 BSP_PERMISSIONS_IOS_SUPV_READ BSP_IOCTL_METHOD_READ).mpr
    ⟨eeList_named, fun _ => ⟨_, rfl, Or.inl ⟨_, List.mem_cons_self, by decide⟩⟩⟩

/-- A "wp" is not there: the scan leaves the table. -/
theorem eeList_overruns : FirstNamed eeList (cstr "EE") (bspEE_entity idleCallbacks) ∧
    ¬ Decides eeList (cstr "EE") (bspEE_entity idleCallbacks) 0 (cstr "wp") BSP_PERMISSIONS_INTERNAL BSP_IOCTL_METHOD_READ := by
  have hfault : bspFindAttribute eeList (cstr "EE") 0 (cstr "wp") BSP_PERMISSIONS_INTERNAL BSP_IOCTL_METHOD_READ =
      .fault .tableOverrun := rfl
  refine ⟨FirstNamed.of_names eeList_named, ?_⟩
  intro hsome
  obtain ⟨pE, h⟩ := hsome
  rw [hfault] at h
  cases h

end Iosu.Entity
