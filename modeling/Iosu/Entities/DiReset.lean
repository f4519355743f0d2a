/-
  Iosu.Entities.DiReset — the reset of DI (`bspDI_Reset_read`, `bspDI_Reset_write`,
  `bsp_di.c`).

  DI's reset is a line of the Reset entity, inverted: both methods go back through the
  entity layer, with the credential that skips the permission check (`find_internal`).
  On a line, a write reads back (`diReset_reads_back`). The read inverts and publishes its
  local byte before it looks at the answer, so a request that fails also stores a byte,
  made from a local that nothing was stored to (`diReset_iff`).
-/

import Iosu.Entities.Lines
import Iosu.Entity.Methods

namespace Iosu.Entities

open Iosu.Lib Iosu.Libc Iosu.Entity

variable {σ : Type}

def RESET : CStr := cstr "Reset"
def RSTB_DIRSTB : CStr := cstr "RSTB_DIRSTB"

/-- `!state` -/
def inverted (state : Buf) : U8 := if state 0 = 0 then 1 else 0

section Functions

variable (bspEntityList : List (BspEntity σ))

/-- `frame` is what the local holds before anything is stored to it. -/
def bspDI_Reset_read (frame : Buf) : OutMethod σ := fun _ _ pReadData s => do
  let (err, state, s) ← (bspMethodRead bspEntityList RESET 0 RSTB_DIRSTB 1 frame BSP_PERMISSIONS_INTERNAL s).res
  .ok (err, pReadData.store [inverted state], s)

def bspDI_Reset_write : InMethod σ := fun _ _ pWrittenData s =>
  (bspMethodWrite bspEntityList RESET 0 RSTB_DIRSTB 1 (fun _ => inverted pWrittenData) BSP_PERMISSIONS_INTERNAL s).res

/-- DI's lookup, for either method. -/
def resetLine : Res Fault (Found σ) :=
  bspFindAttribute bspEntityList RESET 0 RSTB_DIRSTB BSP_PERMISSIONS_INTERNAL BSP_IOCTL_METHOD_READ

end Functions

/-! ## The lookup -/

/-- With INTERNAL, the command makes no difference. -/
theorem find_internal (es : List (BspEntity σ)) (en an : CStr) (i cmd cmd' : U32) :
    bspFindAttribute es en i an BSP_PERMISSIONS_INTERNAL cmd =
      bspFindAttribute es en i an BSP_PERMISSIONS_INTERNAL cmd' := by
  have hcheck : ∀ (ret : BspRval) (pA : Option (BspAttribute σ)),
      checkPermissions ret pA BSP_PERMISSIONS_INTERNAL cmd = checkPermissions ret pA BSP_PERMISSIONS_INTERNAL cmd' := by
    intro ret pA
    unfold checkPermissions
    rw [if_pos (by decide), if_pos (by decide)]
  unfold bspFindAttribute
  simp only [hcheck]

section Requests

variable {es : List (BspEntity σ)} {en an : CStr} {i size c : U32} {pE : Option (BspEntity σ)} {a : BspAttribute σ}

/-- What a read comes to, by what its lookup found. -/
def readOutcome (i size : U32) (ret : BspRval) (pA : Option (BspAttribute σ)) (pReadData : Buf) (s : σ) :
    Res Fault (BspRval × Buf × σ) :=
  if ret ≠ BSP_RVAL_OK then .ok (ret, pReadData, s)
  else match pA with
    | none => .fault .nullAttribute
    | some a =>
      if size ≠ a.dataSize then .ok (BSP_RVAL_SPECIFIED_SIZE_INVALID, pReadData, s)
      else match a.readMethod with
        | none => .ok (BSP_RVAL_UNSUPPORTED_METHOD, pReadData, s)
        | some readMethod => (readMethod i a.toAttributeData pReadData s).mapFault .inCallback

theorem methodRead_eq {ret : BspRval} {pA : Option (BspAttribute σ)}
    (h : bspFindAttribute es en i an c BSP_IOCTL_METHOD_READ = .ok (ret, pE, pA)) (size : U32) (pReadData : Buf) (s : σ) :
    (bspMethodRead es en i an size pReadData c s).res = readOutcome i size ret pA pReadData s := by
  unfold bspMethodRead readOutcome
  rw [h, Run.lift_ok_bind]
  dsimp only
  split
  · rfl
  cases pA with
  | none => rfl
  | some a =>
    rw [derefAttribute_some, Run.pure_bind]
    dsimp only
    split
    · rfl
    cases a.readMethod with
    | none => rfl
    | some readMethod => exact call_res _ _

/-- When no read of what was found fails. -/
theorem readOutcome_ok_iff {ret : BspRval} {pA : Option (BspAttribute σ)} {pReadData : Buf} {s : σ} :
    (∀ r, readOutcome i size ret pA pReadData s = .ok r → r.1 = BSP_RVAL_OK) ↔
      ret = BSP_RVAL_OK ∧ ∀ a, pA = some a → a.dataSize = size ∧ ∃ readMethod, a.readMethod = some readMethod ∧
        ∀ r, readMethod i a.toAttributeData pReadData s = .ok r → r.1 = BSP_RVAL_OK := by
  unfold readOutcome
  by_cases hret : ret = BSP_RVAL_OK
  · rw [if_neg (not_not.mpr hret)]
    cases pA with
    | none => exact ⟨fun _ => ⟨hret, fun a ha => (by cases ha)⟩, fun _ r hr => (by cases hr)⟩
    | some a =>
      dsimp only
      by_cases hsize : a.dataSize = size
      · rw [if_neg (not_not.mpr hsize.symm)]
        refine ⟨fun h => ⟨hret, fun a' ha => ?_⟩, fun h r hr => ?_⟩
        · cases ha
          cases hread : a.readMethod with
          | none =>
            rw [hread] at h
            have hunsupported : BSP_RVAL_UNSUPPORTED_METHOD = BSP_RVAL_OK := h _ rfl
            exact absurd hunsupported (by decide)
          | some readMethod =>
            rw [hread] at h
            exact ⟨hsize, readMethod, rfl, fun r hr => h r (Res.mapFault_eq_ok.mpr hr)⟩
        · obtain ⟨-, readMethod, hread, hok⟩ := h.2 a rfl
          rw [hread] at hr
          exact hok r (Res.mapFault_eq_ok.mp hr)
      · rw [if_pos (Ne.symm hsize)]
        refine ⟨fun h => ?_, fun h => absurd (h.2 a rfl).1 hsize⟩
        have hinvalid : BSP_RVAL_SPECIFIED_SIZE_INVALID = BSP_RVAL_OK := h _ rfl
        exact absurd hinvalid (by decide)
  · rw [if_pos hret]
    exact ⟨fun h => absurd (h _ rfl) hret, fun h => absurd h.1 hret⟩

/-- A read of an attribute that is found, of its size. -/
theorem methodRead_found (h : bspFindAttribute es en i an c BSP_IOCTL_METHOD_READ = .ok (BSP_RVAL_OK, pE, some a))
    (hsize : a.dataSize = size) {readMethod : OutMethod σ} (hread : a.readMethod = some readMethod) (pReadData : Buf)
    (s : σ) :
    (bspMethodRead es en i an size pReadData c s).res =
      (readMethod i a.toAttributeData pReadData s).mapFault .inCallback := by
  rw [methodRead_eq h, readOutcome, if_neg (not_not.mpr rfl)]
  simp only [hsize, hread, ne_eq, not_true_eq_false, if_false]

theorem methodWrite_found (h : bspFindAttribute es en i an c BSP_IOCTL_METHOD_WRITE = .ok (BSP_RVAL_OK, pE, some a))
    (hsize : a.dataSize = size) {writeMethod : InMethod σ} (hwrite : a.writeMethod = some writeMethod) (pWrittenData : Buf)
    (s : σ) :
    (bspMethodWrite es en i an size pWrittenData c s).res =
      (writeMethod i a.toAttributeData pWrittenData s).mapFault .inCallback := by
  unfold bspMethodWrite
  rw [h, Run.lift_ok_bind]
  dsimp only
  rw [if_neg (not_not.mpr rfl), derefAttribute_some, Run.pure_bind, if_neg (not_not.mpr hsize.symm), hwrite]
  exact call_res _ _

end Requests

/-! ## The round trip -/

section Line

variable {es : List (BspEntity σ)} {LT_RSTB : Reg σ 32} {pE : Option (BspEntity σ)} {a : BspAttribute σ}

/-- The attribute is a reset line. -/
structure IsLine (LT_RSTB : Reg σ 32) (a : BspAttribute σ) : Prop where
  size : a.dataSize = 1
  read : a.readMethod = some (bspReset_LT_RSTB_read LT_RSTB)
  write : a.writeMethod = some (bspReset_LT_RSTB_write LT_RSTB)
  mask : a.attributeSpecific ≠ 0

/-- The two inversions, with a line between them. -/
theorem inverted_twice (reg mask : U32) (frame data : Buf) :
    inverted (frame.store [lineState reg mask (some fun _ => inverted data)]) = if data 0 ≠ 0 then 1 else 0 := by
  by_cases h0 : data 0 = 0#8 <;> simp [inverted, lineState, Buf.store, h0]

/-- A write to the line of DI reads back, as 1 for anything but zero. -/
theorem diReset_reads_back (h : resetLine es = .ok (BSP_RVAL_OK, pE, some a)) (hline : IsLine LT_RSTB a) (frame : Buf)
    (inst inst' : U32) (at₁ at₂ : AttributeData) (pWrittenData pReadData : Buf) (s : σ) :
    ∃ s', bspDI_Reset_write es inst at₁ pWrittenData s = .ok (BSP_RVAL_OK, s') ∧
      bspDI_Reset_read es frame inst' at₂ pReadData s' =
        .ok (BSP_RVAL_OK, pReadData.store [if pWrittenData 0 ≠ 0 then 1 else 0], s') := by
  have hfind : bspFindAttribute es RESET 0 RSTB_DIRSTB BSP_PERMISSIONS_INTERNAL BSP_IOCTL_METHOD_WRITE =
      .ok (BSP_RVAL_OK, pE, some a) := by rw [← h, resetLine, find_internal]
  obtain ⟨s', hwrite, hword⟩ := reset_write LT_RSTB 0 a.toAttributeData (fun _ => inverted pWrittenData) s
  have hpart : LT_RSTB.read s' &&& a.attributeSpecific =
      lineValue (fun _ => inverted pWrittenData) &&& a.attributeSpecific := by
    rw [hword]
    exact blend_and_self _ _
  have hread := reset_reads hline.mask 0 (some fun _ => inverted pWrittenData) hpart 0 frame
  refine ⟨s', ?_, ?_⟩
  · unfold bspDI_Reset_write
    rw [methodWrite_found hfind hline.size hline.write, hwrite]
    rfl
  · unfold bspDI_Reset_read
    rw [methodRead_found h hline.size hline.read, hread]
    show Res.ok (BSP_RVAL_OK, pReadData.store [inverted (frame.store _)], s') = _
    rw [inverted_twice]

end Line

/-! ## Errors -/

/-- A line of DI reads back what was written, and a read that the inner request fails
    answers its error with the caller's byte as it was. -/
def ResetLayered (es : List (BspEntity σ)) (LT_RSTB : Reg σ 32) (frame : Buf) (s : σ) : Prop :=
  (∀ pE a, resetLine es = .ok (BSP_RVAL_OK, pE, some a) → IsLine LT_RSTB a →
    ∀ inst inst' at₁ at₂ pWrittenData pReadData, ∃ s',
      bspDI_Reset_write es inst at₁ pWrittenData s = .ok (BSP_RVAL_OK, s') ∧
      bspDI_Reset_read es frame inst' at₂ pReadData s' =
        .ok (BSP_RVAL_OK, pReadData.store [if pWrittenData 0 ≠ 0 then 1 else 0], s')) ∧
  ∀ err state s', (bspMethodRead es RESET 0 RSTB_DIRSTB 1 frame BSP_PERMISSIONS_INTERNAL s).res = .ok (err, state, s') →
    err ≠ BSP_RVAL_OK → ∀ inst a pReadData, bspDI_Reset_read es frame inst a pReadData s = .ok (err, pReadData, s')

/-- The lookup comes back with an attribute of one byte that has a readMethod, and that
    method comes back with BSP_RVAL_OK, as far as they come back. -/
def ResetServed (es : List (BspEntity σ)) (frame : Buf) (s : σ) : Prop :=
  ∀ ret pE pA, resetLine es = .ok (ret, pE, pA) → ret = BSP_RVAL_OK ∧ ∀ a, pA = some a →
    a.dataSize = 1 ∧ ∃ readMethod, a.readMethod = some readMethod ∧
      ∀ r, readMethod 0 a.toAttributeData frame s = .ok r → r.1 = BSP_RVAL_OK

section Errors

variable {es : List (BspEntity σ)} {frame : Buf} {s : σ}

/-- The inner request fails exactly where it is not served. -/
theorem resetServed_iff : ResetServed es frame s ↔
    ∀ r, (bspMethodRead es RESET 0 RSTB_DIRSTB 1 frame BSP_PERMISSIONS_INTERNAL s).res = .ok r → r.1 = BSP_RVAL_OK := by
  refine ⟨fun h r hrun => ?_, fun h ret pE pA hfind => ?_⟩
  · have hlookup := hrun
    unfold bspMethodRead at hlookup
    obtain ⟨⟨ret, pE, pA⟩, hfind, -⟩ := Run.bind_res_ok.mp hlookup
    rw [methodRead_eq hfind] at hrun
    exact readOutcome_ok_iff.mpr (h ret pE pA hfind) r hrun
  · rw [methodRead_eq hfind] at h
    exact readOutcome_ok_iff.mp h

/-- A byte is published whatever the answer is. -/
theorem diReset_read_publishes {r : BspRval × Buf × σ}
    (h : (bspMethodRead es RESET 0 RSTB_DIRSTB 1 frame BSP_PERMISSIONS_INTERNAL s).res = .ok r) (inst : U32)
    (a : AttributeData) (pReadData : Buf) :
    bspDI_Reset_read es frame inst a pReadData s = .ok (r.1, pReadData.store [inverted r.2.1], r.2.2) := by
  unfold bspDI_Reset_read
  rw [h]
  rfl

/-- Some caller's byte is not the one that is stored. -/
theorem store_changes (v : U8) : ∃ b : Buf, b.store [v] ≠ b := by
  refine ⟨fun _ => v + 1, fun h => ?_⟩
  have hbyte : v = v + 1 := congrFun h 0
  exact absurd hbyte (by bv_omega)

/-- The layering holds exactly where DI's line is served: a read that fails there stores a
    byte and answers the error. -/
theorem diReset_iff (es : List (BspEntity σ)) (LT_RSTB : Reg σ 32) (frame : Buf) (s : σ) :
    ResetLayered es LT_RSTB frame s ↔ ResetServed es frame s := by
  rw [resetServed_iff]
  refine ⟨fun h r hrun => ?_, fun h => ⟨fun pE a hfind hline inst inst' at₁ at₂ pWrittenData pReadData => ?_, ?_⟩⟩
  · by_contra herr
    obtain ⟨pReadData, hbyte⟩ := store_changes (inverted r.2.1)
    have hkept := h.2 r.1 r.2.1 r.2.2 hrun herr 0 { pName := none } pReadData
    rw [diReset_read_publishes hrun] at hkept
    simp only [Res.ok.injEq, Prod.mk.injEq] at hkept
    exact hbyte hkept.2.1
  · exact diReset_reads_back hfind hline frame inst inst' at₁ at₂ pWrittenData pReadData s
  · intro err state s' hrun herr
    exact absurd (h _ hrun) herr

end Errors

/-- Without a Reset entity, the caller gets a byte with the error. -/
theorem noReset_publishes : ¬ ResetLayered ([] : List (BspEntity U32)) wordReg (fun _ => 0) 0 := by
  intro h
  have hkept := h.2 BSP_RVAL_UNKNOWN_ENTITY (fun _ => 0) 0 rfl (by decide) 0 { pName := none } fun _ => 0
  rw [diReset_read_publishes (r := (BSP_RVAL_UNKNOWN_ENTITY, fun _ => 0, 0)) rfl] at hkept
  simp only [Res.ok.injEq, Prod.mk.injEq] at hkept
  exact absurd (congrFun hkept.2.1 0) (by decide)

end Iosu.Entities
