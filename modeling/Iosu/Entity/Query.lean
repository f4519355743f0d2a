/-
  Iosu.Entity.Query — where `bspMethodQuery` gets its answer from.

  A queryMethod comes first; without one, the options say whether the attribute's data is
  the answer, or the address of it. The data of a direct query is the last bytes of a
  big-endian word. Everything else is refused before a byte is stored (`query_spec`).
-/

import Iosu.Entity.Methods

namespace Iosu.Entity

open Iosu.Lib Iosu.Libc

variable {σ : Type} [DataMem σ]

section Query

variable {es : List (BspEntity σ)} {en an : CStr} {i size c : U32} {pE : Option (BspEntity σ)} {a : BspAttribute σ}

/-- A query of an attribute that is found. -/
theorem methodQuery_found (h : bspFindAttribute es en i an c BSP_IOCTL_METHOD_QUERY = .ok (BSP_RVAL_OK, pE, some a))
    (size : U32) (pQueryData : Buf) (s : σ) :
    bspMethodQuery es en i an size pQueryData c s =
      if size ≠ a.dataSize then pure (BSP_RVAL_SPECIFIED_SIZE_INVALID, pQueryData, s)
      else match a.queryMethod with
        | some queryMethod => call (.query i a) (queryMethod i a.toAttributeData pQueryData s)
        | none =>
          if a.options &&& BSP_AO_QUERY_DATA_DIRECT ≠ 0 then
            if 4 < size then pure (BSP_RVAL_CFG_CORRUPTED, pQueryData, s)
            else call (.copyDirect a) (.ok (BSP_RVAL_OK, pQueryData.store ((Buf.ofU32 a.data).drop (4 - size.toNat)), s))
          else if a.options &&& BSP_AO_QUERY_DATA_INDIRECT ≠ 0 then
            call (.copyIndirect a)
              (.ok (BSP_RVAL_OK, pQueryData.store ((Mem.view (DataMem.peek s) a.data).bytes 0 size.toNat), s))
          else pure (BSP_RVAL_QUERY_UNAVAILABLE, pQueryData, s) := by
  unfold bspMethodQuery
  rw [h, Run.lift_ok_bind]
  exact (if_neg (not_not.mpr rfl)).trans (Run.pure_bind a _)

/-- No queryMethod is started, and an answer but BSP_RVAL_OK leaves everything as it was. -/
def OwnAnswer (pQueryData : Buf) (s : σ) (run : Prog σ (BspRval × Buf × σ)) : Prop :=
  (∀ j b, Call.query j b ∉ run.trace) ∧
    ∀ ret buf s', run.res = .ok (ret, buf, s') → ret ≠ BSP_RVAL_OK → buf = pQueryData ∧ s' = s

omit [DataMem σ] in
theorem ownAnswer_pure (ret : BspRval) (pQueryData : Buf) (s : σ) :
    OwnAnswer pQueryData s (pure (ret, pQueryData, s)) := by
  refine ⟨fun j b hmem => ?_, fun ret' buf s' hres _ => ?_⟩
  · cases hmem
  · cases hres
    exact ⟨rfl, rfl⟩

omit [DataMem σ] in
theorem ownAnswer_copy {c : Call σ} (hc : ∀ j b, Call.query j b ≠ c) (pQueryData buf : Buf) (s : σ) :
    OwnAnswer pQueryData s (call c (.ok (BSP_RVAL_OK, buf, s))) := by
  refine ⟨fun j b hmem => ?_, fun ret' buf' s' hres hne => ?_⟩
  · rw [call_trace, List.mem_singleton] at hmem
    exact hc j b hmem
  · rw [call_res, Res.mapFault_eq_ok] at hres
    cases hres
    exact absurd rfl hne

omit [DataMem σ] in
/-- A copy of so many bytes over the start of a buffer. -/
theorem copy_res {xs : List U8} (hlen : xs.length = size.toNat) (call' : Call σ) (pQueryData : Buf) (s : σ) :
    ∃ buf, (call call' (.ok (BSP_RVAL_OK, pQueryData.store xs, s))).res = .ok (BSP_RVAL_OK, buf, s) ∧
      buf.bytes 0 size.toNat = xs ∧ ∀ k, size.toNat ≤ k → buf k = pQueryData k := by
  refine ⟨pQueryData.store xs, call_res _ _, ?_, fun k hk => Buf.store_ge _ _ (by omega)⟩
  rw [← hlen]
  exact Buf.bytes_store _ _

variable (h : bspFindAttribute es en i an c BSP_IOCTL_METHOD_QUERY = .ok (BSP_RVAL_OK, pE, some a)) (pQueryData : Buf)
  (s : σ)

include h

theorem query_method (hsize : size = a.dataSize) {queryMethod : OutMethod σ} (hquery : a.queryMethod = some queryMethod) :
    bspMethodQuery es en i an size pQueryData c s = call (.query i a) (queryMethod i a.toAttributeData pQueryData s) := by
  rw [methodQuery_found h, if_neg (not_not.mpr hsize), hquery]

theorem query_direct (hsize : size = a.dataSize) (hquery : a.queryMethod = none) (hle : size ≤ 4)
    (hdirect : a.options &&& BSP_AO_QUERY_DATA_DIRECT ≠ 0) :
    ∃ buf, (bspMethodQuery es en i an size pQueryData c s).res = .ok (BSP_RVAL_OK, buf, s) ∧
      Buf.value (buf.bytes 0 size.toNat) = a.data.toNat % 256 ^ size.toNat ∧
      ∀ k, size.toNat ≤ k → buf k = pQueryData k := by
  have hle' : size.toNat ≤ 4 := hle
  have hlen : ((Buf.ofU32 a.data).drop (4 - size.toNat)).length = size.toNat := by
    rw [List.length_drop, Buf.ofU32_length]
    omega
  obtain ⟨buf, hres, hbytes, hrest⟩ := copy_res hlen (.copyDirect a) pQueryData s
  refine ⟨buf, ?_, ?_, hrest⟩
  · rw [methodQuery_found h, if_neg (not_not.mpr hsize), hquery]
    dsimp only
    rw [if_pos hdirect, if_neg (BitVec.not_lt.mpr hle)]
    exact hres
  · have hpow : 4 - (4 - size.toNat) = size.toNat := by omega
    rw [hbytes, Buf.value_drop, Buf.value_ofU32, Buf.ofU32_length, hpow]

theorem query_indirect (hsize : size = a.dataSize) (hquery : a.queryMethod = none)
    (hdirect : a.options &&& BSP_AO_QUERY_DATA_DIRECT = 0) (hindirect : a.options &&& BSP_AO_QUERY_DATA_INDIRECT ≠ 0) :
    ∃ buf, (bspMethodQuery es en i an size pQueryData c s).res = .ok (BSP_RVAL_OK, buf, s) ∧
      buf.bytes 0 size.toNat = (Mem.view (DataMem.peek s) a.data).bytes 0 size.toNat ∧
      ∀ k, size.toNat ≤ k → buf k = pQueryData k := by
  obtain ⟨buf, hres, hbytes, hrest⟩ := copy_res (Buf.bytes_length (Mem.view (DataMem.peek s) a.data) 0 size.toNat)
    (.copyIndirect a) pQueryData s
  refine ⟨buf, ?_, hbytes, hrest⟩
  rw [methodQuery_found h, if_neg (not_not.mpr hsize), hquery]
  dsimp only
  rw [if_neg (not_not.mpr hdirect), if_pos hindirect]
  exact hres

/-- Without a queryMethod of its size, a query answers on its own. -/
theorem query_own (hnone : ¬ (size = a.dataSize ∧ a.queryMethod.isSome)) :
    OwnAnswer pQueryData s (bspMethodQuery es en i an size pQueryData c s) := by
  rw [methodQuery_found h]
  by_cases hsize : size = a.dataSize
  · rw [if_neg (not_not.mpr hsize)]
    cases hquery : a.queryMethod with
    | some queryMethod => exact absurd ⟨hsize, by rw [hquery]; rfl⟩ hnone
    | none =>
      dsimp only
      split
      · split
        · exact ownAnswer_pure _ _ _
        · exact ownAnswer_copy (fun j b heq => by cases heq) _ _ _
      split
      · exact ownAnswer_copy (fun j b heq => by cases heq) _ _ _
      · exact ownAnswer_pure _ _ _
  · rw [if_pos hsize]
    exact ownAnswer_pure _ _ _

/-- A query of an attribute that is found, whatever its size and the attribute's options:
    when its queryMethod is called, what the data gives otherwise, and that no answer of
    the query's own but BSP_RVAL_OK comes with a byte. -/
theorem query_spec :
    ((∃ j b, Call.query j b ∈ (bspMethodQuery es en i an size pQueryData c s).trace) ↔
      size = a.dataSize ∧ a.queryMethod.isSome) ∧
    (size = a.dataSize → ∀ queryMethod, a.queryMethod = some queryMethod →
      bspMethodQuery es en i an size pQueryData c s = call (.query i a) (queryMethod i a.toAttributeData pQueryData s)) ∧
    (size = a.dataSize → a.queryMethod = none → size ≤ 4 → a.options &&& BSP_AO_QUERY_DATA_DIRECT ≠ 0 →
      ∃ buf, (bspMethodQuery es en i an size pQueryData c s).res = .ok (BSP_RVAL_OK, buf, s) ∧
        Buf.value (buf.bytes 0 size.toNat) = a.data.toNat % 256 ^ size.toNat ∧
        ∀ k, size.toNat ≤ k → buf k = pQueryData k) ∧
    (size = a.dataSize → a.queryMethod = none → a.options &&& BSP_AO_QUERY_DATA_DIRECT = 0 →
      a.options &&& BSP_AO_QUERY_DATA_INDIRECT ≠ 0 →
      ∃ buf, (bspMethodQuery es en i an size pQueryData c s).res = .ok (BSP_RVAL_OK, buf, s) ∧
        buf.bytes 0 size.toNat = (Mem.view (DataMem.peek s) a.data).bytes 0 size.toNat ∧
        ∀ k, size.toNat ≤ k → buf k = pQueryData k) ∧
    ((∀ j b, Call.query j b ∉ (bspMethodQuery es en i an size pQueryData c s).trace) →
      ∀ ret buf s', (bspMethodQuery es en i an size pQueryData c s).res = .ok (ret, buf, s') → ret ≠ BSP_RVAL_OK →
        buf = pQueryData ∧ s' = s) := by
  have hcalls : (∃ j b, Call.query j b ∈ (bspMethodQuery es en i an size pQueryData c s).trace) ↔
      size = a.dataSize ∧ a.queryMethod.isSome := by
    refine ⟨fun hsome => ?_, fun hboth => ?_⟩
    · by_contra hnone
      obtain ⟨j, b, hmem⟩ := hsome
      exact (query_own h pQueryData s hnone).1 j b hmem
    · obtain ⟨queryMethod, hquery⟩ := Option.isSome_iff_exists.mp hboth.2
      refine ⟨i, a, ?_⟩
      rw [query_method h pQueryData s hboth.1 hquery, call_trace]
      exact List.mem_singleton_self _
  refine ⟨hcalls, fun hsize _ => query_method h pQueryData s hsize, query_direct h pQueryData s,
    query_indirect h pQueryData s, fun hnone => ?_⟩
  refine (query_own h pQueryData s fun hboth => ?_).2
  obtain ⟨j, b, hmem⟩ := hcalls.mpr hboth
  exact hnone j b hmem

end Query

/-! ## The low bytes of a word -/

section ThreeBytes

/-- A state that is nothing but memory. -/
instance : DataMem Mem := ⟨id⟩

def threeBytes : BspAttribute Mem where
  pName := some (cstr "A")
  options := BSP_AO_QUERY_DATA_DIRECT
  permissions := BSP_PERMISSIONS_ALL
  data := 0x01020304
  dataSize := 3

def threeByteEntity : BspEntity Mem where
  pName := cstr "E"
  version := 1
  instanceCount := 1
  options := BSP_EO_NONE
  pAttributes := [[threeBytes, { pName := none }]]

theorem threeBytes_query : ∃ buf, (bspMethodQuery [threeByteEntity] (cstr "E") 0 (cstr "A") 3 (fun _ => 0xFF)
    BSP_PERMISSIONS_ALL fun _ => 0).res = .ok (BSP_RVAL_OK, buf, fun _ => 0) ∧
    Buf.value (buf.bytes 0 3) = 0x020304 ∧ buf 3 = 0xFF := by
  have hfind : bspFindAttribute [threeByteEntity] (cstr "E") 0 (cstr "A") BSP_PERMISSIONS_ALL BSP_IOCTL_METHOD_QUERY =
      .ok (BSP_RVAL_OK, some threeByteEntity, some threeBytes) := rfl
  obtain ⟨-, -, hdirect, -⟩ := query_spec hfind (fun _ => 0xFF) (fun _ => 0)
  obtain ⟨buf, hres, hvalue, hrest⟩ := hdirect rfl rfl (by decide) (by decide)
  exact ⟨buf, hres, hvalue, hrest 3 (by decide)⟩

end ThreeBytes

end Iosu.Entity
