/-
  Iosu.Entities.Tables — the attribute tables of PPC, DI, EE, SI and CCRH.

  The tables are the source's, entry by entry. The functions they name and the
  addresses of the objects they point to come in as `Callbacks` and `Objects`: what is
  proved here holds whatever those do. Every table ends with its last attribute, and
  no entry with a NULL name follows (`bspTables_unterminated`). So a lookup ends inside
  the table only for a name the table has, and the walk of a global init never does.
-/

import Iosu.Entity.GlobalInit

namespace Iosu.Entities

open Iosu.Lib Iosu.Libc Iosu.Entity

variable {σ : Type}

/-! ## What the tables refer to -/

variable (σ) in
structure Callbacks where
  bspPPC_Exec : InMethod σ
  bspPPC_Clock : InMethod σ
  bspPPC_EXIRegBoot : InMethod σ
  bspPPC_ReadPVR : OutMethod σ
  bspPPC_WritePVR : InMethod σ
  bspPPC_Read60XeDataStreaming : OutMethod σ
  bspPPC_Write60XeDataStreaming : InMethod σ
  bspDI_IOStrength_init : InitMethod σ
  bspDI_IOPower_read : OutMethod σ
  bspDI_IOPower_write : InMethod σ
  bspDI_IOPower_init : InitMethod σ
  bspDI_Reset_read : OutMethod σ
  bspDI_Reset_write : InMethod σ
  bspEE_access_read : OutMethod σ
  bspEE_access_write : InMethod σ
  bspEE_control_write : InMethod σ
  bspEE_control_init : InitMethod σ
  bspEE_control_shutdown : ShutdownMethod σ
  bspEE_bc_read : OutMethod σ
  bspSI_IOStrength_init : InitMethod σ
  bspSI_IOPower_read : OutMethod σ
  bspSI_IOPower_write : InMethod σ
  bspSI_IOPower_init : InitMethod σ
  bspSI_Subsystem_init : InitMethod σ
  bspCCRH_Reset_write : InMethod σ
  bspCCRH_Reset_init : InitMethod σ

/-- The addresses of the objects that an indirect query copies. -/
structure Objects where
  summary : U32
  coreproperties : Fin 3 → U32
  ccrhSummary : U32

def sizeofBspPpcSummary : U32 := 0x10
/-- Five words and a byte, padded to a word; the comment in `bsp.h` has 0x15. -/
def sizeofBspPpcCoreProperties : U32 := 0x18

/-! ## `bsp_ppc.c` -/

section Ppc

variable (cb : Callbacks σ) (ob : Objects)

/-- "Summary" and "CoreProperties", which each core has. -/
def ppcQueryAttributes (core : Fin 3) : List (BspAttribute σ) :=
  [{ pName := some (cstr "Summary"),
     options := BSP_AO_QUERY_DATA_INDIRECT,
     permissions := BSP_PERMISSIONS_ALL,
     data := ob.summary,
     dataSize := sizeofBspPpcSummary },
   { pName := some (cstr "CoreProperties"),
     options := BSP_AO_QUERY_DATA_INDIRECT,
     permissions := BSP_PERMISSIONS_ALL,
     data := ob.coreproperties core,
     dataSize := sizeofBspPpcCoreProperties }]

def ppcCore0Attributes : List (BspAttribute σ) :=
  [{ pName := some (cstr "Exe"),
     permissions := BSP_PERMISSIONS_IOS_SUPV,
     dataSize := 1,
     writeMethod := some cb.bspPPC_Exec },
   { pName := some (cstr "Clock"),
     permissions := BSP_PERMISSIONS_IOS_SUPV,
     dataSize := 1,
     writeMethod := some cb.bspPPC_Clock },
   { pName := some (cstr "EXIRegBoot"),
     permissions := BSP_PERMISSIONS_IOS_SUPV,
     dataSize := 0x48,
     writeMethod := some cb.bspPPC_EXIRegBoot }] ++ ppcQueryAttributes ob 0 ++
  [{ pName := some (cstr "PVR"),
     permissions := BSP_PERMISSIONS_ALL,
     dataSize := 4,
     readMethod := some cb.bspPPC_ReadPVR,
     writeMethod := some cb.bspPPC_WritePVR },
   { pName := some (cstr "60XeDataStreaming"),
     permissions := BSP_PERMISSIONS_ALL,
     dataSize := 1,
     readMethod := some cb.bspPPC_Read60XeDataStreaming,
     writeMethod := some cb.bspPPC_Write60XeDataStreaming }]

def ppcCore1Attributes : List (BspAttribute σ) := ppcQueryAttributes ob 1

def ppcCore2Attributes : List (BspAttribute σ) := ppcQueryAttributes ob 2

def wood_ppc_entity : BspEntity σ where
  pName := cstr "PPC"
  version := 1
  instanceCount := 1
  options := BSP_EO_NONE
  pAttributes := [ppcCore0Attributes cb ob]

def latte_ppc_entity : BspEntity σ where
  pName := cstr "PPC"
  version := 1
  instanceCount := 3
  options := BSP_EO_NONE
  pAttributes := [ppcCore0Attributes cb ob, ppcCore1Attributes ob, ppcCore2Attributes ob]

end Ppc

/-- The cores of a Latte, and the one of a Wood. -/
def lattePpcCores : List (Fin 3) := [0, 1, 2]
def woodPpcCore : Fin 3 := 0

/-! ## `bsp_di.c` and `bsp_si.c` -/

section Interfaces

variable (cb : Callbacks σ)

def bspDI_attributes : List (BspAttribute σ) :=
  [{ pName := some (cstr "IOStrength"),
     options := BSP_AO_INIT_GLOBAL,
     permissions := BSP_PERMISSIONS_IOS,
     initMethod := some cb.bspDI_IOStrength_init },
   { pName := some (cstr "BaseAddress"),
     options := BSP_AO_QUERY_DATA_DIRECT,
     permissions := BSP_PERMISSIONS_IOS,
     data := 0x0d006000,
     dataSize := 4 },
   { pName := some (cstr "IOPower"),
     options := BSP_AO_QUERY_DATA_DIRECT,
     permissions := BSP_PERMISSIONS_IOS,
     data := 1,
     dataSize := 1,
     readMethod := some cb.bspDI_IOPower_read,
     writeMethod := some cb.bspDI_IOPower_write,
     initMethod := some cb.bspDI_IOPower_init },
   { pName := some (cstr "Reset"),
     permissions := BSP_PERMISSIONS_IOS,
     dataSize := 1,
     readMethod := some cb.bspDI_Reset_read,
     writeMethod := some cb.bspDI_Reset_write }]

def bspDI_entity : BspEntity σ where
  pName := cstr "DI"
  version := 1
  instanceCount := 1
  options := BSP_EO_NONE
  pAttributes := [bspDI_attributes cb]

def bspSI_attributes : List (BspAttribute σ) :=
  [{ pName := some (cstr "IOStrength"),
     options := BSP_AO_INIT_GLOBAL,
     permissions := BSP_PERMISSIONS_IOS,
     initMethod := some cb.bspSI_IOStrength_init },
   { pName := some (cstr "BaseAddress"),
     options := BSP_AO_QUERY_DATA_DIRECT,
     permissions := BSP_PERMISSIONS_IOS,
     data := 0x0d006c00,
     dataSize := 4 },
   { pName := some (cstr "IOPower"),
     options := BSP_AO_QUERY_DATA_DIRECT ||| BSP_AO_INIT_GLOBAL,
     permissions := BSP_PERMISSIONS_IOS,
     data := 1,
     dataSize := 1,
     readMethod := some cb.bspSI_IOPower_read,
     writeMethod := some cb.bspSI_IOPower_write,
     initMethod := some cb.bspSI_IOPower_init },
   { pName := some (cstr "Subsystem"),
     options := BSP_AO_INIT_GLOBAL,
     permissions := BSP_PERMISSIONS_IOS,
     initMethod := some cb.bspSI_Subsystem_init }]

def bspSI_entity : BspEntity σ where
  pName := cstr "SI"
  version := 1
  instanceCount := 1
  options := BSP_EO_NONE
  pAttributes := [bspSI_attributes cb]

end Interfaces

/-! ## `bsp_ee.c` and `bsp_ccrh.c` -/

section EeCcrh

variable (cb : Callbacks σ) (ob : Objects)

def bspEE_attributes : List (BspAttribute σ) :=
  [{ pName := some (cstr "access"),
     permissions := BSP_PERMISSIONS_IOS_SUPV,
     dataSize := 2,
     readMethod := some cb.bspEE_access_read,
     writeMethod := some cb.bspEE_access_write },
   { pName := some (cstr "control"),
     options := BSP_AO_INIT_GLOBAL,
     permissions := BSP_PERMISSIONS_IOS_SUPV,
     dataSize := 4,
     writeMethod := some cb.bspEE_control_write,
     initMethod := some cb.bspEE_control_init,
     shutdownMethod := some cb.bspEE_control_shutdown },
   { pName := some (cstr "bc"),
     permissions := BSP_PERMISSIONS_IOS_SUPV,
     dataSize := 0x28,
     readMethod := some cb.bspEE_bc_read }]

/-- One table for its 256 instances. -/
def bspEE_entity : BspEntity σ where
  pName := cstr "EE"
  version := 1
  instanceCount := 0x100
  options := BSP_EO_FLAT_INSTANCES
  pAttributes := [bspEE_attributes cb]

def bspCCRH_attributes : List (BspAttribute σ) :=
  [{ pName := some (cstr "Reset"),
     options := BSP_AO_INIT_GLOBAL,
     permissions := BSP_PERMISSIONS_ALL,
     data := 4,
     dataSize := 4,
     writeMethod := some cb.bspCCRH_Reset_write,
     initMethod := some cb.bspCCRH_Reset_init },
   { pName := some (cstr "Summary"),
     options := BSP_AO_QUERY_DATA_INDIRECT,
     permissions := BSP_PERMISSIONS_ALL,
     data := ob.ccrhSummary,
     dataSize := 1 }]

def bspCCRH_entity : BspEntity σ where
  pName := cstr "CCRH"
  version := 1
  instanceCount := 1
  options := BSP_EO_NONE
  pAttributes := [bspCCRH_attributes cb ob]

end EeCcrh

/-- The entities the repository defines. -/
def bspEntities (cb : Callbacks σ) (ob : Objects) : List (BspEntity σ) :=
  [wood_ppc_entity cb ob, latte_ppc_entity cb ob, bspDI_entity cb, bspEE_entity cb, bspSI_entity cb,
    bspCCRH_entity cb ob]

/-! ## Tables without an end -/

/-- No entry of the table has a NULL name. -/
def Unterminated (t : List (BspAttribute σ)) : Prop := ∀ a ∈ t, ∃ n, a.pName = some n

/-- The name is one of the table's: it agrees with an entry's on 32 bytes. -/
def Lists (t : List (BspAttribute σ)) (attributeName : CStr) : Prop :=
  ∃ a ∈ t, ∃ n, a.pName = some n ∧ strncmp attributeName n 32 = 0

theorem scan_lists {t : List (BspAttribute σ)} (hu : Unterminated t) {an : CStr} (h : Lists t an) :
    ∃ a, scanAttributes an t = .ok (some a) := by
  induction t with
  | nil =>
    obtain ⟨a, ha, -⟩ := h
    cases ha
  | cons b rest ih =>
    obtain ⟨m, hm⟩ := hu b List.mem_cons_self
    unfold scanAttributes
    simp only [hm]
    by_cases h0 : strncmp an m 32 = 0
    · rw [if_pos h0]
      exact ⟨b, rfl⟩
    · rw [if_neg h0]
      refine ih (fun a ha => hu a (List.mem_cons_of_mem _ ha)) ?_
      obtain ⟨a, ha, n, hn, han⟩ := h
      rcases List.mem_cons.mp ha with rfl | ha
      · rw [hm, Option.some.injEq] at hn
        rw [hn] at h0
        exact absurd han h0
      · exact ⟨a, ha, n, hn, han⟩

/-- A name the table does not have takes the scan past its end. -/
theorem scan_overruns {t : List (BspAttribute σ)} (hu : Unterminated t) {an : CStr} (h : ¬ Lists t an) :
    scanAttributes an t = .fault .tableOverrun := by
  induction t with
  | nil => rfl
  | cons b rest ih =>
    obtain ⟨m, hm⟩ := hu b List.mem_cons_self
    have h0 : strncmp an m 32 ≠ 0 := fun h0 => h ⟨b, List.mem_cons_self, m, hm, h0⟩
    unfold scanAttributes
    simp only [hm]
    rw [if_neg h0]
    refine ih (fun a ha => hu a (List.mem_cons_of_mem _ ha)) ?_
    intro hl
    obtain ⟨a, ha, hx⟩ := hl
    exact h ⟨a, List.mem_cons_of_mem _ ha, hx⟩

/-- The global init stays at an entry that does not opt in, or runs past the end. -/
theorem initGlobal_never_ends (inst : U32) :
    ∀ (fuel : Nat) (t : List (BspAttribute σ)) (ret : BspRval) (s : σ) (x : BspRval × σ), Unterminated t →
      (initGlobalFrom inst fuel t ret s).res ≠ .ok x := by
  intro fuel
  induction fuel with
  | zero => intro t ret s x _ h; cases h
  | succ fuel ih =>
    intro t ret s x hu h
    cases t with
    | nil => cases h
    | cons a rest =>
      obtain ⟨n, hn⟩ := hu a List.mem_cons_self
      rcases initGlobalFrom_cases inst fuel a rest ret s with ⟨hnone, -⟩ | ⟨-, -, hrun⟩ | ⟨_, m, -, -, -, hrun⟩
      · rw [hn] at hnone
        cases hnone
      · rw [hrun] at h
        cases h
      · rw [hrun] at h
        obtain ⟨p, -, h⟩ := Run.bind_res_ok.mp h
        exact ih rest _ _ x (fun b hb => hu b (List.mem_cons_of_mem _ hb)) h

/-! ## The repository's tables -/

theorem ppcQueryAttributes_unterminated (ob : Objects) (core : Fin 3) :
    Unterminated (ppcQueryAttributes ob core : List (BspAttribute σ)) := by
  intro a ha
  simp only [ppcQueryAttributes, List.mem_cons, List.not_mem_nil, or_false] at ha
  rcases ha with rfl | rfl <;> exact ⟨_, rfl⟩

theorem ppcCore0Attributes_unterminated (cb : Callbacks σ) (ob : Objects) : Unterminated (ppcCore0Attributes cb ob) := by
  intro a ha
  rcases List.mem_append.mp ha with ha | ha
  · rcases List.mem_append.mp ha with ha | ha
    · simp only [List.mem_cons, List.not_mem_nil, or_false] at ha
      rcases ha with rfl | rfl | rfl <;> exact ⟨_, rfl⟩
    · exact ppcQueryAttributes_unterminated ob 0 a ha
  · simp only [List.mem_cons, List.not_mem_nil, or_false] at ha
    rcases ha with rfl | rfl <;> exact ⟨_, rfl⟩

theorem bspDI_attributes_unterminated (cb : Callbacks σ) : Unterminated (bspDI_attributes cb) := by
  intro a ha
  simp only [bspDI_attributes, List.mem_cons, List.not_mem_nil, or_false] at ha
  rcases ha with rfl | rfl | rfl | rfl <;> exact ⟨_, rfl⟩

theorem bspSI_attributes_unterminated (cb : Callbacks σ) : Unterminated (bspSI_attributes cb) := by
  intro a ha
  simp only [bspSI_attributes, List.mem_cons, List.not_mem_nil, or_false] at ha
  rcases ha with rfl | rfl | rfl | rfl <;> exact ⟨_, rfl⟩

theorem bspEE_attributes_unterminated (cb : Callbacks σ) : Unterminated (bspEE_attributes cb) := by
  intro a ha
  simp only [bspEE_attributes, List.mem_cons, List.not_mem_nil, or_false] at ha
  rcases ha with rfl | rfl | rfl <;> exact ⟨_, rfl⟩

theorem bspCCRH_attributes_unterminated (cb : Callbacks σ) (ob : Objects) : Unterminated (bspCCRH_attributes cb ob) := by
  intro a ha
  simp only [bspCCRH_attributes, List.mem_cons, List.not_mem_nil, or_false] at ha
  rcases ha with rfl | rfl <;> exact ⟨_, rfl⟩

theorem selectTable_indexed {E : BspEntity σ} (ho : E.options = BSP_EO_NONE) {i : U32} {t : List (BspAttribute σ)}
    (ht : E.pAttributes[i.toNat]? = some t) : selectTable E i = .ok t := by
  have hflat : ¬ E.options &&& BSP_EO_FLAT_INSTANCES ≠ 0 := by rw [ho]; decide
  unfold selectTable
  rw [if_neg hflat, ht]

theorem selectTable_flat {E : BspEntity σ} (ho : E.options = BSP_EO_FLAT_INSTANCES) (i : U32)
    {t : List (BspAttribute σ)} (ht : E.pAttributes[0]? = some t) : selectTable E i = .ok t := by
  have hflat : E.options &&& BSP_EO_FLAT_INSTANCES ≠ 0 := by rw [ho]; decide
  unfold selectTable
  rw [if_pos hflat, ht]

theorem lt_one {i : U32} (h : i < 1#32) : i = 0#32 := by bv_omega

/-- Each in-range instance has a table, and the table has no end. -/
theorem bspTables_unterminated {cb : Callbacks σ} {ob : Objects} {E : BspEntity σ} (hE : E ∈ bspEntities cb ob)
    {i : U32} (hi : i < E.instanceCount) : ∃ t, selectTable E i = .ok t ∧ Unterminated t := by
  simp only [bspEntities, List.mem_cons, List.not_mem_nil, or_false] at hE
  rcases hE with rfl | rfl | rfl | rfl | rfl | rfl
  · obtain rfl := lt_one hi
    exact ⟨_, selectTable_indexed rfl rfl, ppcCore0Attributes_unterminated cb ob⟩
  · have hi3 : i < 3#32 := hi
    have hcases : i = 0#32 ∨ i = 1#32 ∨ i = 2#32 := by bv_omega
    rcases hcases with rfl | rfl | rfl
    · exact ⟨_, selectTable_indexed rfl rfl, ppcCore0Attributes_unterminated cb ob⟩
    · exact ⟨_, selectTable_indexed rfl rfl, ppcQueryAttributes_unterminated ob 1⟩
    · exact ⟨_, selectTable_indexed rfl rfl, ppcQueryAttributes_unterminated ob 2⟩
  · obtain rfl := lt_one hi
    exact ⟨_, selectTable_indexed rfl rfl, bspDI_attributes_unterminated cb⟩
  · exact ⟨_, selectTable_flat rfl i rfl, bspEE_attributes_unterminated cb⟩
  · obtain rfl := lt_one hi
    exact ⟨_, selectTable_indexed rfl rfl, bspSI_attributes_unterminated cb⟩
  · obtain rfl := lt_one hi
    exact ⟨_, selectTable_indexed rfl rfl, bspCCRH_attributes_unterminated cb ob⟩

/-- Looking the name up at the instance, and for the empty name the walk of an Init,
    reads entries of the table only and ends; a name that is not in the table is
    answered with BSP_RVAL_UNKNOWN_ATTRIBUTE. -/
def EndsInside (es : List (BspEntity σ)) (en : CStr) (i : U32) (t : List (BspAttribute σ)) (an : CStr) (s : σ) : Prop :=
  (∀ c cmd, ∃ ret pE pA, bspFindAttribute es en i an c cmd = .ok (ret, pE, pA) ∧
      (first an ≠ 0 → ¬ Lists t an → ret = BSP_RVAL_UNKNOWN_ATTRIBUTE)) ∧
    (first an = 0 → ∀ size p c, ∃ fuel x, (bspMethodInit es en i an fuel size p c s).res = .ok x)

/-- For each entity of the repository and each of its instances: exactly for the names
    that its table has. -/
theorem endsInside_iff (cb : Callbacks σ) (ob : Objects) {E : BspEntity σ} (hE : E ∈ bspEntities cb ob)
    {es : List (BspEntity σ)} {en : CStr} (hes : Names es en E) {i : U32} (hi : i < E.instanceCount)
    {t : List (BspAttribute σ)} (ht : selectTable E i = .ok t) (an : CStr) (s : σ) :
    EndsInside es en i t an s ↔ first an ≠ 0 ∧ Lists t an := by
  have he := (bspFindEntity_eq_some es en E).mpr hes
  have hu : Unterminated t := by
    obtain ⟨t', ht', hu⟩ := bspTables_unterminated hE hi
    rw [ht, Res.ok.injEq] at ht'
    rw [ht']
    exact hu
  refine ⟨?_, ?_⟩
  · intro h
    obtain ⟨hscan, hwalk⟩ := h
    have hn : first an ≠ 0 := by
      intro hn
      obtain ⟨fuel, x, hx⟩ := hwalk hn 0 none 0
      rw [bspMethodInit_global he hi hn ht] at hx
      exact initGlobal_never_ends i fuel t _ s x hu hx
    refine ⟨hn, ?_⟩
    by_contra hl
    obtain ⟨ret, pE, pA, hfind, -⟩ := hscan 0 0
    rw [find_scan he hi hn, ht, Res.ok_bind, scan_overruns hu hl] at hfind
    cases hfind
  · intro h
    obtain ⟨hn, hl⟩ := h
    refine ⟨?_, ?_⟩
    · intro c cmd
      obtain ⟨a, ha⟩ := scan_lists hu hl
      refine ⟨checkPermissions BSP_RVAL_OK (some a) c cmd, some E, some a, ?_, fun _ hno => absurd hl hno⟩
      rw [find_scan he hi hn, ht, Res.ok_bind, ha]
      rfl
    · intro hn0
      exact absurd hn0 hn

/-! ## DI -/

section Di

/-- Callbacks that do nothing. -/
def idleCallbacks : Callbacks Unit where
  bspPPC_Exec := fun _ _ _ s => .ok (BSP_RVAL_OK, s)
  bspPPC_Clock := fun _ _ _ s => .ok (BSP_RVAL_OK, s)
  bspPPC_EXIRegBoot := fun _ _ _ s => .ok (BSP_RVAL_OK, s)
  bspPPC_ReadPVR := fun _ _ b s => .ok (BSP_RVAL_OK, b, s)
  bspPPC_WritePVR := fun _ _ _ s => .ok (BSP_RVAL_OK, s)
  bspPPC_Read60XeDataStreaming := fun _ _ b s => .ok (BSP_RVAL_OK, b, s)
  bspPPC_Write60XeDataStreaming := fun _ _ _ s => .ok (BSP_RVAL_OK, s)
  bspDI_IOStrength_init := fun _ _ _ _ s => .ok (BSP_RVAL_OK, s)
  bspDI_IOPower_read := fun _ _ b s => .ok (BSP_RVAL_OK, b, s)
  bspDI_IOPower_write := fun _ _ _ s => .ok (BSP_RVAL_OK, s)
  bspDI_IOPower_init := fun _ _ _ _ s => .ok (BSP_RVAL_OK, s)
  bspDI_Reset_read := fun _ _ b s => .ok (BSP_RVAL_OK, b, s)
  bspDI_Reset_write := fun _ _ _ s => .ok (BSP_RVAL_OK, s)
  bspEE_access_read := fun _ _ b s => .ok (BSP_RVAL_OK, b, s)
  bspEE_access_write := fun _ _ _ s => .ok (BSP_RVAL_OK, s)
  bspEE_control_write := fun _ _ _ s => .ok (BSP_RVAL_OK, s)
  bspEE_control_init := fun _ _ _ _ s => .ok (BSP_RVAL_OK, s)
  bspEE_control_shutdown := fun _ _ s => .ok (BSP_RVAL_OK, s)
  bspEE_bc_read := fun _ _ b s => .ok (BSP_RVAL_OK, b, s)
  bspSI_IOStrength_init := fun _ _ _ _ s => .ok (BSP_RVAL_OK, s)
  bspSI_IOPower_read := fun _ _ b s => .ok (BSP_RVAL_OK, b, s)
  bspSI_IOPower_write := fun _ _ _ s => .ok (BSP_RVAL_OK, s)
  bspSI_IOPower_init := fun _ _ _ _ s => .ok (BSP_RVAL_OK, s)
  bspSI_Subsystem_init := fun _ _ _ _ s => .ok (BSP_RVAL_OK, s)
  bspCCRH_Reset_write := fun _ _ _ s => .ok (BSP_RVAL_OK, s)
  bspCCRH_Reset_init := fun _ _ _ _ s => .ok (BSP_RVAL_OK, s)

/-- The name "Speed" takes the scan of DI's table past its end, and the Init of DI's
    table does not end. -/
theorem bspDI_overruns :
    bspFindAttribute [bspDI_entity idleCallbacks] (cstr "DI") 0 (cstr "Speed") BSP_PERMISSIONS_ALL
        BSP_IOCTL_METHOD_READ = .fault .tableOverrun ∧
      ¬ EndsInside [bspDI_entity idleCallbacks] (cstr "DI") 0 (bspDI_attributes idleCallbacks) (cstr "Speed") () ∧
      ¬ EndsInside [bspDI_entity idleCallbacks] (cstr "DI") 0 (bspDI_attributes idleCallbacks) [] () := by
  have hu : Unterminated (bspDI_attributes idleCallbacks) := bspDI_attributes_unterminated idleCallbacks
  refine ⟨rfl, ?_, ?_⟩
  · intro h
    obtain ⟨ret, pE, pA, hfind, -⟩ := h.1 BSP_PERMISSIONS_ALL BSP_IOCTL_METHOD_READ
    cases hfind
  · intro h
    obtain ⟨fuel, x, hx⟩ := h.2 rfl 0 none 0
    have he : bspFindEntity [bspDI_entity idleCallbacks] (cstr "DI") = (BSP_RVAL_OK, some (bspDI_entity idleCallbacks)) :=
      rfl
    rw [bspMethodInit_global he (by decide) rfl rfl] at hx
    exact initGlobal_never_ends 0 fuel _ _ () x hu hx

/-- The name "Reset" is found. -/
theorem endsInside_iff_bspDI :
    EndsInside [bspDI_entity idleCallbacks] (cstr "DI") 0 (bspDI_attributes idleCallbacks) (cstr "Reset") () := by
  have hmem : bspDI_entity idleCallbacks ∈ bspEntities idleCallbacks ⟨0, fun _ => 0, 0⟩ := by
    simp [bspEntities]
  have hes : Names [bspDI_entity idleCallbacks] (cstr "DI") (bspDI_entity idleCallbacks) :=
    ⟨[], [], rfl, by simp, rfl⟩
  refine (endsInside_iff idleCallbacks ⟨0, fun _ => 0, 0⟩ hmem hes (by decide) rfl (cstr "Reset") ()).mpr ⟨by decide, ?_⟩
  exact ⟨_, List.mem_cons_of_mem _ (List.mem_cons_of_mem _ (List.mem_cons_of_mem _ List.mem_cons_self)), _, rfl, rfl⟩

end Di

end Iosu.Entities
