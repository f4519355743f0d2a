/-
  Iosu.Bsp.Ppc — how the PPC entity is installed (`bsp_ppc.c`).

  `bspPPCInstall` is stated over the three functions it calls (`PpcCalls`; the source's
  are `PpcCalls.source`), with what each call answered in the trace. It leaves behind the
  calls for the cores where `ret` is zero, so that a success registers nothing and a
  failure registers the entity: it does what it should exactly when it does not come
  that far (`installsExactly_iff`). With the source's own functions no call for a core
  fails behind a summary, and no PPC entity is ever registered (`source_registers_nothing`).
-/

import Iosu.Bsp.Clock
import Iosu.Entities.Tables

namespace Iosu.Bsp

open Iosu.Lib Iosu.Lib.Microwire Iosu.Libc Iosu.Entity Iosu.Ios Iosu.Eeprom Iosu.Entities

variable {ε σ : Type}

/-! ## Records -/

structure BspPpcSummary where
  numberOfCores : U32
  activeCoreBitmap : U32
  clock60x : BspSystemClockInfo
  deriving DecidableEq, Repr

def BspPpcSummary.zero : BspPpcSummary := ⟨0, 0, ⟨0, 0⟩⟩

structure BspPpcCoreProperties where
  l2Size : U32
  l2LineSize : U32
  l2SectorSize : U32
  l2FetchSize : U32
  l2SetAssociativity : U32
  coreActive : U8
  deriving DecidableEq, Repr

def BspPpcCoreProperties.zero : BspPpcCoreProperties := ⟨0, 0, 0, 0, 0, 0⟩

/-- The functions that `pPPCExecStop` and `pPPCExecStart` are set to. -/
inductive PpcExec where
  | bspPPCExecStop
  | bspPPCExecStart
  | bspPPCExecStopLatte
  | bspPPCExecStartLatte
  deriving DecidableEq, Repr

/-- The process, the variables of `bsp_ppc.c` and the list that `bspRegisterEntity`
    appends to. `eePVRAddr` is the process's. -/
structure PpcState (ε σ : Type) where
  proc : Process ε
  summary : BspPpcSummary
  coreproperties : Fin 3 → BspPpcCoreProperties
  pPPCExecStop : Option PpcExec
  pPPCExecStart : Option PpcExec
  entities : List (BspEntity σ)

/-- As the data segment has it. -/
def PpcState.start (b : Process ε) : PpcState ε σ := ⟨b, .zero, fun _ => .zero, none, none, []⟩

def PpcState.withProc (s : PpcState ε σ) (b : Process ε) : PpcState ε σ := { s with proc := b }

/-- The two `memset`s. -/
def PpcState.cleared (s : PpcState ε σ) : PpcState ε σ := { s with summary := .zero, coreproperties := fun _ => .zero }

def BSP_EE_PVR_HLYWD : U16 := 0x0042
def BSP_EE_PVR_LATTE : U16 := 0x0010

/-! ## Summary and core properties -/

section Properties

variable (x : ClockExt ε)

/-- A Wood with one core, or on an Espresso. -/
def isWood (hwver : U32) : Bool := BSP_IS_BOLLYWOOD hwver || BSP_IS_HOLLYWOOD hwver || BSP_IS_HOLLYWOOD_ES1 hwver

/-- `numberOfCores`, and a bit for each. -/
def BspPpcSummary.withCores (summary : BspPpcSummary) (numberOfCores : U32) : BspPpcSummary :=
  { summary with
    numberOfCores := numberOfCores
    activeCoreBitmap := (List.range numberOfCores.toNat).foldl (fun bitmap i => bitmap ||| (1 <<< i)) summary.activeCoreBitmap }

/-- The answer and `*summary`. -/
def bspPPCFillOutSummary (summary : BspPpcSummary) : BspM ε (BspRval × BspPpcSummary) := do
  let (ret, hwver) ← bspMethodGetHardwareVersion x.toExt
  if ret ≠ BSP_RVAL_OK then return (ret, summary)
  let (ret, clock) ← bspGetSystemClockInfo x
  let summary := { summary with clock60x := clock }
  if ret ≠ BSP_RVAL_OK then return (ret, summary)
  if BSP_IS_LATTE hwver then return (BSP_RVAL_OK, summary.withCores 3)
  else if isWood hwver = false then return (BSP_RVAL_UNKNOWN_HARDWARE_VERSION, summary)
  else if hwver = BSP_HARDWARE_VERSION_HOLLYWOOD_CORTADO_ESPRESSO then return (BSP_RVAL_OK, summary.withCores 3)
  else return (BSP_RVAL_OK, summary.withCores 1)

/-- The answer and `*core`. `ppc` is what the local summary holds before it is filled out. -/
def bspPPCFillOutCoreProperties (ppc : BspPpcSummary) (ndx : U32) (core : BspPpcCoreProperties) :
    BspM ε (BspRval × BspPpcCoreProperties) := do
  let (ret, hwver) ← bspMethodGetHardwareVersion x.toExt
  if ret ≠ BSP_RVAL_OK then return (ret, core)
  let (ret, ppc) ← bspPPCFillOutSummary x ppc
  if ret ≠ BSP_RVAL_OK then return (ret, core)
  let core := BspPpcCoreProperties.zero
  if ndx < ppc.numberOfCores then
    let core := { core with coreActive := 1 }
    if BSP_IS_LATTE hwver ∨ hwver = BSP_HARDWARE_VERSION_HOLLYWOOD_CORTADO_ESPRESSO then
      return (BSP_RVAL_OK, { core with
        l2Size := if ndx = 1 then 0x800 else 0x200
        l2LineSize := 0x40, l2SectorSize := 0x20, l2FetchSize := 0x20, l2SetAssociativity := 4 })
    if isWood hwver = false then return (BSP_RVAL_UNKNOWN_HARDWARE_VERSION, core)
    return (BSP_RVAL_OK, { core with
      l2Size := 0x100, l2LineSize := 0x40, l2SectorSize := 0x20, l2FetchSize := 0x20, l2SetAssociativity := 2 })
  return (BSP_RVAL_OK, core)

end Properties

/-! ## Installation -/

/-- What `bspPPCInstall` calls. -/
structure PpcCalls (ε : Type) where
  bspMethodGetHardwareVersion : BspM ε (BspRval × U32)
  bspPPCFillOutSummary : BspPpcSummary → BspM ε (BspRval × BspPpcSummary)
  bspPPCFillOutCoreProperties : U32 → BspPpcCoreProperties → BspM ε (BspRval × BspPpcCoreProperties)

/-- The source's functions; `ppc` is what the local of each call for a core starts from. -/
def PpcCalls.source (x : ClockExt ε) (ppc : U32 → BspPpcSummary) : PpcCalls ε where
  bspMethodGetHardwareVersion := Bsp.bspMethodGetHardwareVersion x.toExt
  bspPPCFillOutSummary := Bsp.bspPPCFillOutSummary x
  bspPPCFillOutCoreProperties := fun ndx => Bsp.bspPPCFillOutCoreProperties x (ppc ndx) ndx

/-- A call that came back, and its answer. -/
inductive PpcCall where
  | getHardwareVersion (ret : BspRval)
  | fillOutSummary (ret : BspRval)
  | fillOutCoreProperties (ndx : Fin 3) (ret : BspRval)
  deriving DecidableEq, Repr

def PpcCall.ret : PpcCall → BspRval
  | .getHardwareVersion ret => ret
  | .fillOutSummary ret => ret
  | .fillOutCoreProperties _ ret => ret

abbrev PpcM (ε σ : Type) := StateT (PpcState ε σ) (Run PpcCall Fault)

/-- A call, with its answer in the trace. -/
def called {α : Type} (event : BspRval → PpcCall) (m : BspM ε (BspRval × α)) : PpcM ε σ (BspRval × α) := fun s =>
  match m s.proc with
  | .ok (p, proc) => ⟨[event p.1], .ok (p, s.withProc proc)⟩
  | .fault f => ⟨[], .fault f⟩
  | .spin => ⟨[], .spin⟩

section Install

variable (c : PpcCalls ε) (cb : Callbacks σ) (ob : Objects)

/-- `bspPPCFillOutCoreProperties(core, coreproperties[core])`. -/
def fillOutCore (core : Fin 3) : PpcM ε σ BspRval := do
  let (ret, properties) ← called (.fillOutCoreProperties core)
    (c.bspPPCFillOutCoreProperties (BitVec.ofNat 32 core.val) ((← get).coreproperties core))
  modify fun s => { s with coreproperties := Function.update s.coreproperties core properties }
  return ret

/-- `ret |= bspPPCFillOutCoreProperties(core, coreproperties[core])` for each core. -/
def fillOutCores (ret : BspRval) : List (Fin 3) → PpcM ε σ BspRval
  | [] => pure ret
  | core :: cores => do
    let r ← fillOutCore c core
    fillOutCores (ret ||| r) cores

def bspRegisterEntity (entity : BspEntity σ) : PpcM ε σ BspRval := do
  modify fun s => { s with entities := s.entities ++ [entity] }
  return BSP_RVAL_OK

/-- The two pointers by the family. -/
def setExec (hwver : U32) (s : PpcState ε σ) : PpcState ε σ :=
  if isWood hwver then { s with pPPCExecStop := some .bspPPCExecStop, pPPCExecStart := some .bspPPCExecStart }
  else if BSP_IS_LATTE hwver then
    { s with pPPCExecStop := some .bspPPCExecStopLatte, pPPCExecStart := some .bspPPCExecStartLatte }
  else s

/-- `bspPPCInstall` behind the summary. -/
def installCores (hwver : U32) (ret : BspRval) : PpcM ε σ BspRval := do
  if hwver = BSP_HARDWARE_VERSION_HOLLYWOOD_CORTADO_ESPRESSO ∨ BSP_IS_LATTE hwver then
    let eePVRAddr :=
      if hwver = BSP_HARDWARE_VERSION_HOLLYWOOD_CORTADO_ESPRESSO then BSP_EE_PVR_HLYWD else BSP_EE_PVR_LATTE
    modify fun s => { s with proc := { s.proc with eePVRAddr := eePVRAddr } }
    let ret ← fillOutCores c ret lattePpcCores
    if ret = 0 then return ret
    modify (setExec hwver)
    bspRegisterEntity (latte_ppc_entity cb ob)
  else if isWood hwver = false then return BSP_RVAL_UNKNOWN_HARDWARE_VERSION
  else
    let ret ← fillOutCore c woodPpcCore
    if ret = 0 then return ret
    modify fun s => { s with proc := { s.proc with eePVRAddr := BSP_EE_PVR_HLYWD } }
    modify (setExec hwver)
    bspRegisterEntity (wood_ppc_entity cb ob)

def bspPPCInstall : PpcM ε σ BspRval := do
  modify PpcState.cleared
  let (ret, hwver) ← called .getHardwareVersion c.bspMethodGetHardwareVersion
  if ret ≠ BSP_RVAL_OK then return ret
  let (ret, summary) ← called .fillOutSummary (c.bspPPCFillOutSummary (← get).summary)
  modify fun s => { s with summary := summary }
  if ret ≠ BSP_RVAL_OK then return ret
  installCores c cb ob hwver ret

end Install

/-! ## Running -/

section Running

variable {α : Type} {event : BspRval → PpcCall} {m : BspM ε (BspRval × α)} {s : PpcState ε σ}

theorem called_ok {ret : BspRval} {a : α} {b : Process ε} (h : m s.proc = .ok ((ret, a), b)) :
    called event m s = ⟨[event ret], .ok ((ret, a), s.withProc b)⟩ := by
  unfold called
  rw [h]

theorem called_stuck (h : ∀ p, m s.proc ≠ .ok p) : Run.Stuck (called event m s) := by
  unfold called
  intro q hq
  cases hm : m s.proc with
  | ok p => exact h p hm
  | fault f =>
    rw [hm] at hq
    cases hq
  | spin =>
    rw [hm] at hq
    cases hq

end Running

/-! ## The calls for the cores -/

section Cores

variable (c : PpcCalls ε)

theorem fillOutCore_cases (core : Fin 3) (s : PpcState ε σ) :
    Run.Stuck (fillOutCore c core s) ∨
      ∃ ret s', fillOutCore c core s = ⟨[.fillOutCoreProperties core ret], .ok (ret, s')⟩ ∧ s'.entities = s.entities := by
  unfold fillOutCore
  rw [Run.stateful_bind_silent (Run.stateful_get s)]
  by_cases hcall : ∃ p, c.bspPPCFillOutCoreProperties (BitVec.ofNat 32 core.val) (s.coreproperties core) s.proc = .ok p
  · obtain ⟨⟨⟨ret, properties⟩, b⟩, hcall⟩ := hcall
    refine Or.inr ⟨ret, { s with proc := b, coreproperties := Function.update s.coreproperties core properties }, ?_, rfl⟩
    rw [Run.stateful_bind_ok (called_ok hcall)]
    rfl
  · exact Or.inl (Run.Stuck.bind (called_stuck fun p hp => hcall ⟨p, hp⟩) _)

/-- `ret` gathers the answers, and is zero only if they all are. -/
theorem fillOutCores_cases (cores : List (Fin 3)) (ret : BspRval) (s : PpcState ε σ) :
    Run.Stuck (fillOutCores c ret cores s) ∨
      ∃ t ret' s', fillOutCores c ret cores s = ⟨t, .ok (ret', s')⟩ ∧ s'.entities = s.entities ∧
        (∀ core ∈ cores, ∃ r, .fillOutCoreProperties core r ∈ t) ∧
        (ret' = 0 ↔ ret = 0 ∧ ∀ e ∈ t, e.ret = BSP_RVAL_OK) := by
  induction cores generalizing ret s with
  | nil => exact Or.inr ⟨[], ret, s, rfl, rfl, by simp, by simp⟩
  | cons core cores ih =>
    rcases fillOutCore_cases c core s with hstuck | ⟨r, s₁, hcore, hs₁⟩
    · exact Or.inl (hstuck.bind _)
    rcases ih (ret ||| r) s₁ with hstuck | ⟨t, ret', s', hcores, hs', hmem, hret'⟩
    · exact Or.inl (Run.Stuck.behind hcore hstuck)
    refine Or.inr ⟨.fillOutCoreProperties core r :: t, ret', s', ?_, hs'.trans hs₁, ?_, ?_⟩
    · unfold fillOutCores
      rw [Run.stateful_bind_ok hcore, hcores]
      rfl
    · intro core' hcore'
      rcases List.mem_cons.mp hcore' with rfl | hin
      · exact ⟨r, List.mem_cons_self⟩
      · obtain ⟨r', hr'⟩ := hmem core' hin
        exact ⟨r', List.mem_cons_of_mem _ hr'⟩
    · have hor : ret ||| r = 0 ↔ ret = 0 ∧ r = 0 := BitVec.or_eq_zero_iff
      rw [hret', hor, List.forall_mem_cons, and_assoc]
      rfl

end Cores

/-! ## Whether the installation is exact -/

section Exactness

variable (c : PpcCalls ε) (cb : Callbacks σ) (ob : Objects)

/-- The calls all succeeded, down to one for a core. -/
def AllSucceeded (t : List PpcCall) : Prop :=
  (∀ e ∈ t, e.ret = BSP_RVAL_OK) ∧ (∃ ret, .getHardwareVersion ret ∈ t) ∧ (∃ ret, .fillOutSummary ret ∈ t) ∧
    ∃ core ret, .fillOutCoreProperties core ret ∈ t

/-- One entity more, and it is a PPC. -/
def Registers (s s' : PpcState ε σ) (entity : BspEntity σ) : Prop :=
  s'.entities = s.entities ++ [entity] ∧ (entity = wood_ppc_entity cb ob ∨ entity = latte_ppc_entity cb ob)

/-- The installation comes back, registers a PPC exactly when its calls succeeded, one
    with as many instances as there are cores and with both pointers set, and reports the
    failure of a call. -/
def InstallsExactly (s : PpcState ε σ) (r : Run PpcCall Fault (BspRval × PpcState ε σ)) : Prop :=
  ∃ ret s', r.res = .ok (ret, s') ∧
    ((∃ entity, Registers cb ob s s' entity) ↔ AllSucceeded r.trace) ∧
    (∀ entity, Registers cb ob s s' entity →
      entity.instanceCount = s'.summary.numberOfCores ∧ s'.pPPCExecStart.isSome ∧ s'.pPPCExecStop.isSome) ∧
    ((∃ e ∈ r.trace, e.ret ≠ BSP_RVAL_OK) → ret ≠ BSP_RVAL_OK ∧ s'.entities = s.entities)

/-- The installation stops before the cores: the version or the summary cannot be had,
    or the version is of no family. -/
def StopsBeforeCores (s : PpcState ε σ) : Prop :=
  ∃ ret hwver b, c.bspMethodGetHardwareVersion s.proc = .ok ((ret, hwver), b) ∧
    (ret ≠ BSP_RVAL_OK ∨ ∃ ret' summary b', c.bspPPCFillOutSummary .zero b = .ok ((ret', summary), b') ∧
      (ret' ≠ BSP_RVAL_OK ∨ (BSP_IS_LATTE hwver = false ∧ isWood hwver = false)))

variable {c cb ob} {s s' : PpcState ε σ}

theorem not_registers (h : s'.entities = s.entities) : ¬ ∃ entity, Registers cb ob s s' entity := by
  intro hsome
  obtain ⟨entity, hreg, -⟩ := hsome
  rw [h] at hreg
  exact absurd hreg (by simp)

/-- Nothing registered, with no call for a core. -/
theorem installsExactly_stopped {ret : BspRval} {t : List PpcCall} (hent : s'.entities = s.entities)
    (hnone : ∀ core r, .fillOutCoreProperties core r ∉ t) (hfail : (∃ e ∈ t, e.ret ≠ BSP_RVAL_OK) → ret ≠ BSP_RVAL_OK) :
    InstallsExactly cb ob s ⟨t, .ok (ret, s')⟩ := by
  refine ⟨ret, s', rfl, ⟨fun h => absurd h (not_registers hent), ?_⟩, ?_, fun h => ⟨hfail h, hent⟩⟩
  · intro hall
    obtain ⟨-, -, -, core, r, hmem⟩ := hall
    exact absurd hmem (hnone core r)
  · intro entity hreg
    exact absurd ⟨entity, hreg⟩ (not_registers hent)

/-- The test is upside down: the calls succeeded and nothing is registered, or one failed
    and the entity is. -/
def Inverted (s s' : PpcState ε σ) (t : List PpcCall) : Prop :=
  (∃ core r, .fillOutCoreProperties core r ∈ t) ∧
    (((∀ e ∈ t, e.ret = BSP_RVAL_OK) ∧ s'.entities = s.entities) ∨
      ((∃ e ∈ t, e.ret ≠ BSP_RVAL_OK) ∧ s'.entities ≠ s.entities))

/-- A successful call in front makes no difference. -/
theorem Inverted.cons {t : List PpcCall} {e : PpcCall} (he : e.ret = BSP_RVAL_OK) (h : Inverted s s' t) :
    Inverted s s' (e :: t) := by
  obtain ⟨⟨core, r, hcore⟩, houtcome⟩ := h
  refine ⟨⟨core, r, List.mem_cons_of_mem _ hcore⟩, houtcome.imp ?_ ?_⟩
  · intro hsuccess
    exact ⟨List.forall_mem_cons.mpr ⟨he, hsuccess.1⟩, hsuccess.2⟩
  · intro hfailure
    obtain ⟨⟨e', hmem, hne⟩, hent⟩ := hfailure
    exact ⟨⟨e', List.mem_cons_of_mem _ hmem, hne⟩, hent⟩

theorem not_installsExactly_stuck {r : Run PpcCall Fault (BspRval × PpcState ε σ)} (h : Run.Stuck r) :
    ¬ InstallsExactly cb ob s r := by
  intro hexact
  obtain ⟨ret, s', hres, -⟩ := hexact
  exact h _ hres

theorem not_installsExactly_inverted {ret : BspRval} {t : List PpcCall} (hver : ∃ r, .getHardwareVersion r ∈ t)
    (hsum : ∃ r, .fillOutSummary r ∈ t) (h : Inverted s s' t) : ¬ InstallsExactly cb ob s ⟨t, .ok (ret, s')⟩ := by
  intro hsome
  obtain ⟨ret₁, s₁, hres, hiff, -, hfail⟩ := hsome
  cases hres
  obtain ⟨hcore, ⟨hall, hent⟩ | ⟨hfailed, hent⟩⟩ := h
  · exact not_registers hent (hiff.mpr ⟨hall, hver, hsum, hcore⟩)
  · exact hent (hfail hfailed).2

/-- Behind the summary, a version of no family stops. -/
theorem installCores_unknown {hwver : U32} (hlatte : BSP_IS_LATTE hwver = false) (hwood : isWood hwver = false)
    (ret : BspRval) (s : PpcState ε σ) :
    installCores c cb ob hwver ret s = ⟨[], .ok (BSP_RVAL_UNKNOWN_HARDWARE_VERSION, s)⟩ := by
  have hespresso : ¬ (hwver = BSP_HARDWARE_VERSION_HOLLYWOOD_CORTADO_ESPRESSO ∨ BSP_IS_LATTE hwver) := by
    intro hor
    rcases hor with h | h
    · rw [h] at hwood
      exact absurd hwood (by decide)
    · rw [hlatte] at h
      cases h
  unfold installCores
  rw [if_neg hespresso, if_pos hwood]
  rfl

/-- The test behind the calls for the cores, whatever is set before the entity is
    registered. -/
theorem inverted_test {ret : BspRval} {t : List PpcCall} (hcore : ∃ core r, .fillOutCoreProperties core r ∈ t)
    (hret : ret = 0 ↔ ∀ e ∈ t, e.ret = BSP_RVAL_OK) (hent : s'.entities = s.entities) {g : PpcState ε σ → PpcState ε σ}
    (hg : (g s').entities = s'.entities) (entity : BspEntity σ) :
    ∃ ret' s₂, (if ret = 0 then return ret else do
        modify g
        bspRegisterEntity entity : PpcM ε σ BspRval) s' = ⟨[], .ok (ret', s₂)⟩ ∧ Inverted s s₂ t := by
  by_cases hzero : ret = 0
  · rw [if_pos hzero]
    exact ⟨ret, s', rfl, hcore, Or.inl ⟨hret.mp hzero, hent⟩⟩
  · rw [if_neg hzero]
    have hfailed : ∃ e ∈ t, e.ret ≠ BSP_RVAL_OK := by
      by_contra hnone
      push Not at hnone
      exact hzero (hret.mpr hnone)
    refine ⟨BSP_RVAL_OK, { g s' with entities := (g s').entities ++ [entity] }, rfl, hcore, Or.inr ⟨hfailed, ?_⟩⟩
    rw [hg, hent]
    simp

theorem setExec_entities (hwver : U32) (s : PpcState ε σ) : (setExec hwver s).entities = s.entities := by
  unfold setExec
  split
  · rfl
  split
  · rfl
  · rfl

/-- Any other comes to the test. -/
theorem installCores_inverted (c : PpcCalls ε) (cb : Callbacks σ) (ob : Objects) {hwver : U32}
    (h : ¬ (BSP_IS_LATTE hwver = false ∧ isWood hwver = false)) (s : PpcState ε σ) :
    Run.Stuck (installCores c cb ob hwver BSP_RVAL_OK s) ∨
      ∃ t ret s', installCores c cb ob hwver BSP_RVAL_OK s = ⟨t, .ok (ret, s')⟩ ∧ Inverted s s' t := by
  unfold installCores
  by_cases hlatte : hwver = BSP_HARDWARE_VERSION_HOLLYWOOD_CORTADO_ESPRESSO ∨ BSP_IS_LATTE hwver
  · rw [if_pos hlatte]
    dsimp only
    rw [Run.stateful_bind_silent (Run.stateful_modify _ s)]
    rcases fillOutCores_cases c lattePpcCores BSP_RVAL_OK _ with hstuck | ⟨t, ret, s', hcores, hent, hmem, hret⟩
    · exact Or.inl (hstuck.bind _)
    obtain ⟨ret', s₂, htest, hinv⟩ := inverted_test (s := s) ⟨0, hmem 0 List.mem_cons_self⟩
      (hret.trans (and_iff_right rfl)) hent (setExec_entities hwver s') (latte_ppc_entity cb ob)
    exact Or.inr ⟨t, ret', s₂, Run.stateful_bind_last hcores htest, hinv⟩
  · have hwood : ¬ isWood hwver = false := by
      intro hwood
      refine h ⟨?_, hwood⟩
      simpa using fun hl => hlatte (Or.inr hl)
    rw [if_neg hlatte, if_neg hwood]
    rcases fillOutCore_cases c woodPpcCore s with hstuck | ⟨ret, s', hcore, hent⟩
    · exact Or.inl (hstuck.bind _)
    have hret : ret = 0 ↔ ∀ e ∈ [PpcCall.fillOutCoreProperties woodPpcCore ret], e.ret = BSP_RVAL_OK := by
      simp [PpcCall.ret, BSP_RVAL_OK]
    obtain ⟨ret', s₂, htest, hinv⟩ := inverted_test (s := s) ⟨woodPpcCore, ret, List.mem_cons_self⟩ hret hent
      (g := fun s => setExec hwver { s with proc := { s.proc with eePVRAddr := BSP_EE_PVR_HLYWD } })
      (setExec_entities hwver _) (wood_ppc_entity cb ob)
    exact Or.inr ⟨_, ret', s₂, Run.stateful_bind_last hcore htest, hinv⟩

/-! ### Down to the summary -/

/-- The state behind the summary. -/
def PpcState.summarised (s : PpcState ε σ) (b : Process ε) (summary : BspPpcSummary) : PpcState ε σ :=
  { s with proc := b, summary := summary, coreproperties := fun _ => .zero }

theorem install_versionStuck (h : ∀ p, c.bspMethodGetHardwareVersion s.proc ≠ .ok p) : Run.Stuck (bspPPCInstall c cb ob s) := by
  unfold bspPPCInstall
  rw [Run.stateful_bind_silent (Run.stateful_modify _ s)]
  exact Run.Stuck.bind (called_stuck (s := s.cleared) h) _

section Version

variable {ret : BspRval} {hwver : U32} {b : Process ε}

theorem install_versionFails (h : c.bspMethodGetHardwareVersion s.proc = .ok ((ret, hwver), b)) (hret : ret ≠ BSP_RVAL_OK) :
    bspPPCInstall c cb ob s = ⟨[.getHardwareVersion ret], .ok (ret, s.summarised b .zero)⟩ := by
  unfold bspPPCInstall
  rw [Run.stateful_bind_silent (Run.stateful_modify _ s)]
  refine Run.stateful_bind_last (called_ok (s := s.cleared) h) ?_
  dsimp only
  rw [if_pos hret]
  rfl

theorem install_summaryStuck (h : c.bspMethodGetHardwareVersion s.proc = .ok ((BSP_RVAL_OK, hwver), b))
    (hsum : ∀ p, c.bspPPCFillOutSummary .zero b ≠ .ok p) : Run.Stuck (bspPPCInstall c cb ob s) := by
  unfold bspPPCInstall
  rw [Run.stateful_bind_silent (Run.stateful_modify _ s)]
  refine Run.Stuck.behind (called_ok (s := s.cleared) h) ?_
  dsimp only
  rw [if_neg (by decide), Run.stateful_bind_silent (Run.stateful_get (s.cleared.withProc b))]
  exact Run.Stuck.bind (called_stuck (s := s.cleared.withProc b) hsum) _

variable {ret' : BspRval} {summary : BspPpcSummary} {b' : Process ε}

theorem summary_called (hsum : c.bspPPCFillOutSummary .zero b = .ok ((ret', summary), b')) :
    called .fillOutSummary (c.bspPPCFillOutSummary (s.cleared.withProc b).summary) (s.cleared.withProc b) =
      ⟨[.fillOutSummary ret'], .ok ((ret', summary), s.cleared.withProc b')⟩ := called_ok (s := s.cleared.withProc b) hsum

/-- Behind the summary, what is left of it. -/
theorem install_summarised (h : c.bspMethodGetHardwareVersion s.proc = .ok ((BSP_RVAL_OK, hwver), b))
    (hsum : c.bspPPCFillOutSummary .zero b = .ok ((ret', summary), b')) {r : Run PpcCall Fault (BspRval × PpcState ε σ)}
    (hrest : (if ret' ≠ BSP_RVAL_OK then return ret' else installCores c cb ob hwver ret' : PpcM ε σ BspRval)
      (s.summarised b' summary) = r) :
    bspPPCInstall c cb ob s = ⟨.getHardwareVersion BSP_RVAL_OK :: .fillOutSummary ret' :: r.trace, r.res⟩ := by
  unfold bspPPCInstall
  rw [Run.stateful_bind_silent (Run.stateful_modify _ s), Run.stateful_bind_ok (called_ok (s := s.cleared) h)]
  dsimp only
  rw [if_neg (by decide), Run.stateful_bind_silent (Run.stateful_get (s.cleared.withProc b)),
    Run.stateful_bind_ok (summary_called hsum)]
  dsimp only
  rw [Run.stateful_bind_silent (Run.stateful_modify _ _), ← hrest]
  rfl

theorem install_summaryFails (h : c.bspMethodGetHardwareVersion s.proc = .ok ((BSP_RVAL_OK, hwver), b))
    (hsum : c.bspPPCFillOutSummary .zero b = .ok ((ret', summary), b'))
    (hret : ret' ≠ BSP_RVAL_OK) : bspPPCInstall c cb ob s =
      ⟨[.getHardwareVersion BSP_RVAL_OK, .fillOutSummary ret'], .ok (ret', s.summarised b' summary)⟩ := by
  have hrest : (if ret' ≠ BSP_RVAL_OK then return ret' else installCores c cb ob hwver ret' : PpcM ε σ BspRval)
      (s.summarised b' summary) = ⟨[], .ok (ret', s.summarised b' summary)⟩ := by
    rw [if_pos hret]
    rfl
  rw [install_summarised h hsum hrest]

/-- Behind the summary come the cores. -/
theorem install_cores (h : c.bspMethodGetHardwareVersion s.proc = .ok ((BSP_RVAL_OK, hwver), b))
    (hsum : c.bspPPCFillOutSummary .zero b = .ok ((BSP_RVAL_OK, summary), b')) :
    bspPPCInstall c cb ob s =
      ⟨.getHardwareVersion BSP_RVAL_OK :: .fillOutSummary BSP_RVAL_OK ::
          (installCores c cb ob hwver BSP_RVAL_OK (s.summarised b' summary)).trace,
        (installCores c cb ob hwver BSP_RVAL_OK (s.summarised b' summary)).res⟩ :=
  install_summarised h hsum (by rw [if_neg (by decide)])

/-- The condition, once the version is there. -/
theorem stopsBeforeCores_iff (h : c.bspMethodGetHardwareVersion s.proc = .ok ((BSP_RVAL_OK, hwver), b)) :
    StopsBeforeCores c s ↔ ∃ ret' summary b', c.bspPPCFillOutSummary .zero b = .ok ((ret', summary), b') ∧
      (ret' ≠ BSP_RVAL_OK ∨ (BSP_IS_LATTE hwver = false ∧ isWood hwver = false)) := by
  refine ⟨?_, fun hsum => ⟨_, hwver, b, h, Or.inr hsum⟩⟩
  intro hstops
  obtain ⟨ret, hwver', b₁, hver, hsum⟩ := hstops
  rw [h] at hver
  cases hver
  exact hsum.resolve_left (not_not.mpr rfl)

/-- And once the summary is there too. -/
theorem stopsBeforeCores_summarised (h : c.bspMethodGetHardwareVersion s.proc = .ok ((BSP_RVAL_OK, hwver), b))
    (hsum : c.bspPPCFillOutSummary .zero b = .ok ((BSP_RVAL_OK, summary), b')) :
    StopsBeforeCores c s ↔ BSP_IS_LATTE hwver = false ∧ isWood hwver = false := by
  rw [stopsBeforeCores_iff h]
  refine ⟨?_, fun hfamily => ⟨_, summary, b', hsum, Or.inr hfamily⟩⟩
  intro hstops
  obtain ⟨ret', summary', b₁, hsum', hfamily⟩ := hstops
  rw [hsum] at hsum'
  cases hsum'
  exact hfamily.resolve_left (not_not.mpr rfl)

/-- Behind the two successful calls, all depends on the family. -/
theorem installsExactly_summarised (h : c.bspMethodGetHardwareVersion s.proc = .ok ((BSP_RVAL_OK, hwver), b))
    (hsum : c.bspPPCFillOutSummary .zero b = .ok ((BSP_RVAL_OK, summary), b')) :
    InstallsExactly cb ob s (bspPPCInstall c cb ob s) ↔ BSP_IS_LATTE hwver = false ∧ isWood hwver = false := by
  rw [install_cores h hsum]
  by_cases hfamily : BSP_IS_LATTE hwver = false ∧ isWood hwver = false
  · refine ⟨fun _ => hfamily, fun _ => ?_⟩
    rw [installCores_unknown hfamily.1 hfamily.2]
    exact installsExactly_stopped rfl (by simp) (fun _ => by decide)
  · refine ⟨fun hexact => ?_, fun hno => absurd hno hfamily⟩
    rcases installCores_inverted c cb ob hfamily (s.summarised b' summary) with hcores | ⟨t, ret, s', hcores, hinv⟩
    · exact absurd hexact (not_installsExactly_stuck hcores)
    · rw [hcores] at hexact
      have hbehind : Inverted s s' (.getHardwareVersion BSP_RVAL_OK :: .fillOutSummary BSP_RVAL_OK :: t) :=
        Inverted.cons rfl (Inverted.cons rfl hinv)
      exact absurd hexact (not_installsExactly_inverted ⟨_, List.mem_cons_self⟩
        ⟨_, List.mem_cons_of_mem _ List.mem_cons_self⟩ hbehind)

end Version

/-- The installation is exact exactly when it does not come to the cores. -/
theorem installsExactly_iff (c : PpcCalls ε) (cb : Callbacks σ) (ob : Objects) (s : PpcState ε σ) :
    InstallsExactly cb ob s (bspPPCInstall c cb ob s) ↔ StopsBeforeCores c s := by
  by_cases hmethod : ∃ p, c.bspMethodGetHardwareVersion s.proc = .ok p
  rotate_left
  · refine ⟨fun h => absurd h (not_installsExactly_stuck (install_versionStuck fun p hp => hmethod ⟨p, hp⟩)), ?_⟩
    intro hstops
    obtain ⟨ret, hwver, b, hver, -⟩ := hstops
    exact absurd ⟨_, hver⟩ hmethod
  obtain ⟨⟨⟨ret, hwver⟩, b⟩, hmethod⟩ := hmethod
  by_cases hret : ret = BSP_RVAL_OK
  rotate_left
  · refine ⟨fun _ => ⟨ret, hwver, b, hmethod, Or.inl hret⟩, fun _ => ?_⟩
    rw [install_versionFails hmethod hret]
    exact installsExactly_stopped rfl (by simp) (fun _ => hret)
  subst hret
  -- the version is there
  by_cases hsum : ∃ p, c.bspPPCFillOutSummary .zero b = .ok p
  rotate_left
  · refine ⟨fun h => absurd h (not_installsExactly_stuck (install_summaryStuck hmethod fun p hp => hsum ⟨p, hp⟩)), ?_⟩
    intro hstops
    obtain ⟨ret', summary, b', hsum', -⟩ := (stopsBeforeCores_iff hmethod).mp hstops
    exact absurd ⟨_, hsum'⟩ hsum
  obtain ⟨⟨⟨ret', summary⟩, b'⟩, hsum⟩ := hsum
  by_cases hret' : ret' = BSP_RVAL_OK
  rotate_left
  · refine ⟨fun _ => (stopsBeforeCores_iff hmethod).mpr ⟨ret', summary, b', hsum, Or.inl hret'⟩, fun _ => ?_⟩
    rw [install_summaryFails hmethod hsum hret']
    exact installsExactly_stopped rfl (by simp) (fun _ => hret')
  subst hret'
  -- and so is the summary
  rw [installsExactly_summarised hmethod hsum, stopsBeforeCores_summarised hmethod hsum]

end Exactness

/-! ## With the source's functions -/

section Source

variable {x : ClockExt ε} {b : Process ε}

/-- A known version has a summary exactly when it is of a family. -/
theorem fillOutSummary_cached (h : b.bspHardwareVersion ≠ 0) (summary : BspPpcSummary) :
    ∃ summary', bspPPCFillOutSummary x summary b =
      .ok ((if BSP_IS_LATTE b.bspHardwareVersion = false ∧ isWood b.bspHardwareVersion = false then
        BSP_RVAL_UNKNOWN_HARDWARE_VERSION else BSP_RVAL_OK, summary'), b) := by
  obtain ⟨clock, hclock⟩ := clockInfo_cached (x := x) h
  unfold bspPPCFillOutSummary
  rw [bspM_bind_ok (method_cached h)]
  dsimp only
  rw [if_neg (by decide), bspM_bind_ok hclock]
  dsimp only
  rw [if_neg (by decide)]
  cases hlatte : BSP_IS_LATTE b.bspHardwareVersion
  · rw [if_neg (by decide)]
    cases hwood : isWood b.bspHardwareVersion
    · exact ⟨_, rfl⟩
    · rw [if_neg (by decide)]
      split
      · exact ⟨_, rfl⟩
      · exact ⟨_, rfl⟩
  · exact ⟨_, rfl⟩

/-- Behind a summary, no call for a core fails. -/
theorem fillOutCoreProperties_cached (h : b.bspHardwareVersion ≠ 0)
    (hfamily : ¬ (BSP_IS_LATTE b.bspHardwareVersion = false ∧ isWood b.bspHardwareVersion = false)) (ppc : BspPpcSummary)
    (ndx : U32) (core : BspPpcCoreProperties) :
    ∃ core', bspPPCFillOutCoreProperties x ppc ndx core b = .ok ((BSP_RVAL_OK, core'), b) := by
  obtain ⟨summary, hsum⟩ := fillOutSummary_cached (x := x) h ppc
  rw [if_neg hfamily] at hsum
  unfold bspPPCFillOutCoreProperties
  rw [bspM_bind_ok (method_cached h)]
  dsimp only
  rw [if_neg (by decide), bspM_bind_ok hsum]
  dsimp only
  rw [if_neg (by decide)]
  split
  · split
    · exact ⟨_, rfl⟩
    · rename_i hespresso
      have hwood : ¬ isWood b.bspHardwareVersion = false := by
        intro hwood
        refine hfamily ⟨?_, hwood⟩
        simpa using fun hl => hespresso (Or.inl hl)
      rw [if_neg hwood]
      exact ⟨_, rfl⟩
  · exact ⟨_, rfl⟩

/-- `fillOutCore` then sees only successes, and registers nothing. -/
theorem fillOutCore_source (ppc : U32 → BspPpcSummary) {s : PpcState ε σ} (h : s.proc.bspHardwareVersion ≠ 0)
    (hfamily : ¬ (BSP_IS_LATTE s.proc.bspHardwareVersion = false ∧ isWood s.proc.bspHardwareVersion = false))
    (core : Fin 3) :
    ∃ s', fillOutCore (PpcCalls.source x ppc) core s = ⟨[.fillOutCoreProperties core BSP_RVAL_OK], .ok (BSP_RVAL_OK, s')⟩ ∧
      s'.entities = s.entities ∧ s'.proc = s.proc := by
  obtain ⟨core', hcore⟩ := fillOutCoreProperties_cached (x := x) h hfamily (ppc (BitVec.ofNat 32 core.val))
    (BitVec.ofNat 32 core.val) (s.coreproperties core)
  refine ⟨{ s with coreproperties := Function.update s.coreproperties core core' }, ?_, rfl, rfl⟩
  unfold fillOutCore
  rw [Run.stateful_bind_silent (Run.stateful_get s)]
  exact Run.stateful_bind_last (called_ok hcore) rfl

theorem fillOutCores_source (ppc : U32 → BspPpcSummary) (cores : List (Fin 3)) {s : PpcState ε σ}
    (h : s.proc.bspHardwareVersion ≠ 0)
    (hfamily : ¬ (BSP_IS_LATTE s.proc.bspHardwareVersion = false ∧ isWood s.proc.bspHardwareVersion = false)) :
    ∃ t s', fillOutCores (PpcCalls.source x ppc) BSP_RVAL_OK cores s = ⟨t, .ok (BSP_RVAL_OK, s')⟩ ∧
      s'.entities = s.entities := by
  induction cores generalizing s with
  | nil => exact ⟨[], s, rfl, rfl⟩
  | cons core cores ih =>
    obtain ⟨s₁, hcore, hent₁, hproc⟩ := fillOutCore_source (x := x) ppc h hfamily core
    rw [← hproc] at h hfamily
    obtain ⟨t, s', hcores, hent⟩ := ih h hfamily
    refine ⟨.fillOutCoreProperties core BSP_RVAL_OK :: t, s', ?_, hent.trans hent₁⟩
    unfold fillOutCores
    rw [Run.stateful_bind_ok hcore, show BSP_RVAL_OK ||| BSP_RVAL_OK = BSP_RVAL_OK from rfl, hcores]
    rfl

theorem installCores_source {ppc : U32 → BspPpcSummary} {cb : Callbacks σ} {ob : Objects} {s : PpcState ε σ}
    (h : s.proc.bspHardwareVersion ≠ 0)
    (hfamily : ¬ (BSP_IS_LATTE s.proc.bspHardwareVersion = false ∧ isWood s.proc.bspHardwareVersion = false)) :
    ∃ t s', installCores (PpcCalls.source x ppc) cb ob s.proc.bspHardwareVersion BSP_RVAL_OK s =
      ⟨t, .ok (BSP_RVAL_OK, s')⟩ ∧ s'.entities = s.entities := by
  unfold installCores
  by_cases hlatte : s.proc.bspHardwareVersion = BSP_HARDWARE_VERSION_HOLLYWOOD_CORTADO_ESPRESSO ∨
      BSP_IS_LATTE s.proc.bspHardwareVersion
  · rw [if_pos hlatte]
    dsimp only
    rw [Run.stateful_bind_silent (Run.stateful_modify _ s)]
    obtain ⟨t, s', hcores, hent⟩ := fillOutCores_source (x := x) (σ := σ) ppc lattePpcCores
      (s := s.withProc { s.proc with eePVRAddr := if s.proc.bspHardwareVersion =
        BSP_HARDWARE_VERSION_HOLLYWOOD_CORTADO_ESPRESSO then BSP_EE_PVR_HLYWD else BSP_EE_PVR_LATTE }) h hfamily
    exact ⟨t, s', Run.stateful_bind_last hcores rfl, hent⟩
  · have hwood : ¬ isWood s.proc.bspHardwareVersion = false := by
      intro hwood
      refine hfamily ⟨?_, hwood⟩
      simpa using fun hl => hlatte (Or.inr hl)
    rw [if_neg hlatte, if_neg hwood]
    obtain ⟨s', hcore, hent, -⟩ := fillOutCore_source (x := x) ppc h hfamily woodPpcCore
    exact ⟨_, s', Run.stateful_bind_last hcore rfl, hent⟩

/-- An installation with the source's functions never registers anything. -/
theorem source_registers_nothing {ppc : U32 → BspPpcSummary} {cb : Callbacks σ} {ob : Objects} {s s' : PpcState ε σ}
    {ret : BspRval} (hrun : (bspPPCInstall (PpcCalls.source x ppc) cb ob s).res = .ok (ret, s')) :
    s'.entities = s.entities := by
  by_cases hmethod : ∃ p, (PpcCalls.source x ppc).bspMethodGetHardwareVersion s.proc = .ok p
  rotate_left
  · exact absurd hrun (install_versionStuck (fun p hp => hmethod ⟨p, hp⟩) _)
  obtain ⟨⟨⟨ret₁, hwver⟩, b⟩, hmethod⟩ := hmethod
  by_cases hret : ret₁ = BSP_RVAL_OK
  rotate_left
  · rw [install_versionFails hmethod hret] at hrun
    cases hrun
    rfl
  subst hret
  obtain ⟨rfl, hne⟩ := method_caches hmethod
  obtain ⟨summary, hsum⟩ := fillOutSummary_cached (x := x) hne .zero
  by_cases hfamily : BSP_IS_LATTE b.bspHardwareVersion = false ∧ isWood b.bspHardwareVersion = false
  · rw [if_pos hfamily] at hsum
    rw [install_summaryFails hmethod hsum (by decide)] at hrun
    cases hrun
    rfl
  · rw [if_neg hfamily] at hsum
    obtain ⟨t, s₁, hcores, hent⟩ : ∃ t s₁, installCores (PpcCalls.source x ppc) cb ob b.bspHardwareVersion BSP_RVAL_OK
        (s.summarised b summary) = ⟨t, .ok (BSP_RVAL_OK, s₁)⟩ ∧ s₁.entities = s.entities :=
      installCores_source (s := s.summarised b summary) hne hfamily
    rw [install_cores hmethod hsum, hcores] at hrun
    cases hrun
    exact hent

/-- A Wii, its version in the cache. -/
def cachedWii : PpcState Device Unit :=
  PpcState.start { Process.start (Device.fresh (fun _ => 0) false) with
    bspHardwareVersion := BSP_HARDWARE_VERSION_HOLLYWOOD_PROD_FOR_WII }

def wii : ClockExt Device where
  toExt := Ext.quiet seeprom 0x11 0
  hwClocks := fun _ => 0
  ltPllsys := fun _ => 0

/-- Every call succeeds, the installation too, and there is no PPC. -/
theorem cachedWii_unregistered :
    ¬ InstallsExactly idleCallbacks ⟨0, fun _ => 0, 0⟩ cachedWii
      (bspPPCInstall (PpcCalls.source wii fun _ => .zero) idleCallbacks ⟨0, fun _ => 0, 0⟩ cachedWii) := by
  intro hsome
  obtain ⟨ret, s', hres, hiff, -⟩ := hsome
  refine not_registers (source_registers_nothing hres) (hiff.mpr ?_)
  have htrace : (bspPPCInstall (PpcCalls.source wii fun _ => .zero) idleCallbacks ⟨0, fun _ => 0, 0⟩ cachedWii).trace =
      [.getHardwareVersion BSP_RVAL_OK, .fillOutSummary BSP_RVAL_OK, .fillOutCoreProperties 0 BSP_RVAL_OK] := rfl
  rw [htrace]
  exact ⟨by decide, ⟨BSP_RVAL_OK, by decide⟩, ⟨BSP_RVAL_OK, by decide⟩, 0, BSP_RVAL_OK, by decide⟩

end Source

end Iosu.Bsp
