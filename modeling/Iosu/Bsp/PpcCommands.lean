/-
  Iosu.Bsp.PpcCommands — the commands of the PPC entity (`bspPPC_Exec`, `bsp_ppc.c`), as it is
  installed.

  A byte stops the PowerPC or starts it, through two pointers that `bspPPCInstall` sets by the
  family, behind the calls for the cores (`install_pointers`). But the test there is upside
  down: where no call for a core fails, both stay NULL. So the commands of an installation
  that went well are refused, and move nothing; with the source's own functions no
  installation sets the pointers at all. Where a call did fail, on a Wood, the CPU's line is as
  the last byte that was a command made it, one stop is enough for SRSTB and ENAHBIOPI, and
  no other bit is moved (`installed_commands`). Either way the hardware version is asked for
  first, and what comes of that is looked at by nobody; but where it does not come back, the
  command does not either.
-/

import Iosu.Bsp.Ppc
import Iosu.Bsp.PpcExec
import Iosu.Bsp.Server

namespace Iosu.Bsp

open Iosu.Lib Iosu.Lib.Microwire Iosu.Libc Iosu.Entity Iosu.Ios Iosu.Eeprom Iosu.Entities

variable {ε σ : Type}

def HW_RSTB_PI : U32 := 1 <<< 9

section Functions

variable (x : ExecExt ε)

def bspPPCExecStartLatte : ExecM ε BspRval := do
  setRstb ((← get).hwRstb &&& ~~~ (HW_RSTB_CPU ||| HW_RSTB_PI))
  execSleep x 0xF
  return BSP_RVAL_OK

/-- The function that a pointer is set to; `bspPPCExecStopLatte` is not in the source. -/
def PpcExec.run (bspPPCExecStopLatte : ExecM ε BspRval) : PpcExec → ExecM ε BspRval
  | .bspPPCExecStop => Bsp.bspPPCExecStop x
  | .bspPPCExecStart => Bsp.bspPPCExecStart x
  | .bspPPCExecStopLatte => bspPPCExecStopLatte
  | .bspPPCExecStartLatte => Bsp.bspPPCExecStartLatte x

/-- A pointer that is tested before it is called. -/
def callExec (bspPPCExecStopLatte : ExecM ε BspRval) : Option PpcExec → ExecM ε BspRval
  | none => return BSP_RVAL_UNSUPPORTED_METHOD
  | some f => f.run x bspPPCExecStopLatte

def bspPPC_Exec (bspPPCExecStopLatte : ExecM ε BspRval) (pPPCExecStop pPPCExecStart : Option PpcExec) (_inst : U32)
    (pWrittenData : Buf) : ExecM ε BspRval := do
  let _ ← onBsp (bspMethodGetHardwareVersion x.toExt)
  let cmd := pWrittenData 0
  if cmd = 1 then callExec x bspPPCExecStopLatte pPPCExecStop
  else if cmd = 2 then callExec x bspPPCExecStopLatte pPPCExecStart
  else return BSP_RVAL_INVALID_PARAMETER

/-- Commands, one after the other: the answers. -/
def execCommands (bspPPCExecStopLatte : ExecM ε BspRval) (pPPCExecStop pPPCExecStart : Option PpcExec) (inst : U32) :
    List Buf → ExecM ε (List BspRval)
  | [] => return []
  | data :: datas => do
    let ret ← bspPPC_Exec x bspPPCExecStopLatte pPPCExecStop pPPCExecStart inst data
    let rets ← execCommands bspPPCExecStopLatte pPPCExecStop pPPCExecStart inst datas
    return ret :: rets

end Functions

/-! ## What calls leave -/

def ExecCall.cpuLine : ExecCall → U32
  | start => 0
  | stop => HW_RSTB_CPU

/-- The two registers behind calls that came in this order. -/
structure CallsHold (calls : List ExecCall) (s s' : ExecState ε) : Prop where
  others : OthersKept s s'
  cpu : s'.hwRstb &&& HW_RSTB_CPU = (calls.getLast?.map ExecCall.cpuLine).getD (s.hwRstb &&& HW_RSTB_CPU)
  stopped : .stop ∈ calls → s'.hwRstb &&& HW_SRSTB_CPU = HW_SRSTB_CPU ∧
    s'.hwAipProt &&& HW_AIP_PROT_ENAHBIOPI = HW_AIP_PROT_ENAHBIOPI
  unstopped : .stop ∉ calls → s'.hwRstb &&& HW_SRSTB_CPU = s.hwRstb &&& HW_SRSTB_CPU ∧
    s'.hwAipProt &&& HW_AIP_PROT_ENAHBIOPI = s.hwAipProt &&& HW_AIP_PROT_ENAHBIOPI

theorem CallsHold.of_registers {s s' : ExecState ε} (hrstb : s'.hwRstb = s.hwRstb) (haip : s'.hwAipProt = s.hwAipProt) :
    CallsHold [] s s' :=
  ⟨⟨by rw [hrstb], by rw [haip]⟩, by rw [hrstb]; rfl, fun h => absurd h (by simp), fun _ => ⟨by rw [hrstb], by rw [haip]⟩⟩

theorem CallsHold.append {calls calls' : List ExecCall} {s₁ s₂ s₃ : ExecState ε} (h : CallsHold calls s₁ s₂)
    (h' : CallsHold calls' s₂ s₃) : CallsHold (calls ++ calls') s₁ s₃ := by
  refine ⟨h.others.trans h'.others, ?_, fun hmem => ?_, fun hmem => ?_⟩
  · rw [h'.cpu, h.cpu, List.getLast?_append]
    cases calls'.getLast? <;> rfl
  · by_cases hlater : .stop ∈ calls'
    · exact h'.stopped hlater
    · obtain ⟨hrstb, haip⟩ := h'.unstopped hlater
      obtain ⟨hrstb', haip'⟩ := h.stopped ((List.mem_append.mp hmem).resolve_right hlater)
      exact ⟨hrstb.trans hrstb', haip.trans haip'⟩
  · obtain ⟨hrstb, haip⟩ := h'.unstopped fun hlater => hmem (List.mem_append_right _ hlater)
    obtain ⟨hrstb', haip'⟩ := h.unstopped fun hearlier => hmem (List.mem_append_left _ hearlier)
    exact ⟨hrstb.trans hrstb', haip.trans haip'⟩

theorem ExecHolds.callsHold {x : ExecExt ε} {c : ExecCall} {s s' : ExecState ε} {ret : BspRval}
    (h : ExecHolds x s ret s' c) (hkept : OthersKept s s') : CallsHold [c] s s' := by
  cases c with
  | start =>
    obtain ⟨-, hcpu, hsrstb, haip⟩ := h
    exact ⟨hkept, hcpu, fun hmem => absurd hmem (by simp), fun _ => ⟨hsrstb, by rw [haip]⟩⟩
  | stop =>
    obtain ⟨-, haip, hboth⟩ := h
    have part : ∀ mask : U32, (HW_RSTB_CPU ||| HW_SRSTB_CPU) &&& mask = mask → s'.hwRstb &&& mask = mask := by
      intro mask hmask
      rw [← hmask, ← BitVec.and_assoc, hboth, hmask]
    exact ⟨hkept, part _ (by decide), fun _ => ⟨part _ (by decide), haip⟩, fun hmem => absurd List.mem_cons_self hmem⟩

/-! ## One command -/

/-- The call that a byte stands for. -/
def commandCall (cmd : U8) : Option ExecCall := if cmd = 1 then some .stop else if cmd = 2 then some .start else none

def commandCalls (datas : List Buf) : List ExecCall := datas.filterMap fun data => commandCall (data 0)

theorem commandCalls_cons (data : Buf) (datas : List Buf) :
    commandCalls (data :: datas) = commandCalls [data] ++ commandCalls datas := by
  unfold commandCalls
  rw [← List.filterMap_append]
  rfl

/-- What a command is answered. -/
def CommandAnswered (data : Buf) (ret : BspRval) : Prop :=
  match commandCall (data 0) with
  | some .stop => ret = BSP_RVAL_OK ∨ ret = BSP_RVAL_DEVICE_ERROR
  | some .start => ret = BSP_RVAL_OK
  | none => ret = BSP_RVAL_INVALID_PARAMETER

/-- Where the pointers are NULL. -/
def CommandRefused (data : Buf) (ret : BspRval) : Prop :=
  match commandCall (data 0) with
  | some _ => ret = BSP_RVAL_UNSUPPORTED_METHOD
  | none => ret = BSP_RVAL_INVALID_PARAMETER

/-- Nothing is moved or read but the process. -/
def Unmoved (s s' : ExecState ε) : Prop := s' = { s with proc := s'.proc }

theorem Unmoved.trans {s₁ s₂ s₃ : ExecState ε} (h : Unmoved s₁ s₂) (h' : Unmoved s₂ s₃) : Unmoved s₁ s₃ := by
  unfold Unmoved at h h' ⊢
  rw [h', h]

section Commands

variable (x : ExecExt ε) (bspPPCExecStopLatte : ExecM ε BspRval) (inst : U32) {data : Buf} {s : ExecState ε}
  {r : (BspRval × U32) × Process ε}

/-- Behind the look at the version. -/
theorem command_eq (pPPCExecStop pPPCExecStart : Option PpcExec)
    (hversion : bspMethodGetHardwareVersion x.toExt s.proc = .ok r) :
    bspPPC_Exec x bspPPCExecStopLatte pPPCExecStop pPPCExecStart inst data s =
      match commandCall (data 0) with
      | some .stop => callExec x bspPPCExecStopLatte pPPCExecStop { s with proc := r.2 }
      | some .start => callExec x bspPPCExecStopLatte pPPCExecStart { s with proc := r.2 }
      | none => .ok (BSP_RVAL_INVALID_PARAMETER, { s with proc := r.2 }) := by
  unfold bspPPC_Exec commandCall
  rw [execM_bind_ok (onBsp_ok hversion)]
  split
  · rfl
  split
  · rfl
  · rfl

theorem refused_command (hversion : bspMethodGetHardwareVersion x.toExt s.proc = .ok r) :
    ∃ ret s', bspPPC_Exec x bspPPCExecStopLatte none none inst data s = .ok (ret, s') ∧
      CommandRefused data ret ∧ Unmoved s s' := by
  rw [command_eq x bspPPCExecStopLatte inst none none hversion]
  unfold CommandRefused
  cases commandCall (data 0) with
  | none => exact ⟨_, _, rfl, rfl, rfl⟩
  | some c =>
    cases c with
    | stop => exact ⟨_, _, rfl, rfl, rfl⟩
    | start => exact ⟨_, _, rfl, rfl, rfl⟩

theorem wood_command (hversion : bspMethodGetHardwareVersion x.toExt s.proc = .ok r) :
    ∃ ret s', bspPPC_Exec x bspPPCExecStopLatte (some .bspPPCExecStop) (some .bspPPCExecStart) inst data s = .ok (ret, s') ∧
      CommandAnswered data ret ∧ CallsHold (commandCalls [data]) s s' := by
  have hbegun : CallsHold [] s { s with proc := r.2 } := .of_registers rfl rfl
  rw [command_eq x bspPPCExecStopLatte inst _ _ hversion]
  unfold CommandAnswered commandCalls
  cases hc : commandCall (data 0) with
  | none => exact ⟨_, _, rfl, rfl, by simpa [hc] using hbegun⟩
  | some c =>
    obtain ⟨ret, s', hrun, hholds, hkept⟩ := exec_step x c { s with proc := r.2 }
    have hcalls : CallsHold ([data].filterMap fun data => commandCall (data 0)) s s' := by
      simpa [hc] using hbegun.append (hholds.callsHold hkept)
    cases c with
    | start => exact ⟨ret, s', hrun, hholds.1, hcalls⟩
    | stop =>
      obtain ⟨⟨_, -, -, -, hfailed⟩, -, -⟩ := hholds
      refine ⟨ret, s', hrun, ?_, hcalls⟩
      by_cases hret : ret = BSP_RVAL_OK
      · exact Or.inl hret
      · exact Or.inr (hfailed hret).1

/-! ## Runs of commands -/

/-- The commands before `rest` came back, each answered as `answered` has it, and all
    together left the state as `left` has it. With anything left over, the look at the
    version that the next one begins with does not come back. -/
structure CommandsRun (pPPCExecStop pPPCExecStart : Option PpcExec) (answered : Buf → BspRval → Prop)
    (left : List Buf → ExecState ε → ExecState ε → Prop) (done rest : List Buf) (s : ExecState ε)
    (rets : List BspRval) (s' : ExecState ε) : Prop where
  run : execCommands x bspPPCExecStopLatte pPPCExecStop pPPCExecStart inst done s = .ok (rets, s')
  answers : List.Forall₂ answered done rets
  state : left done s s'
  stuck : rest ≠ [] → ∀ r, bspMethodGetHardwareVersion x.toExt s'.proc ≠ .ok r

/-- What one command does behind the version, all do up to a version that does not come back. -/
theorem commands_run {pPPCExecStop pPPCExecStart : Option PpcExec} {answered : Buf → BspRval → Prop}
    {left : List Buf → ExecState ε → ExecState ε → Prop} (hnone : ∀ s, left [] s s)
    (hcons : ∀ {data datas s s₁ s'}, left [data] s s₁ → left datas s₁ s' → left (data :: datas) s s')
    (hstep : ∀ {data s r}, bspMethodGetHardwareVersion x.toExt s.proc = .ok r → ∃ ret s',
      bspPPC_Exec x bspPPCExecStopLatte pPPCExecStop pPPCExecStart inst data s = .ok (ret, s') ∧
        answered data ret ∧ left [data] s s') (datas : List Buf) (s : ExecState ε) :
    ∃ done rest rets s', datas = done ++ rest ∧
      CommandsRun x bspPPCExecStopLatte inst pPPCExecStop pPPCExecStart answered left done rest s rets s' := by
  induction datas generalizing s with
  | nil => exact ⟨[], [], [], s, rfl, rfl, .nil, hnone s, fun hne => absurd rfl hne⟩
  | cons data datas ih =>
    by_cases hversion : ∃ r, bspMethodGetHardwareVersion x.toExt s.proc = .ok r
    · obtain ⟨r, hversion⟩ := hversion
      obtain ⟨ret, s₁, hrun, hanswered, hleft⟩ := hstep hversion
      obtain ⟨done, rest, rets, s', rfl, hruns⟩ := ih s₁
      refine ⟨data :: done, rest, ret :: rets, s', rfl, ?_, .cons hanswered hruns.answers,
        hcons hleft hruns.state, hruns.stuck⟩
      unfold execCommands
      rw [execM_bind_ok hrun, execM_bind_ok hruns.run]
      rfl
    · exact ⟨[], data :: datas, [], s, rfl, rfl, .nil, hnone s, fun _ r hr => hversion ⟨r, hr⟩⟩

end Commands

/-! ## The pointers of an installation -/

def PpcState.pointers (p : PpcState ε σ) : Option PpcExec × Option PpcExec := (p.pPPCExecStop, p.pPPCExecStart)

theorem setExec_pointers {p p' : PpcState ε σ} (h : p.pointers = p'.pointers) (hwver : U32) :
    (setExec hwver p).pointers = (setExec hwver p').pointers := by
  unfold setExec
  split
  · rfl
  split
  · rfl
  · exact h

/-- A call for a core that failed. -/
def PpcCall.CoreFails : PpcCall → Prop
  | .fillOutCoreProperties _ ret => ret ≠ BSP_RVAL_OK
  | .getHardwareVersion _ | .fillOutSummary _ => False

def CoreFailed (t : List PpcCall) : Prop := ∃ e ∈ t, e.CoreFails

section Install

variable {c : PpcCalls ε} {cb : Callbacks σ} {ob : Objects} {ret ret' : BspRval} {p p' : PpcState ε σ}
  {t : List PpcCall}

theorem fillOutCore_pointers {core : Fin 3} (h : (fillOutCore c core p).res = .ok (ret, p')) :
    p'.pointers = p.pointers := by
  unfold fillOutCore at h
  rw [Run.stateful_bind_silent (Run.stateful_get p)] at h
  obtain ⟨⟨r, properties⟩, p₁, hcall, hrest, -⟩ := Run.stateful_bind_returns h
  have hcalled : p₁.pointers = p.pointers := by
    unfold called at hcall
    split at hcall <;> cases hcall
    rfl
  cases hrest
  exact hcalled

/-- They are left alone, and all that is seen is the calls. -/
theorem fillOutCores_pointers {cores : List (Fin 3)} (h : fillOutCores c ret cores p = ⟨t, .ok (ret', p')⟩) :
    p'.pointers = p.pointers ∧ ∀ e ∈ t, (e.CoreFails ↔ e.ret ≠ BSP_RVAL_OK) := by
  induction cores generalizing ret p t with
  | nil =>
    cases h
    exact ⟨rfl, by simp⟩
  | cons core cores ih =>
    rcases fillOutCore_cases c core p with hstuck | ⟨r, p₁, hcore, -⟩
    · exact absurd (congrArg Run.res h) (hstuck.bind _ _)
    unfold fillOutCores at h
    rw [Run.stateful_bind_ok hcore] at h
    obtain ⟨rfl, hres⟩ := Run.mk.inj h
    obtain ⟨hpointers, hcalls⟩ := ih (t := (fillOutCores c (ret ||| r) cores p₁).trace) (Run.ext' rfl hres)
    refine ⟨hpointers.trans (fillOutCore_pointers (congrArg Run.res hcore)), fun e he => ?_⟩
    rcases List.mem_cons.mp he with rfl | he
    · exact Iff.rfl
    · exact hcalls e he

/-- What an installation that comes back leaves, and when it sets the pointers. -/
def Leaves (hwver : U32) (p p' : PpcState ε σ) (t : List PpcCall) : Prop :=
  (¬ CoreFailed t ∧ p'.pointers = p.pointers) ∨
    (CoreFailed t ∧ p'.entities ≠ p.entities ∧ p'.pointers = (setExec hwver p).pointers)

/-- The test behind the calls for the cores. -/
theorem leaves_test {hwver : U32} {p₁ : PpcState ε σ} {t₁ : List PpcCall}
    (hzero : ret = 0 ↔ ∀ e ∈ t₁, e.ret = BSP_RVAL_OK)
    (hcalls : ∀ e ∈ t₁, (e.CoreFails ↔ e.ret ≠ BSP_RVAL_OK)) (hpointers : p₁.pointers = p.pointers)
    (hentities : p₁.entities = p.entities) {g : PpcState ε σ → PpcState ε σ}
    (hg : (g p₁).pointers = (setExec hwver p₁).pointers) (hg' : (g p₁).entities = p₁.entities)
    {entity : BspEntity σ} (h : (if ret = 0 then return ret else do
        modify g
        bspRegisterEntity entity : PpcM ε σ BspRval) p₁ = ⟨t, .ok (ret', p')⟩) :
    Leaves hwver p p' (t₁ ++ t) := by
  by_cases hret : ret = 0
  · rw [if_pos hret] at h
    cases h
    refine Or.inl ⟨?_, hpointers⟩
    intro hfailed
    obtain ⟨e, he, hfails⟩ := hfailed
    rw [List.append_nil] at he
    exact (hcalls e he).mp hfails (hzero.mp hret e he)
  · rw [if_neg hret] at h
    cases h
    refine Or.inr ⟨?_, ?_, hg.trans (setExec_pointers hpointers hwver)⟩
    · by_contra hnone
      refine hret (hzero.mpr fun e he => ?_)
      by_contra hfails
      exact hnone ⟨e, List.mem_append_left _ he, (hcalls e he).mpr hfails⟩
    · show (g p₁).entities ++ [entity] ≠ p.entities
      rw [hg', hentities]
      simp

theorem installCores_leaves {hwver : U32} (h : installCores c cb ob hwver BSP_RVAL_OK p = ⟨t, .ok (ret, p')⟩) :
    Leaves hwver p p' t := by
  unfold installCores at h
  split at h
  · dsimp only at h
    rw [Run.stateful_bind_silent (Run.stateful_modify _ p)] at h
    rcases fillOutCores_cases c lattePpcCores BSP_RVAL_OK _ with hstuck | ⟨t₁, r, p₁, hcores, hentities, -, hzero⟩
    · exact absurd (congrArg Run.res h) (hstuck.bind _ _)
    obtain ⟨hpointers, hcalls⟩ := fillOutCores_pointers hcores
    rw [Run.stateful_bind_ok hcores] at h
    obtain ⟨rfl, hres⟩ := Run.mk.inj h
    exact leaves_test (g := setExec hwver) (hzero.trans (and_iff_right rfl)) hcalls hpointers hentities rfl
      (setExec_entities hwver p₁) (Run.ext' rfl hres)
  split at h
  · cases h
    exact Or.inl ⟨by simp [CoreFailed], rfl⟩
  · rcases fillOutCore_cases c woodPpcCore p with hstuck | ⟨r, p₁, hcore, hentities⟩
    · exact absurd (congrArg Run.res h) (hstuck.bind _ _)
    have hpointers := fillOutCore_pointers (congrArg Run.res hcore)
    have hzero : r = 0 ↔ ∀ e ∈ [PpcCall.fillOutCoreProperties woodPpcCore r], e.ret = BSP_RVAL_OK := by
      simp [PpcCall.ret, BSP_RVAL_OK]
    rw [Run.stateful_bind_ok hcore] at h
    obtain ⟨rfl, hres⟩ := Run.mk.inj h
    refine leaves_test (g := fun s => setExec hwver { s with proc := { s.proc with eePVRAddr := BSP_EE_PVR_HLYWD } })
      hzero ?_ hpointers hentities (setExec_pointers (by rfl) hwver) (setExec_entities hwver _) (Run.ext' rfl hres)
    intro e he
    rw [List.mem_singleton.mp he]
    rfl

/-- The pointers stay as they are where no call for a core fails; where one does, an entity
    is registered and they are set by the family. -/
theorem install_pointers (h : bspPPCInstall c cb ob p = ⟨t, .ok (ret, p')⟩) :
    (¬ CoreFailed t ∧ p'.pointers = p.pointers) ∨
      (CoreFailed t ∧ p'.entities ≠ p.entities ∧ ∃ hwver b,
        c.bspMethodGetHardwareVersion p.proc = .ok ((BSP_RVAL_OK, hwver), b) ∧
          p'.pointers = (setExec hwver p).pointers) := by
  by_cases hmethod : ∃ q, c.bspMethodGetHardwareVersion p.proc = .ok q
  rotate_left
  · exact absurd (congrArg Run.res h) (install_versionStuck (fun q hq => hmethod ⟨q, hq⟩) _)
  obtain ⟨⟨⟨ret₁, hwver⟩, b⟩, hmethod⟩ := hmethod
  by_cases hret : ret₁ = BSP_RVAL_OK
  rotate_left
  · rw [install_versionFails hmethod hret] at h
    cases h
    exact Or.inl ⟨by simp [CoreFailed, PpcCall.CoreFails], rfl⟩
  subst hret
  by_cases hsum : ∃ q, c.bspPPCFillOutSummary .zero b = .ok q
  rotate_left
  · exact absurd (congrArg Run.res h) (install_summaryStuck hmethod (fun q hq => hsum ⟨q, hq⟩) _)
  obtain ⟨⟨⟨ret₂, summary⟩, b₂⟩, hsum⟩ := hsum
  by_cases hret₂ : ret₂ = BSP_RVAL_OK
  rotate_left
  · rw [install_summaryFails hmethod hsum hret₂] at h
    cases h
    exact Or.inl ⟨by simp [CoreFailed, PpcCall.CoreFails], rfl⟩
  subst hret₂
  -- behind the summary come the cores
  rw [install_cores hmethod hsum] at h
  obtain ⟨rfl, hres⟩ := Run.mk.inj h
  have hfront : CoreFailed (.getHardwareVersion BSP_RVAL_OK :: .fillOutSummary BSP_RVAL_OK ::
      (installCores c cb ob hwver BSP_RVAL_OK (p.summarised b₂ summary)).trace) ↔
      CoreFailed (installCores c cb ob hwver BSP_RVAL_OK (p.summarised b₂ summary)).trace := by
    simp [CoreFailed, PpcCall.CoreFails]
  rcases installCores_leaves (Run.ext' rfl hres) with ⟨hno, hpointers⟩ | ⟨hfailed, hentities, hpointers⟩
  · exact Or.inl ⟨mt hfront.mp hno, hpointers⟩
  · exact Or.inr ⟨hfront.mpr hfailed, hentities, hwver, b, hmethod, hpointers.trans (setExec_pointers (by rfl) hwver)⟩

/-- With the source's functions none does. -/
theorem source_cores {y : ClockExt ε} {ppc : U32 → BspPpcSummary}
    (h : bspPPCInstall (PpcCalls.source y ppc) cb ob p = ⟨t, .ok (ret, p')⟩) : ¬ CoreFailed t := by
  intro hfailed
  rcases install_pointers h with ⟨hno, -⟩ | ⟨-, hentities, -⟩
  · exact hno hfailed
  · exact hentities (source_registers_nothing (congrArg Run.res h))

end Install

/-! ## The commands of an installation -/

/-- Over any bytes and from any registers, behind an installation from the data segment's
    pointers: where no call for a core failed, every command is refused and moves nothing;
    where one did, on a Wood, the registers are as the commands say; and with the source's
    own functions none does. -/
theorem installed_commands {c : PpcCalls ε} {cb : Callbacks σ} {ob : Objects} {b : Process ε} {t : List PpcCall}
    {ret : BspRval} {p : PpcState ε σ} (hrun : bspPPCInstall c cb ob (PpcState.start b) = ⟨t, .ok (ret, p)⟩)
    (x : ExecExt ε) (bspPPCExecStopLatte : ExecM ε BspRval) (inst : U32) (datas : List Buf) (s : ExecState ε) :
    (¬ CoreFailed t → ∃ done rest rets s', datas = done ++ rest ∧
      CommandsRun x bspPPCExecStopLatte inst p.pPPCExecStop p.pPPCExecStart CommandRefused (fun _ => Unmoved)
        done rest s rets s') ∧
    (∀ hwver b₁, c.bspMethodGetHardwareVersion b = .ok ((BSP_RVAL_OK, hwver), b₁) → isWood hwver = true →
      CoreFailed t → ∃ done rest rets s', datas = done ++ rest ∧
        CommandsRun x bspPPCExecStopLatte inst p.pPPCExecStop p.pPPCExecStart CommandAnswered
          (fun datas => CallsHold (commandCalls datas)) done rest s rets s') ∧
    (∀ (y : ClockExt ε) (ppc : U32 → BspPpcSummary), c = PpcCalls.source y ppc → ¬ CoreFailed t) := by
  refine ⟨?_, ?_, ?_⟩
  · intro hno
    have hnull : p.pointers = (none, none) := by
      rcases install_pointers hrun with ⟨-, hpointers⟩ | ⟨hfailed, -⟩
      · exact hpointers
      · exact absurd hfailed hno
    obtain ⟨hstop, hstart⟩ := Prod.mk.inj hnull
    rw [hstop, hstart]
    exact commands_run x bspPPCExecStopLatte inst (fun _ => rfl) Unmoved.trans
      (refused_command x bspPPCExecStopLatte inst) datas s
  · intro hwver b₁ hmethod hwood hfailed
    have hset : p.pointers = (some .bspPPCExecStop, some .bspPPCExecStart) := by
      rcases install_pointers hrun with ⟨hno, -⟩ | ⟨-, -, hwver', b₂, hmethod', hpointers⟩
      · exact absurd hfailed hno
      · cases hmethod.symm.trans hmethod'
        rw [hpointers, setExec, if_pos hwood]
        rfl
    obtain ⟨hstop, hstart⟩ := Prod.mk.inj hset
    rw [hstop, hstart]
    refine commands_run x bspPPCExecStopLatte inst (fun _ => .of_registers rfl rfl) ?_
      (wood_command x bspPPCExecStopLatte inst) datas s
    intro data datas s s₁ s' hfirst hothers
    rw [commandCalls_cons]
    exact hfirst.append hothers
  · intro y ppc hsource
    subst hsource
    exact source_cores hrun

section Wii

/-- A PowerPC that has set X2 by the first poll, with a PVR that is known. -/
def promptExt : ExecExt Device where
  toExt := wii.toExt
  bspSleep := fun _ env => env
  HW_IPC_ARMCTRL_X2 := 1 <<< 3
  HW_IPC_ARMCTRL_Y2 := 1 <<< 1
  armctrl := fun _ => 1 <<< 3
  writeArmctrl := fun _ env => env
  bspPPCSetPVR := fun _ b => (BSP_RVAL_OK, b)
  exiBoot15 := fun _ => 0
  pvrFrame := fun _ => ⟨0, 0⟩

/-- The registers beside a process. -/
def beside (b : Process Device) : ExecState Device where
  proc := b
  hwRstb := 0xFFFFFFFF
  hwAipProt := 0
  armctrlReads := 0

def bytesCommands (bytes : List U8) : List Buf := bytes.map fun byte _ => byte

/-- The source's functions, but for one that has no properties of a core. -/
def corelessCalls : PpcCalls Device :=
  { PpcCalls.source wii fun _ => .zero with
    bspPPCFillOutCoreProperties := fun _ core => pure (BSP_RVAL_DEVICE_ERROR, core) }

/-- A Wii as the source installs it refuses a stop and a start; without the properties of its
    core it takes them. -/
theorem cachedWii_commands :
    (∃ t ret p, bspPPCInstall (PpcCalls.source wii fun _ => .zero) idleCallbacks ⟨0, fun _ => 0, 0⟩ cachedWii =
        ⟨t, .ok (ret, p)⟩ ∧
      ∃ done rest rets s', bytesCommands [1, 7, 2] = done ++ rest ∧
        CommandsRun promptExt (return BSP_RVAL_OK) 0 p.pPPCExecStop p.pPPCExecStart CommandRefused (fun _ => Unmoved)
          done rest (beside p.proc) rets s') ∧
    (∃ t ret p, bspPPCInstall corelessCalls idleCallbacks ⟨0, fun _ => 0, 0⟩ cachedWii = ⟨t, .ok (ret, p)⟩ ∧
      ∃ done rest rets s', bytesCommands [1, 7, 2] = done ++ rest ∧
        CommandsRun promptExt (return BSP_RVAL_OK) 0 p.pPPCExecStop p.pPPCExecStart CommandAnswered
          (fun datas => CallsHold (commandCalls datas)) done rest (beside p.proc) rets s') := by
  refine ⟨?_, ?_⟩
  · have hinstalled : ∃ ret p,
        bspPPCInstall (PpcCalls.source wii fun _ => .zero) idleCallbacks ⟨0, fun _ => 0, 0⟩ cachedWii =
          ⟨[.getHardwareVersion BSP_RVAL_OK, .fillOutSummary BSP_RVAL_OK,
            .fillOutCoreProperties 0 BSP_RVAL_OK], .ok (ret, p)⟩ := ⟨_, _, rfl⟩
    obtain ⟨ret, p, hrun⟩ := hinstalled
    obtain ⟨hrefused, -, hsource⟩ := installed_commands hrun promptExt (return BSP_RVAL_OK) 0
      (bytesCommands [1, 7, 2]) (beside p.proc)
    exact ⟨_, ret, p, hrun, hrefused (hsource wii (fun _ => .zero) rfl)⟩
  · have hinstalled : ∃ ret p, bspPPCInstall corelessCalls idleCallbacks ⟨0, fun _ => 0, 0⟩ cachedWii =
        ⟨[.getHardwareVersion BSP_RVAL_OK, .fillOutSummary BSP_RVAL_OK,
          .fillOutCoreProperties 0 BSP_RVAL_DEVICE_ERROR], .ok (ret, p)⟩ := ⟨_, _, rfl⟩
    obtain ⟨ret, p, hrun⟩ := hinstalled
    have hfailed : CoreFailed [.getHardwareVersion BSP_RVAL_OK, .fillOutSummary BSP_RVAL_OK,
        .fillOutCoreProperties 0 BSP_RVAL_DEVICE_ERROR] := by
      refine ⟨.fillOutCoreProperties 0 BSP_RVAL_DEVICE_ERROR, by simp, ?_⟩
      show BSP_RVAL_DEVICE_ERROR ≠ BSP_RVAL_OK
      decide
    obtain ⟨-, hanswered, -⟩ := installed_commands hrun promptExt (return BSP_RVAL_OK) 0
      (bytesCommands [1, 7, 2]) (beside p.proc)
    exact ⟨_, ret, p, hrun, hanswered _ _ rfl (by decide) hfailed⟩

end Wii

end Iosu.Bsp
