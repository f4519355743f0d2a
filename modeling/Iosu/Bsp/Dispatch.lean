/-
  Iosu.Bsp.Dispatch — which handlers an IOCTL runs, and what it is answered.

  A command is meant to run the case of its own and nothing else (`ServedAlone`).
  The cases have no `break`: whatever the command, the ones below it run too, and the
  default replaces what they answered with IOS_ERROR_INVALID. `servedAlone_iff` finds
  the one kind of request for which that makes no difference.
-/

import Iosu.Bsp.Server

namespace Iosu.Bsp

open Iosu.Lib Iosu.Lib.Switch Iosu.Libc Iosu.Entity Iosu.Ios

variable {ε : Type}

/-! ## The handler of a command -/

def handlerOf (cmd : U32) : Option Handler :=
  if cmd = BSP_IOCTL_GET_ENTITY_VERSION then some .getEntityVersion
  else if cmd = BSP_IOCTL_GET_HARDWARE_VERSION then some .getHardwareVersion
  else if cmd = BSP_IOCTL_GET_CONSOLE_MASK then some .getConsoleMask
  else if cmd = BSP_IOCTL_METHOD_QUERY then some .query
  else if cmd = BSP_IOCTL_METHOD_READ then some .read
  else if cmd = BSP_IOCTL_METHOD_WRITE then some .write
  else if cmd = BSP_IOCTL_METHOD_INIT then some .init
  else if cmd = BSP_IOCTL_METHOD_SHUTDOWN then some .shutdown
  else if cmd = BSP_IOCTL_GET_CONSOLE_TYPE then some .getConsoleType
  else none

/-- A case does nothing but start this handler, with these credentials, and what the
    handler calls. -/
def Runs (h : Handler) (clientCredentials : Option U32) {α : Type} (r : Turn ε α) : Prop :=
  ∀ e ∈ r.trace, e = .handler h clientCredentials ∨ ∃ c, e = .call c

theorem runs_pure (h : Handler) (c : Option U32) {α : Type} (a : α) : Runs h c (pure a : Turn ε α) := by
  intro e he
  cases he

theorem Runs.bind {h : Handler} {c : Option U32} {α β : Type} {r : Turn ε α} {k : α → Turn ε β} (hr : Runs h c r)
    (hk : ∀ a, Runs h c (k a)) : Runs h c (r >>= k) := by
  intro e he
  rcases Run.mem_bind_trace.mp he with he | ⟨a, -, he⟩
  · exact hr e he
  · exact hk a e he

theorem runs_start (h : Handler) (c : Option U32) {α : Type} (p : Prog (Process ε) α) : Runs h c (start h c p) := by
  intro e he
  unfold start at he
  rw [Run.emit_bind_trace, Run.mapTrace_trace] at he
  rcases List.mem_cons.mp he with rfl | he
  · exact Or.inl rfl
  · obtain ⟨cl, -, rfl⟩ := List.mem_map.mp he
    exact Or.inr ⟨cl, rfl⟩

/-- The handler is started, before anything else. -/
theorem start_mem (h : Handler) (c : Option U32) {α : Type} (p : Prog (Process ε) α) :
    (Event.handler h c) ∈ (start h c p).trace := by
  unfold start
  rw [Run.emit_bind_trace]
  exact List.mem_cons_self

theorem start_res (h : Handler) (c : Option U32) {α : Type} (p : Prog (Process ε) α) : (start h c p).res = p.res := by
  unfold start
  rw [Run.emit_bind_res, Run.mapTrace_res]

theorem sizedCase_reject {args : IoctlArgs} {s : Ioctl ε} (hs : args.size s.mem ≠ 4)
    (body : Ioctl ε → Turn ε (Ioctl ε)) :
    sizedCase args body s = pure { s with result := BSP_RVAL_SPECIFIED_SIZE_INVALID } := if_pos hs

theorem sizedCase_accept {args : IoctlArgs} {s : Ioctl ε} (hs : args.size s.mem = 4)
    (body : Ioctl ε → Turn ε (Ioctl ε)) : sizedCase args body s = body s := if_neg (not_not.mpr hs)

theorem runs_sizedCase {h : Handler} {c : Option U32} {args : IoctlArgs} {body : Ioctl ε → Turn ε (Ioctl ε)}
    (hb : ∀ s, Runs h c (body s)) (s : Ioctl ε) : Runs h c (sizedCase args body s) := by
  unfold sizedCase
  split
  · exact runs_pure h c _
  · exact hb s

section Cases

variable [DataMem (Process ε)] (fuel : Nat) (x : Ext ε) (es : List (BspEntity (Process ε))) (args : IoctlArgs)

/-- Every case starts at most the handler of its label. -/
theorem ioctlCases_runs {c : Case U32 (Event (Process ε)) Fault (Ioctl ε)} (hc : c ∈ ioctlCases fuel x es args) :
    ∃ h cr, handlerOf c.label = some h ∧ (cr = none ∨ cr = some args.permissions) ∧ ∀ s, Runs h cr (c.body s) := by
  simp only [ioctlCases, List.mem_cons, List.not_mem_nil, or_false] at hc
  rcases hc with rfl | rfl | rfl | rfl | rfl | rfl | rfl | rfl | rfl
  · refine ⟨_, none, rfl, Or.inl rfl, runs_sizedCase fun s => (runs_start _ _ _).bind fun p => ?_⟩
    rcases p with ⟨ret, version⟩
    cases version with
    | none => exact runs_pure _ _ _
    | some version => exact runs_pure _ _ _
  · exact ⟨_, none, rfl, Or.inl rfl, runs_sizedCase fun s => (runs_start _ _ _).bind fun p => runs_pure _ _ _⟩
  · exact ⟨_, none, rfl, Or.inl rfl, runs_sizedCase fun s => (runs_start _ _ _).bind fun p => runs_pure _ _ _⟩
  · exact ⟨_, _, rfl, Or.inr rfl, fun s => (runs_start _ _ _).bind fun p => runs_pure _ _ _⟩
  · exact ⟨_, _, rfl, Or.inr rfl, fun s => (runs_start _ _ _).bind fun p => runs_pure _ _ _⟩
  · exact ⟨_, _, rfl, Or.inr rfl, fun s => (runs_start _ _ _).bind fun p => runs_pure _ _ _⟩
  · exact ⟨_, _, rfl, Or.inr rfl, fun s => (runs_start _ _ _).bind fun p => runs_pure _ _ _⟩
  · exact ⟨_, _, rfl, Or.inr rfl, fun s => (runs_start _ _ _).bind fun p => runs_pure _ _ _⟩
  · exact ⟨_, none, rfl, Or.inl rfl, runs_sizedCase fun s => (runs_start _ _ _).bind fun p => runs_pure _ _ _⟩

theorem ioctlCases_fall {c : Case U32 (Event (Process ε)) Fault (Ioctl ε)} (hc : c ∈ ioctlCases fuel x es args) :
    c.breaks = false := by
  simp only [ioctlCases, List.mem_cons, List.not_mem_nil, or_false] at hc
  rcases hc with rfl | rfl | rfl | rfl | rfl | rfl | rfl | rfl | rfl <;> rfl

omit [DataMem (Process ε)] in
/-- The nine commands. -/
theorem command_cases {cmd : U32} {h : Handler} (hc : handlerOf cmd = some h) :
    cmd = BSP_IOCTL_GET_ENTITY_VERSION ∨ cmd = BSP_IOCTL_GET_HARDWARE_VERSION ∨ cmd = BSP_IOCTL_GET_CONSOLE_MASK ∨
      cmd = BSP_IOCTL_METHOD_QUERY ∨ cmd = BSP_IOCTL_METHOD_READ ∨ cmd = BSP_IOCTL_METHOD_WRITE ∨
      cmd = BSP_IOCTL_METHOD_INIT ∨ cmd = BSP_IOCTL_METHOD_SHUTDOWN ∨ cmd = BSP_IOCTL_GET_CONSOLE_TYPE := by
  by_contra hno
  simp only [not_or] at hno
  obtain ⟨h1, h2, h3, h4, h5, h6, h7, h8, h9⟩ := hno
  rw [handlerOf, if_neg h1, if_neg h2, if_neg h3, if_neg h4, if_neg h5, if_neg h6, if_neg h7, if_neg h8,
    if_neg h9] at hc
  cases hc

/-- The case a command is for, alone. -/
def ownCase (cmd : U32) : Ioctl ε → Turn ε (Ioctl ε) := selected cmd (ioctlCases fuel x es args) caseDefault

theorem ownCase_runs {cmd : U32} {h : Handler} (hc : handlerOf cmd = some h) (s : Ioctl ε) :
    ∃ cr, (cr = none ∨ cr = some args.permissions) ∧ Runs h cr (ownCase fuel x es args cmd s) := by
  cases hf : (ioctlCases fuel x es args).find? fun c => c.label = cmd with
  | none =>
    rcases command_cases hc with rfl | rfl | rfl | rfl | rfl | rfl | rfl | rfl | rfl <;> cases hf
  | some c =>
    obtain ⟨h', cr, hh, hcr, hruns⟩ := ioctlCases_runs fuel x es args (List.mem_of_find?_eq_some hf)
    have hlabel : c.label = cmd := by simpa using List.find?_some hf
    rw [hlabel, hc, Option.some.injEq] at hh
    subst hh
    refine ⟨cr, hcr, ?_⟩
    unfold ownCase selected
    rw [hf]
    exact hruns s

def shutdownCase : Case U32 (Event (Process ε)) Fault (Ioctl ε) :=
  { label := BSP_IOCTL_METHOD_SHUTDOWN, body := caseShutdown es args, breaks := false }

def consoleTypeCase : Case U32 (Event (Process ε)) Fault (Ioctl ε) :=
  { label := BSP_IOCTL_GET_CONSOLE_TYPE, body := caseGetConsoleType args, breaks := false }

/-- From any command but the last two the switch runs on into Shutdown. -/
theorem switch_through_shutdown {cmd : U32} {h : Handler} (hc : handlerOf cmd = some h)
    (h8 : cmd ≠ BSP_IOCTL_METHOD_SHUTDOWN) (h9 : cmd ≠ BSP_IOCTL_GET_CONSOLE_TYPE) :
    ∃ before, (∀ b ∈ before, b ∈ ioctlCases fuel x es args) ∧ ∀ s,
      switch cmd (ioctlCases fuel x es args) caseDefault s =
        runFrom caseDefault (before ++ shutdownCase es args :: [consoleTypeCase args]) s := by
  have hsub : ∀ k, ∀ b ∈ ((ioctlCases fuel x es args).drop k).take (7 - k), b ∈ ioctlCases fuel x es args :=
    fun k b hb => List.mem_of_mem_drop (List.mem_of_mem_take hb)
  rcases command_cases hc with rfl | rfl | rfl | rfl | rfl | rfl | rfl | rfl | rfl
  · exact ⟨_, hsub 0, fun s => rfl⟩
  · exact ⟨_, hsub 1, fun s => rfl⟩
  · exact ⟨_, hsub 2, fun s => rfl⟩
  · exact ⟨_, hsub 3, fun s => rfl⟩
  · exact ⟨_, hsub 4, fun s => rfl⟩
  · exact ⟨_, hsub 5, fun s => rfl⟩
  · exact ⟨_, hsub 6, fun s => rfl⟩
  · exact absurd rfl h8
  · exact absurd rfl h9

end Cases

/-! ## What a Shutdown answers -/

/-- When a Shutdown answers IOS_ERROR_INVALID, its attribute's method did. -/
theorem bspMethodShutdown_invalid {σ : Type} (es : List (BspEntity σ)) (en : CStr) (i : U32) (an : CStr) (c : U32)
    (p p' : σ) : (bspMethodShutdown es en i an c p).res = .ok (IOS_ERROR_INVALID, p') ↔
      ∃ pE a m, bspFindAttribute es en i an c BSP_IOCTL_METHOD_SHUTDOWN = .ok (BSP_RVAL_OK, pE, some a) ∧
        a.shutdownMethod = some m ∧ m i a.toAttributeData p = .ok (IOS_ERROR_INVALID, p') := by
  unfold bspMethodShutdown
  cases hf : bspFindAttribute es en i an c BSP_IOCTL_METHOD_SHUTDOWN with
  | fault f => rw [Run.lift_fault_bind]; simp
  | spin => rw [Run.lift_spin_bind]; simp
  | ok y =>
    obtain ⟨r, pE, pA⟩ := y
    rw [Run.lift_ok_bind]
    dsimp only
    by_cases hr : r = BSP_RVAL_OK
    · subst hr
      rw [if_neg (not_not.mpr rfl)]
      cases pA with
      | none => simp
      | some a =>
        rw [derefAttribute_some, Run.pure_bind]
        cases hm : a.shutdownMethod with
        | none =>
          have hne : BSP_RVAL_UNSUPPORTED_METHOD ≠ IOS_ERROR_INVALID := by decide
          simp [hm, hne]
        | some m =>
          dsimp only
          rw [call_res, Res.mapFault_eq_ok]
          refine ⟨fun h => ⟨pE, a, m, rfl, hm, h⟩, ?_⟩
          intro h
          obtain ⟨pE', a', m', hfind, hm', h⟩ := h
          cases hfind
          rw [hm] at hm'
          cases hm'
          exact h
    · rw [if_pos hr]
      have hne : r ≠ IOS_ERROR_INVALID := by
        rcases bspFindAttribute_ret hf with h | h | h | h | h <;> rw [h] <;> decide
      refine ⟨?_, ?_⟩
      · intro h
        cases h
        exact absurd rfl hne
      · intro h
        obtain ⟨pE', a', m', hfind, -, -⟩ := h
        cases hfind
        exact absurd rfl hr

theorem caseShutdown_ok {args : IoctlArgs} {s s' : Ioctl ε} :
    (caseShutdown es args s).res = .ok s' ↔ ∃ ret p,
      (bspMethodShutdown es (args.entityName s.mem) (args.inst s.mem) (args.attributeName s.mem) args.permissions
        s.process).res = .ok (ret, p) ∧ s' = { s with result := ret, process := p } := by
  unfold caseShutdown
  refine ⟨?_, ?_⟩
  · intro h
    obtain ⟨⟨ret, p⟩, h1, h2⟩ := Run.bind_res_ok.mp h
    rw [start_res] at h1
    cases h2
    exact ⟨ret, p, h1, rfl⟩
  · intro h
    obtain ⟨ret, p, h1, rfl⟩ := h
    exact Run.bind_res_ok.mpr ⟨(ret, p), by rw [start_res]; exact h1, rfl⟩

/-- What the switch runs behind Shutdown. -/
def behindShutdown (args : IoctlArgs) (s : Ioctl ε) : Turn ε (Ioctl ε) := caseGetConsoleType args s >>= caseDefault

section Behind

variable {args : IoctlArgs} {s s' : Ioctl ε}

theorem behindShutdown_starts (hs : args.size s.mem = 4) :
    Event.handler .getConsoleType none ∈ (behindShutdown args s).trace := by
  refine Run.mem_bind_trace.mpr (Or.inl ?_)
  unfold caseGetConsoleType
  rw [sizedCase_accept hs]
  exact Run.mem_bind_trace.mpr (Or.inl (start_mem _ _ _))

/-- The default has the last word. -/
theorem behindShutdown_result (h : (behindShutdown args s).res = .ok s') : s'.result = IOS_ERROR_INVALID := by
  obtain ⟨s1, -, hd⟩ := Run.bind_res_ok.mp h
  cases hd
  rfl

theorem behindShutdown_quiet (hs : args.size s.mem ≠ 4) (hr : s.result = IOS_ERROR_INVALID) :
    behindShutdown args s = pure s := by
  unfold behindShutdown caseGetConsoleType
  rw [sizedCase_reject hs, Run.pure_bind]
  unfold caseDefault
  rw [← hr]

end Behind

/-! ## Served alone -/

section Alone

variable [DataMem (Process ε)] (fuel : Nat) (x : Ext ε) (es : List (BspEntity (Process ε))) (srv : Server ε)
  (msg : IOSMessage) (mem : Mem) (fd : Fin 0x20)

/-- The turn comes to its end, having run the case of the command and nothing else,
    and hands out what that case answered. -/
def ServedAlone : Prop :=
  ∃ s, (ownCase fuel x es (srv.args msg fd) (bswap32 msg.arg0) (srv.ioctl mem)).res = .ok s ∧
    mainIter fuel x es srv msg mem =
      ⟨.dispatch fd (bswap32 msg.arg0) :: ((ownCase fuel x es (srv.args msg fd) (bswap32 msg.arg0) (srv.ioctl mem)).trace ++
          [.reply s.result]),
        .ok ({ srv with result := s.result, process := s.process }, s.mem)⟩

/-- The lookup of a Shutdown finds an attribute whose shutdownMethod returns
    IOS_ERROR_INVALID. -/
def ShutdownAnswersInvalid : Prop :=
  ∃ pE a m p, bspFindAttribute es ((srv.args msg fd).entityName mem) ((srv.args msg fd).inst mem)
      ((srv.args msg fd).attributeName mem) (srv.args msg fd).permissions BSP_IOCTL_METHOD_SHUTDOWN =
        .ok (BSP_RVAL_OK, pE, some a) ∧
    a.shutdownMethod = some m ∧
    m ((srv.args msg fd).inst mem) a.toAttributeData srv.process = .ok (IOS_ERROR_INVALID, p)

variable {fuel x es srv msg mem fd}

theorem turn_of_switch (hc : bswap32 msg.command = IOS_IOCTL)
    (hs : activeSlot srv.bsp_fdtable msg.fd = .ok (some fd)) {s : Ioctl ε}
    (hsw : (switch (bswap32 msg.arg0) (ioctlCases fuel x es (srv.args msg fd)) caseDefault (srv.ioctl mem)).res = .ok s) :
    mainIter fuel x es srv msg mem =
      ⟨.dispatch fd (bswap32 msg.arg0) ::
          ((switch (bswap32 msg.arg0) (ioctlCases fuel x es (srv.args msg fd)) caseDefault (srv.ioctl mem)).trace ++
            [.reply s.result]),
        .ok ({ srv with result := s.result, process := s.process }, s.mem)⟩ := by
  rw [mainIter_ioctl hc hs]
  ext1
  · rw [Run.emit_bind_trace, Run.bind_trace_ok hsw, reply_trace]
  · rw [Run.emit_bind_res, Run.bind_ok _ hsw]
    exact reply_res _ _

/-- A turn that ends has ended its switch. -/
theorem switch_of_turn (hc : bswap32 msg.command = IOS_IOCTL)
    (hs : activeSlot srv.bsp_fdtable msg.fd = .ok (some fd)) {y : Server ε × Mem}
    (h : (mainIter fuel x es srv msg mem).res = .ok y) :
    ∃ s, (switch (bswap32 msg.arg0) (ioctlCases fuel x es (srv.args msg fd)) caseDefault (srv.ioctl mem)).res = .ok s := by
  rw [mainIter_ioctl hc hs, Run.emit_bind_res] at h
  obtain ⟨s, hsw, -⟩ := Run.bind_res_ok.mp h
  exact ⟨s, hsw⟩

theorem servedAlone_iff_switch (hc : bswap32 msg.command = IOS_IOCTL)
    (hs : activeSlot srv.bsp_fdtable msg.fd = .ok (some fd)) :
    ServedAlone fuel x es srv msg mem fd ↔
      ∃ s, (ownCase fuel x es (srv.args msg fd) (bswap32 msg.arg0) (srv.ioctl mem)).res = .ok s ∧
        switch (bswap32 msg.arg0) (ioctlCases fuel x es (srv.args msg fd)) caseDefault (srv.ioctl mem) =
          ownCase fuel x es (srv.args msg fd) (bswap32 msg.arg0) (srv.ioctl mem) := by
  refine ⟨?_, ?_⟩
  · intro h
    obtain ⟨s, hown, hturn⟩ := h
    obtain ⟨s', hsw⟩ := switch_of_turn hc hs (congrArg Run.res hturn)
    have hturn' := turn_of_switch hc hs hsw
    rw [hturn', Run.mk.injEq, Res.ok.injEq, Prod.mk.injEq, Server.mk.injEq, List.cons.injEq] at hturn
    obtain ⟨⟨-, htrace⟩, ⟨-, hresult, hprocess⟩, hmem⟩ := hturn
    have hss : s' = s := by
      cases s'; cases s
      simp_all
    subst hss
    refine ⟨s', hown, ?_⟩
    ext1
    · exact List.append_cancel_right htrace
    · rw [hsw, hown]
  · intro h
    obtain ⟨s, hown, heq⟩ := h
    refine ⟨s, hown, ?_⟩
    have hsw := hown
    rw [← heq] at hsw
    rw [turn_of_switch hc hs hsw, heq]

/-! ## Command by command -/

/-- The first seven commands run Shutdown as well. -/
theorem not_servedAlone_above (hc : bswap32 msg.command = IOS_IOCTL)
    (hs : activeSlot srv.bsp_fdtable msg.fd = .ok (some fd)) {h : Handler}
    (hcmd : handlerOf (bswap32 msg.arg0) = some h) (h8 : bswap32 msg.arg0 ≠ BSP_IOCTL_METHOD_SHUTDOWN)
    (h9 : bswap32 msg.arg0 ≠ BSP_IOCTL_GET_CONSOLE_TYPE) : ¬ ServedAlone fuel x es srv msg mem fd := by
  intro halone
  obtain ⟨s, hown, heq⟩ := (servedAlone_iff_switch hc hs).mp halone
  obtain ⟨before, hbefore, hswitch⟩ := switch_through_shutdown fuel x es (srv.args msg fd) hcmd h8 h9
  have hfall : ∀ b ∈ before, b.breaks = false := fun b hb => ioctlCases_fall fuel x es (srv.args msg fd) (hbefore b hb)
  have hres : (runFrom caseDefault (before ++ shutdownCase es (srv.args msg fd) :: [consoleTypeCase (srv.args msg fd)])
      (srv.ioctl mem)).res = .ok s := by
    rw [← hswitch, heq]
    exact hown
  obtain ⟨pre, s1, s2, -, -, htrace⟩ := runFrom_split caseDefault before _ _ hfall rfl _ _ hres
  -- the event that says so is in the trace of the switch, which is the case's own
  have hmem : Event.handler .shutdown (some (srv.args msg fd).permissions) ∈
      (ownCase fuel x es (srv.args msg fd) (bswap32 msg.arg0) (srv.ioctl mem)).trace := by
    rw [← heq, hswitch, htrace]
    refine List.mem_append_left _ (List.mem_append_right _ ?_)
    exact Run.mem_bind_trace.mpr (Or.inl (start_mem _ _ _))
  obtain ⟨cr, -, hruns⟩ := ownCase_runs fuel x es (srv.args msg fd) hcmd (srv.ioctl mem)
  rcases hruns _ hmem with he | ⟨c, he⟩
  · rw [Event.handler.injEq] at he
    rw [← he.1] at hcmd
    rcases command_cases hcmd with h | h | h | h | h | h | h | h | h <;> rw [h] at hcmd <;>
      first
      | exact h8 h
      | exact absurd hcmd (by decide)
  · cases he

/-- GET_CONSOLE_TYPE is answered with IOS_ERROR_INVALID, which its case never is. -/
theorem not_servedAlone_consoleType (hc : bswap32 msg.command = IOS_IOCTL)
    (hs : activeSlot srv.bsp_fdtable msg.fd = .ok (some fd)) (h9 : bswap32 msg.arg0 = BSP_IOCTL_GET_CONSOLE_TYPE) :
    ¬ ServedAlone fuel x es srv msg mem fd := by
  intro halone
  obtain ⟨s, hown, heq⟩ := (servedAlone_iff_switch hc hs).mp halone
  rw [h9] at hown heq
  have hcase : (caseGetConsoleType (srv.args msg fd) (srv.ioctl mem)).res = .ok s := hown
  have hinvalid : s.result = IOS_ERROR_INVALID := behindShutdown_result ((congrArg Run.res heq).trans hown)
  have hanswer : s.result = BSP_RVAL_SPECIFIED_SIZE_INVALID ∨ s.result = BSP_RVAL_BOARD_CONFIG_INVALID ∨
      s.result = BSP_RVAL_OK := by
    unfold caseGetConsoleType sizedCase at hcase
    split at hcase
    · cases hcase
      exact Or.inl rfl
    · obtain ⟨p, hp, hcase⟩ := Run.bind_res_ok.mp hcase
      rw [start_res] at hp
      cases hp
      cases hcase
      exact Or.inr (bspGetConsoleType_ret _)
  rw [hinvalid] at hanswer
  rcases hanswer with h | h | h
  · exact absurd h (by decide)
  · exact absurd h (by decide)
  · exact absurd h (by decide)

/-- A Shutdown is served alone when the console query behind it rejects the size and
    the answer was IOS_ERROR_INVALID anyway. -/
theorem servedAlone_shutdown_iff (hc : bswap32 msg.command = IOS_IOCTL)
    (hs : activeSlot srv.bsp_fdtable msg.fd = .ok (some fd)) (h8 : bswap32 msg.arg0 = BSP_IOCTL_METHOD_SHUTDOWN) :
    ServedAlone fuel x es srv msg mem fd ↔
      (srv.args msg fd).size mem ≠ 4 ∧ ShutdownAnswersInvalid es srv msg mem fd := by
  rw [servedAlone_iff_switch hc hs, h8]
  have hown : ownCase fuel x es (srv.args msg fd) BSP_IOCTL_METHOD_SHUTDOWN (srv.ioctl mem) =
      caseShutdown es (srv.args msg fd) (srv.ioctl mem) := rfl
  have hswitch : switch BSP_IOCTL_METHOD_SHUTDOWN (ioctlCases fuel x es (srv.args msg fd)) caseDefault (srv.ioctl mem) =
      (caseShutdown es (srv.args msg fd) (srv.ioctl mem) >>= behindShutdown (srv.args msg fd)) := rfl
  rw [hown, hswitch]
  refine ⟨?_, ?_⟩
  · intro h
    obtain ⟨s, hs', heq⟩ := h
    obtain ⟨ret, p, hret, hs1⟩ := caseShutdown_ok.mp hs'
    have hmem : s.mem = mem := by rw [hs1]; rfl
    have hresult : s.result = ret := by rw [hs1]
    rw [Run.bind_ok _ hs'] at heq
    have htrace : (behindShutdown (srv.args msg fd) s).trace = [] :=
      List.append_right_eq_self.mp (congrArg Run.trace heq)
    have hres : (behindShutdown (srv.args msg fd) s).res = .ok s := (congrArg Run.res heq).trans hs'
    refine ⟨?_, ?_⟩
    · intro h4
      rw [← hmem] at h4
      have hstart := behindShutdown_starts h4
      rw [htrace] at hstart
      cases hstart
    · have hinvalid := behindShutdown_result hres
      rw [hresult] at hinvalid
      rw [hinvalid] at hret
      obtain ⟨pE, a, m, hfind, hm, hcall⟩ := (bspMethodShutdown_invalid _ _ _ _ _ _ _).mp hret
      exact ⟨pE, a, m, p, hfind, hm, hcall⟩
  · intro h
    obtain ⟨hsize, pE, a, m, p, hfind, hm, hcall⟩ := h
    have hret := (bspMethodShutdown_invalid es _ _ _ _ srv.process p).mpr ⟨pE, a, m, hfind, hm, hcall⟩
    obtain ⟨s, hs1, hs'⟩ : ∃ s, s = { srv.ioctl mem with result := IOS_ERROR_INVALID, process := p } ∧
        (caseShutdown es (srv.args msg fd) (srv.ioctl mem)).res = .ok s :=
      ⟨_, rfl, caseShutdown_ok.mpr ⟨_, p, hret, rfl⟩⟩
    have hmem : s.mem = mem := by rw [hs1]; rfl
    have hresult : s.result = IOS_ERROR_INVALID := by rw [hs1]
    rw [← hmem] at hsize
    refine ⟨s, hs', ?_⟩
    rw [Run.bind_ok _ hs', behindShutdown_quiet hsize hresult]
    ext1
    · exact List.append_nil _
    · exact hs'.symm

/-- For every IOCTL of an active session with one of the nine commands: it is served
    alone exactly when it is a Shutdown, with a declared size other than 4, of an
    attribute whose method returns IOS_ERROR_INVALID. -/
theorem servedAlone_iff (hc : bswap32 msg.command = IOS_IOCTL) (hfd : msg.fd = (fd.val : Int))
    (hactive : (srv.bsp_fdtable.get fd).active = true) {h : Handler} (hcmd : handlerOf (bswap32 msg.arg0) = some h) :
    (∃ fuel, ServedAlone fuel x es srv msg mem fd) ↔
      bswap32 msg.arg0 = BSP_IOCTL_METHOD_SHUTDOWN ∧ (srv.args msg fd).size mem ≠ 4 ∧
        ShutdownAnswersInvalid es srv msg mem fd := by
  have hs : activeSlot srv.bsp_fdtable msg.fd = .ok (some fd) := activeSlot_active hfd hactive
  refine ⟨?_, ?_⟩
  · intro halone
    obtain ⟨fuel, halone⟩ := halone
    by_cases h8 : bswap32 msg.arg0 = BSP_IOCTL_METHOD_SHUTDOWN
    · exact ⟨h8, (servedAlone_shutdown_iff hc hs h8).mp halone⟩
    · by_cases h9 : bswap32 msg.arg0 = BSP_IOCTL_GET_CONSOLE_TYPE
      · exact absurd halone (not_servedAlone_consoleType hc hs h9)
      · exact absurd halone (not_servedAlone_above hc hs hcmd h8 h9)
  · intro hcond
    exact ⟨0, (servedAlone_shutdown_iff hc hs hcond.1).mpr hcond.2⟩

end Alone

/-! ## Two requests -/

section Requests

/-- GET_CONSOLE_TYPE on session 0. -/
def consoleTypeMsg : IOSMessage where
  command := bswap32 IOS_IOCTL
  clientFD := 0
  arg0 := bswap32 BSP_IOCTL_GET_CONSOLE_TYPE
  arg1 := 0
  arg2 := bswap32 0x48
  arg3 := bswap32 0x100
  arg4 := bswap32 4

/-- It is answered with IOS_ERROR_INVALID; its own case answers that there is no board
    configuration. -/
theorem consoleTypeMsg_not_servedAlone :
    (¬ ∃ fuel, ServedAlone fuel idleExt [] (oneSession BSP_PERMISSIONS_ALL) consoleTypeMsg (sizeMem 4) 0) ∧
      (ownCase 0 idleExt [] ((oneSession BSP_PERMISSIONS_ALL).args consoleTypeMsg 0) BSP_IOCTL_GET_CONSOLE_TYPE
        ((oneSession BSP_PERMISSIONS_ALL).ioctl (sizeMem 4))).res.map Ioctl.result = .ok BSP_RVAL_BOARD_CONFIG_INVALID ∧
      (mainIter 0 idleExt [] (oneSession BSP_PERMISSIONS_ALL) consoleTypeMsg (sizeMem 4)).res.map (·.1.result) =
        .ok IOS_ERROR_INVALID := by
  refine ⟨?_, rfl, rfl⟩
  intro h
  obtain ⟨fuel, h⟩ := h
  exact not_servedAlone_consoleType rfl rfl rfl h

/-- Its method answers IOS_ERROR_INVALID. -/
def refusingAttribute : BspAttribute (Process Unit) where
  pName := some (cstr "A")
  shutdownMethod := some fun _ _ p => .ok (IOS_ERROR_INVALID, p)

def refusingEntity : BspEntity (Process Unit) where
  pName := cstr "E"
  version := 1
  instanceCount := 1
  options := BSP_EO_NONE
  pAttributes := [[refusingAttribute, { pName := none }]]

def shutdownMsg : IOSMessage := { consoleTypeMsg with arg0 := bswap32 BSP_IOCTL_METHOD_SHUTDOWN }

/-- The request names attribute "A" of entity "E". -/
def shutdownMem : Mem := fun a => if a = 0 then 0x45 else if a = 0x24 then 0x41 else 0

theorem servedAlone_iff_shutdownMsg :
    ∃ fuel, ServedAlone fuel idleExt [refusingEntity] (oneSession BSP_PERMISSIONS_INTERNAL) shutdownMsg shutdownMem 0 := by
  refine (servedAlone_iff rfl rfl rfl (h := .shutdown) rfl).mpr ⟨rfl, by decide, ?_⟩
  exact ⟨some refusingEntity, refusingAttribute, _, freshProcess, rfl, rfl, rfl⟩

end Requests

end Iosu.Bsp
