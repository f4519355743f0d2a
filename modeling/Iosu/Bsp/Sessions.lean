/-
  Iosu.Bsp.Sessions — sessions, over any run of the message loop.

  A session is an fd between the OPEN that took its slot and its CLOSE. `serve` runs the
  loop over messages from any clients; what it does carries the message it was done for,
  so that the history of the slots (`touches`) names the OPENs. `session_inv`: the fd
  table is that history, replayed. So a session is the last OPEN that took its slot
  (`session_iff`), and an IOCTL is dispatched with the permissions of that OPEN
  (`session_isolation`).
-/

import Iosu.Bsp.Dispatch
import Iosu.Lib.Slots
import Mathlib.Data.Fin.Tuple.Basic

namespace Iosu.Bsp

open Iosu.Lib Iosu.Lib.Switch Iosu.Lib.Slots Iosu.Libc Iosu.Entity Iosu.Ios

variable {ε : Type}

/-! ## Runs -/

/-- A message on its arrival: what it says, and the client's memory. -/
structure Arrival where
  msg : IOSMessage
  mem : Mem

/-- An event, with the message of its turn. -/
abbrev Logged (ε : Type) := IOSMessage × Event (Process ε)

section Serve

variable [DataMem (Process ε)] (fuel : Nat) (x : Ext ε) (es : List (BspEntity (Process ε)))

def turn (srv : Server ε) (i : Arrival) : Run (Logged ε) Fault (Server ε) := do
  let (srv, _) ← (mainIter fuel x es srv i.msg i.mem).mapTrace fun e => (i.msg, e)
  return srv

/-- The loop, over the messages in the order of their arrival. -/
def serve (srv : Server ε) (arrivals : List Arrival) : Run (Logged ε) Fault (Server ε) :=
  Run.iter (turn fuel x es) srv arrivals

end Serve

/-- What an event does to the slots. -/
def touch : Logged ε → Option (Touch (Fin 0x20) IOSMessage)
  | (msg, .opened fd _) => some (.opened fd msg)
  | (_, .closed fd) => some (.closed fd)
  | _ => none

def touches (t : List (Logged ε)) : List (Touch (Fin 0x20) IOSMessage) := t.filterMap touch

/-! ## One turn -/

theorem freeSlot_eq_some_iff {t : FdTable} {fd : Fin 0x20} :
    freeSlot t = some fd ↔ (t.get fd).active = false ∧ ∀ g < fd, (t.get g).active = true := by
  unfold freeSlot
  rw [Fin.find?_eq_some_iff]
  simp

theorem set_get_self (t : FdTable) (fd : Fin 0x20) (v : FdT) : (t.set fd v fd.isLt).get fd = v :=
  Vector.getElem_set_self fd.isLt

theorem set_get_ne (t : FdTable) {fd g : Fin 0x20} (v : FdT) (hg : g ≠ fd) : (t.set fd v fd.isLt).get g = t.get g :=
  Vector.getElem_set_ne fd.isLt g.isLt fun h => hg (Fin.ext h.symm)

section Turn

variable [DataMem (Process ε)] {fuel : Nat} {x : Ext ε} {es : List (BspEntity (Process ε))} {srv srv' : Server ε}
  {msg : IOSMessage} {mem mem' : Mem}

/-- Whatever the switch does, it is a handler with the credentials of the IOCTL or with
    none, or what a handler calls. -/
theorem switch_events {cmd : U32} {args : IoctlArgs} {s : Ioctl ε} {e : Event (Process ε)}
    (he : e ∈ (switch cmd (ioctlCases fuel x es args) caseDefault s).trace) :
    (∃ h cr, e = .handler h cr ∧ (cr = none ∨ cr = some args.permissions)) ∨ ∃ c, e = .call c := by
  rcases mem_switch_trace he with ⟨c, hc, s', hbody⟩ | ⟨s', hdflt⟩
  · obtain ⟨h, cr, -, hcr, hruns⟩ := ioctlCases_runs fuel x es args hc
    rcases hruns s' e hbody with rfl | hcall
    · exact Or.inl ⟨h, cr, rfl, hcr⟩
    · exact Or.inr hcall
  · cases hdflt

/-- Everything a turn that ends can have done to the table. -/
theorem mainIter_table (h : (mainIter fuel x es srv msg mem).res = .ok (srv', mem')) :
    (srv'.bsp_fdtable = srv.bsp_fdtable ∧ touches ((mainIter fuel x es srv msg mem).trace.map fun e => (msg, e)) = []) ∨
    (∃ fd : Fin 0x20, bswap32 msg.command = IOS_CLOSE ∧ msg.fd = (fd.val : Int) ∧
      srv'.bsp_fdtable = srv.bsp_fdtable.set fd ⟨false, 0⟩ fd.isLt ∧
      touches ((mainIter fuel x es srv msg mem).trace.map fun e => (msg, e)) = [.closed fd]) ∨
    (∃ fd : Fin 0x20, bswap32 msg.command = IOS_OPEN ∧ freeSlot srv.bsp_fdtable = some fd ∧
      srv'.bsp_fdtable = srv.bsp_fdtable.set fd ⟨true, bswap32 msg.arg4⟩ fd.isLt ∧
      touches ((mainIter fuel x es srv msg mem).trace.map fun e => (msg, e)) = [.opened fd msg]) := by
  rcases mainIter_cases fuel x es srv msg mem with
    ⟨-, he⟩ | ⟨r, he⟩ | ⟨fd, hc, hfd, he⟩ | ⟨fd, hc, hfd, ha, -⟩ | ⟨fd, hc, hfree, he⟩
  · rw [he] at h
    cases h
  · rw [he] at h ⊢
    cases h
    exact Or.inl ⟨rfl, rfl⟩
  · rw [he] at h ⊢
    cases h
    exact Or.inr (Or.inl ⟨fd, hc, hfd, rfl, rfl⟩)
  · have hs : activeSlot srv.bsp_fdtable msg.fd = .ok (some fd) := activeSlot_active hfd ha
    obtain ⟨s, hsw⟩ := switch_of_turn hc hs h
    rw [turn_of_switch hc hs hsw] at h ⊢
    cases h
    refine Or.inl ⟨rfl, ?_⟩
    unfold touches
    rw [List.filterMap_eq_nil_iff]
    intro e he
    obtain ⟨e', he', rfl⟩ := List.mem_map.mp he
    rcases List.mem_cons.mp he' with rfl | he'
    · rfl
    rcases List.mem_append.mp he' with he' | he'
    · rcases switch_events he' with ⟨h, cr, rfl, -⟩ | ⟨c, rfl⟩
      · rfl
      · rfl
    · rw [List.mem_singleton.mp he']
      rfl
  · rw [he] at h ⊢
    cases h
    exact Or.inr (Or.inr ⟨fd, hc, hfree, rfl, rfl⟩)

/-- Only the CLOSE of an fd and the OPEN that takes it change its slot. -/
theorem slot_frame (h : (mainIter fuel x es srv msg mem).res = .ok (srv', mem')) (fd : Fin 0x20)
    (hclose : ¬ (bswap32 msg.command = IOS_CLOSE ∧ msg.fd = (fd.val : Int)))
    (hopen : ¬ (bswap32 msg.command = IOS_OPEN ∧ freeSlot srv.bsp_fdtable = some fd)) :
    srv'.bsp_fdtable.get fd = srv.bsp_fdtable.get fd := by
  rcases mainIter_table h with ⟨ht, -⟩ | ⟨g, hc, hg, ht, -⟩ | ⟨g, hc, hg, ht, -⟩
  · rw [ht]
  · have hne : fd ≠ g := by
      intro heq
      subst heq
      exact hclose ⟨hc, hg⟩
    rw [ht, set_get_ne _ _ hne]
  · have hne : fd ≠ g := by
      intro heq
      subst heq
      exact hopen ⟨hc, hg⟩
    rw [ht, set_get_ne _ _ hne]

/-- An IOCTL is dispatched on its own fd, when that is active. -/
theorem dispatched_iff (hc : bswap32 msg.command = IOS_IOCTL) {fd : Fin 0x20} (hfd : msg.fd = (fd.val : Int)) :
    (∃ cmd, .dispatch fd cmd ∈ (mainIter fuel x es srv msg mem).trace) ↔ (srv.bsp_fdtable.get fd).active = true := by
  refine ⟨?_, ?_⟩
  · intro h
    obtain ⟨cmd, hmem⟩ := h
    cases ha : (srv.bsp_fdtable.get fd).active with
    | true => rfl
    | false =>
      rw [mainIter_noSession (Or.inr hc) (activeSlot_inactive hfd ha), reply_trace] at hmem
      cases List.mem_singleton.mp hmem
  · intro ha
    rw [mainIter_ioctl hc (activeSlot_active hfd ha)]
    refine ⟨bswap32 msg.arg0, ?_⟩
    rw [Run.emit_bind_trace]
    exact List.mem_cons_self

/-- A handler that takes credentials is given those of the active slot its IOCTL names. -/
theorem handler_credentials {h : Handler} {c : U32}
    (hmem : .handler h (some c) ∈ (mainIter fuel x es srv msg mem).trace) :
    ∃ fd : Fin 0x20, msg.fd = (fd.val : Int) ∧ (srv.bsp_fdtable.get fd).active = true ∧
      (srv.bsp_fdtable.get fd).permissions = c := by
  rcases mainIter_cases fuel x es srv msg mem with
    ⟨-, he⟩ | ⟨r, he⟩ | ⟨fd, -, -, he⟩ | ⟨fd, -, hfd, ha, he⟩ | ⟨fd, -, -, he⟩
  · rw [he] at hmem
    cases hmem
  · simp [he] at hmem
  · simp [he] at hmem
  · refine ⟨fd, hfd, ha, ?_⟩
    rw [he, Run.emit_bind_trace] at hmem
    rcases List.mem_cons.mp hmem with hmem | hmem
    · cases hmem
    rcases Run.mem_bind_trace.mp hmem with hmem | ⟨s, -, hmem⟩
    · rcases switch_events hmem with ⟨h', cr, he, hcr⟩ | ⟨call, he⟩
      · cases he
        rcases hcr with hcr | hcr
        · cases hcr
        · cases hcr
          rfl
      · cases he
    · rw [reply_trace] at hmem
      cases List.mem_singleton.mp hmem
  · simp [he] at hmem

end Turn

/-! ## Every run -/

/-- The slot that goes with a holder. -/
def slotOf : Option IOSMessage → FdT
  | some msg => ⟨true, bswap32 msg.arg4⟩
  | none => ⟨false, 0⟩

/-- The table is the history, replayed, and only OPENs hold a slot. -/
structure Follows (t : List (Logged ε)) (srv : Server ε) : Prop where
  slots : ∀ fd : Fin 0x20, srv.bsp_fdtable.get fd = slotOf (holders (touches t) fd)
  opens : ∀ fd msg, holders (touches t) fd = some msg → bswap32 msg.command = IOS_OPEN

theorem follows_boot (result : U32) (process : Process ε) : Follows [] (Server.boot result process) where
  slots := by
    intro fd
    show (Vector.replicate 0x20 _).get fd = _
    exact Vector.getElem_replicate fd.isLt
  opens := by
    intro fd msg h
    cases h

theorem Follows.touched {t t' : List (Logged ε)} {srv srv' : Server ε} (hf : Follows t srv)
    {u : Touch (Fin 0x20) IOSMessage} (ht : touches t' = [u]) (hu : ∀ msg, u.holder = some msg → bswap32 msg.command = IOS_OPEN)
    (htable : srv'.bsp_fdtable = srv.bsp_fdtable.set u.slot (slotOf u.holder) u.slot.isLt) : Follows (t ++ t') srv' := by
  have hsnoc : touches (t ++ t') = touches t ++ [u] := by
    rw [← ht]
    exact List.filterMap_append
  refine ⟨?_, ?_⟩
  · intro fd
    rw [hsnoc, holders_snoc, htable]
    by_cases hfd : u.slot = fd
    · subst hfd
      rw [set_get_self, apply_slot]
    · rw [set_get_ne _ _ (Ne.symm hfd), apply_ne _ hfd]
      exact hf.slots fd
  · intro fd msg h
    rw [hsnoc, holders_snoc] at h
    by_cases hfd : u.slot = fd
    · subst hfd
      rw [apply_slot] at h
      exact hu msg h
    · rw [apply_ne _ hfd] at h
      exact hf.opens fd msg h

section Runs

variable [DataMem (Process ε)] {fuel : Nat} {x : Ext ε} {es : List (BspEntity (Process ε))}

theorem turn_res {srv srv' : Server ε} {i : Arrival} (h : (turn fuel x es srv i).res = .ok srv') :
    ∃ mem', (mainIter fuel x es srv i.msg i.mem).res = .ok (srv', mem') ∧
      (turn fuel x es srv i).trace = (mainIter fuel x es srv i.msg i.mem).trace.map fun e => (i.msg, e) := by
  unfold turn at h ⊢
  obtain ⟨⟨srv₁, mem'⟩, h1, h2⟩ := Run.bind_res_ok.mp h
  cases h2
  refine ⟨mem', h1, ?_⟩
  rw [Run.bind_trace_ok h1]
  exact List.append_nil _

/-- What a turn keeps. -/
theorem turn_follows {t : List (Logged ε)} {srv srv' : Server ε} {i : Arrival} (hf : Follows t srv)
    (h : (turn fuel x es srv i).res = .ok srv') : Follows (t ++ (turn fuel x es srv i).trace) srv' := by
  obtain ⟨mem', hmain, htrace⟩ := turn_res h
  rw [htrace]
  rcases mainIter_table hmain with ⟨htable, ht⟩ | ⟨fd, -, -, htable, ht⟩ | ⟨fd, hopen, -, htable, ht⟩
  · have hnone : touches (t ++ (mainIter fuel x es srv i.msg i.mem).trace.map fun e => (i.msg, e)) = touches t := by
      unfold touches at ht ⊢
      rw [List.filterMap_append, ht, List.append_nil]
    refine ⟨?_, ?_⟩
    · rw [hnone, htable]
      exact hf.slots
    · rw [hnone]
      exact hf.opens
  · exact hf.touched ht (by simp [Touch.holder]) htable
  · refine hf.touched ht ?_ htable
    intro msg hmsg
    cases hmsg
    exact hopen

/-- What every run keeps. -/
theorem session_inv {result : U32} {process : Process ε} {arrivals : List Arrival} {srv : Server ε}
    (h : (serve fuel x es (Server.boot result process) arrivals).res = .ok srv) :
    Follows (serve fuel x es (Server.boot result process) arrivals).trace srv :=
  Run.iter_inv Follows (fun _ _ _ _ hf hstep => turn_follows hf hstep) arrivals [] _ srv (follows_boot result process) h

end Runs

/-- The OPEN `m` took `fd`, and no OPEN took it and no CLOSE freed it since. -/
def OpenedBy (fd : Fin 0x20) (m : IOSMessage) (t : List (Logged ε)) : Prop := LastOpened fd m (touches t)

theorem Follows.session_iff {t : List (Logged ε)} {srv : Server ε} (hf : Follows t srv) (fd : Fin 0x20) :
    (srv.bsp_fdtable.get fd).active = true ↔ ∃ m, OpenedBy fd m t := by
  rw [hf.slots]
  refine ⟨?_, ?_⟩
  · intro ha
    cases hh : holders (touches t) fd with
    | none =>
      rw [hh] at ha
      cases ha
    | some m => exact ⟨m, (holders_eq_some_iff fd m _).mp hh⟩
  · intro h
    obtain ⟨m, hm⟩ := h
    rw [(holders_eq_some_iff fd m _).mpr hm]
    rfl

theorem Follows.permissions {t : List (Logged ε)} {srv : Server ε} (hf : Follows t srv) {fd : Fin 0x20}
    {m : IOSMessage} (hm : OpenedBy fd m t) :
    bswap32 m.command = IOS_OPEN ∧ (srv.bsp_fdtable.get fd).permissions = bswap32 m.arg4 := by
  have hh := (holders_eq_some_iff fd m _).mpr hm
  refine ⟨hf.opens fd m hh, ?_⟩
  rw [hf.slots, hh]
  rfl

section Isolation

variable [DataMem (Process ε)]

/-- In every run of the loop, at every message that comes next:
    an IOCTL on `fd` is dispatched exactly when the last touch of `fd` was an OPEN;
    the credentials that any handler is given are the permissions of that OPEN;
    an OPEN takes the lowest slot that is free;
    a CLOSE of a session frees its slot, and is on record as having done so;
    and a slot changes only by its own CLOSE or by the OPEN that takes it. -/
theorem session_isolation (fuel : Nat) (x : Ext ε) (es : List (BspEntity (Process ε))) (result : U32)
    (process : Process ε) (arrivals : List Arrival) {t : List (Logged ε)} {srv : Server ε}
    (hrun : serve fuel x es (Server.boot result process) arrivals = ⟨t, .ok srv⟩) (msg : IOSMessage) (mem : Mem) :
    (∀ fd : Fin 0x20, bswap32 msg.command = IOS_IOCTL → msg.fd = (fd.val : Int) →
      ((∃ cmd, .dispatch fd cmd ∈ (mainIter fuel x es srv msg mem).trace) ↔ ∃ m, OpenedBy fd m t)) ∧
    (∀ h c, .handler h (some c) ∈ (mainIter fuel x es srv msg mem).trace → ∃ (fd : Fin 0x20) (m : IOSMessage),
      msg.fd = (fd.val : Int) ∧ OpenedBy fd m t ∧ bswap32 m.command = IOS_OPEN ∧ c = bswap32 m.arg4) ∧
    (∀ fd : Fin 0x20, bswap32 msg.command = IOS_OPEN → (srv.bsp_fdtable.get fd).active = false →
      (∀ g < fd, srv.bsp_fdtable[g].active = true) →
      mainIter fuel x es srv msg mem = ⟨[.opened fd (bswap32 msg.arg4), .reply srv.result],
        .ok ({ srv with bsp_fdtable := srv.bsp_fdtable.set fd ⟨true, bswap32 msg.arg4⟩ fd.isLt }, mem)⟩) ∧
    (∀ fd : Fin 0x20, bswap32 msg.command = IOS_CLOSE → msg.fd = (fd.val : Int) →
      (srv.bsp_fdtable.get fd).active = true →
      mainIter fuel x es srv msg mem = ⟨[.closed fd, .reply srv.result],
        .ok ({ srv with bsp_fdtable := srv.bsp_fdtable.set fd ⟨false, 0⟩ fd.isLt }, mem)⟩) ∧
    (∀ srv' mem', (mainIter fuel x es srv msg mem).res = .ok (srv', mem') → ∀ fd : Fin 0x20,
      ¬ (bswap32 msg.command = IOS_CLOSE ∧ msg.fd = (fd.val : Int)) →
      ¬ (bswap32 msg.command = IOS_OPEN ∧ freeSlot srv.bsp_fdtable = some fd) →
      srv'.bsp_fdtable.get fd = srv.bsp_fdtable.get fd) := by
  have hf : Follows t srv := by
    have := session_inv (congrArg Run.res hrun)
    rw [hrun] at this
    exact this
  refine ⟨?_, ?_, ?_, ?_, ?_⟩
  · intro fd hc hfd
    rw [dispatched_iff hc hfd]
    exact hf.session_iff fd
  · intro h c hmem
    obtain ⟨fd, hfd, ha, hc⟩ := handler_credentials hmem
    obtain ⟨m, hm⟩ := (hf.session_iff fd).mp ha
    obtain ⟨hopen, hp⟩ := hf.permissions hm
    exact ⟨fd, m, hfd, hm, hopen, by rw [← hc, hp]⟩
  · intro fd hc hfree hbelow
    rw [mainIter_open hc (freeSlot_eq_some_iff.mpr ⟨hfree, hbelow⟩)]
    ext1
    · rw [Run.emit_bind_trace, reply_trace]
    · rw [Run.emit_bind_res, reply_res]
  · intro fd hc hfd ha
    rw [mainIter_close hc (activeSlot_active hfd ha)]
    ext1
    · rw [Run.emit_bind_trace, reply_trace]
    · rw [Run.emit_bind_res, reply_res]
  · intro srv' mem' hres fd hclose hopen
    exact slot_frame hres fd hclose hopen

end Isolation

section Rest

/-- An OPEN with read permissions. -/
def openMsg : IOSMessage where
  command := bswap32 IOS_OPEN
  clientFD := 0
  arg0 := 0
  arg1 := 0
  arg2 := 0
  arg3 := 0
  arg4 := bswap32 BSP_PERMISSIONS_IOS_USER_READ

/-- On a server at rest that has served this OPEN, an IOCTL on fd 0 is dispatched, as the
    OPEN's session. -/
theorem session_isolation_openMsg :
    ((∃ cmd, .dispatch 0 cmd ∈
        (mainIter 0 idleExt [] (oneSession BSP_PERMISSIONS_IOS_USER_READ) consoleTypeMsg (sizeMem 4)).trace) ↔
      ∃ m, OpenedBy 0 m [(openMsg, Event.opened 0 BSP_PERMISSIONS_IOS_USER_READ), (openMsg, Event.reply (σ := Process Unit) 0)]) ∧
    OpenedBy 0 openMsg [(openMsg, Event.opened 0 BSP_PERMISSIONS_IOS_USER_READ), (openMsg, Event.reply (σ := Process Unit) 0)] :=
  ⟨(session_isolation 0 idleExt [] 0 freshProcess [⟨openMsg, sizeMem 4⟩] rfl consoleTypeMsg (sizeMem 4)).1 0 rfl rfl,
    [], [], rfl, fun _ hu => absurd hu List.not_mem_nil⟩

end Rest

end Iosu.Bsp
