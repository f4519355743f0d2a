/-
  Iosu.Bsp.Isolation — what the clients of /dev/bsp see of one another.

  A client sees the result that its message is answered with and the memory that is handed
  back to it (`Seen`). The result of an OPEN, or of a CLOSE that frees its fd, is left out: it
  is that of the message before, whoever sent it (`Lapses`). `Isolated` says of a class of
  access that what it allows leaves the process as the others see it, and that what the
  others ask for depends on nothing else. Then the IOCTLs of the clients that opened with such
  an access are not to be seen by anyone else, as long as the server gets beyond them: over any
  interleaving each of the others is handed what it is handed when they are never sent, or the
  first part of that, where one of them has ended the service (`hidden_clients_unseen`).
-/

import Iosu.Lib.Unwinding
import Iosu.Entity.Respect
import Iosu.Bsp.Footprint
import Iosu.Bsp.Replies
import Iosu.Bsp.ServeFrame

namespace Iosu.Bsp

open Iosu.Lib Iosu.Lib.Switch Iosu.Libc Iosu.Entity Iosu.Ios

variable {ε : Type}

/-! ## What a client sees -/

structure Seen where
  msg : IOSMessage
  result : Option U32
  mem : Mem

instance (srv : Server ε) (msg : IOSMessage) : Decidable (Lapses srv msg) := inferInstanceAs (Decidable (_ ∨ _))

/-- An IOCTL of a client whose OPEN had such an access. -/
def Hidden (hides : U32 → Prop) (srv : Server ε) (i : Arrival) : Prop :=
  bswap32 i.msg.command = IOS_IOCTL ∧ ∃ fd : Fin 0x20, i.msg.fd = (fd.val : Int) ∧
    (srv.bsp_fdtable.get fd).active = true ∧ hides (srv.bsp_fdtable.get fd).permissions

instance (hides : U32 → Prop) [DecidablePred hides] (srv : Server ε) (i : Arrival) : Decidable (Hidden hides srv i) :=
  inferInstanceAs (Decidable (_ ∧ _))

section Turns

variable [DataMem (Process ε)] (fuel : Nat) (x : Ext ε) (es : List (BspEntity (Process ε)))

/-- A turn of the loop, with what its client sees of it. -/
def seenTurn (srv : Server ε) (i : Arrival) : Run Seen Fault (Server ε) := do
  let p ← Run.lift (mainIter fuel x es srv i.msg i.mem).res
  Run.emit ⟨i.msg, if Lapses srv i.msg then none else some p.1.result, p.2⟩
  return p.1

variable {fuel x es} {srv srv' : Server ε} {i : Arrival}

/-- It is the turn, and what is seen of it is what it replies. -/
theorem seenTurn_ok (h : (seenTurn fuel x es srv i).res = .ok srv') :
    (turn fuel x es srv i).res = .ok srv' ∧
      (∃ pre, (turn fuel x es srv i).trace = pre ++ [(i.msg, .reply srv'.result)]) ∧
      ∃ mem, (mainIter fuel x es srv i.msg i.mem).res = .ok (srv', mem) ∧
        (seenTurn fuel x es srv i).trace = [⟨i.msg, if Lapses srv i.msg then none else some srv'.result, mem⟩] := by
  obtain ⟨⟨srv₁, mem⟩, hmain, hrest⟩ := Run.bind_res_ok.mp h
  obtain ⟨-, -, hend⟩ := Run.bind_res_ok.mp hrest
  obtain rfl : srv' = srv₁ := (Res.ok.inj hend).symm
  have hmain' : (mainIter fuel x es srv i.msg i.mem).res = .ok (srv', mem) := hmain
  have hturn : (turn fuel x es srv i).res = .ok srv' := Run.bind_res_ok.mpr ⟨(srv', mem), hmain', rfl⟩
  obtain ⟨pre, hpre⟩ := mainIter_result hmain'
  obtain ⟨-, -, htrace⟩ := turn_res hturn
  refine ⟨hturn, ⟨pre.map fun e => (i.msg, e), ?_⟩, mem, hmain', ?_⟩
  · rw [htrace, hpre, List.map_append]
    rfl
  · unfold seenTurn
    rw [hmain']
    rfl

end Turns

/-! ## Processes that look the same -/

/-- What the others ask for depends on no more of a process than `R` shows. -/
structure Respected [DataMem (Process ε)] (x : Ext ε) (es : List (BspEntity (Process ε))) (R : Process ε → Process ε → Prop) :
    Prop where
  calls : ∀ c : Call (Process ε), c.Of es → c.Respects R
  version : ∀ b b', R b b' → Res.Rel (SameRet R) (bspMethodGetHardwareVersion x b) (bspMethodGetHardwareVersion x b')
  consoleMask : ∀ b b', R b b' → bspGetConsoleMask b.bspBoardConfig = bspGetConsoleMask b'.bspBoardConfig
  consoleType : ∀ b b', R b b' → bspGetConsoleType b.bspBoardConfig = bspGetConsoleType b'.bspBoardConfig

/-- The process may change, as long as it looks the same. -/
def leaving (R : Process ε → Process ε → Prop) : Frame (Process ε) where
  rel b b' := ∀ b₁, R b b₁ → R b' b₁
  refl := fun _ _ h => h
  trans := fun h h' b₁ hR => h' b₁ (h b₁ hR)

/-- And what the access allows leaves a process as it looks. -/
structure Isolated [DataMem (Process ε)] (x : Ext ε) (es : List (BspEntity (Process ε))) (R : Process ε → Process ε → Prop)
    (hides : U32 → Prop) : Prop extends Respected x es R where
  silent : ∀ access c, hides access → Requested es access c → c.Within (leaving R)
  silentVersion : Stays (leaving R) (bspMethodGetHardwareVersion x)

/-! ## The cases -/

section Cases

variable {R : Process ε → Process ε → Prop} {args : IoctlArgs} {r : U32} {b b' : Process ε} {m : Mem}

/-- The same result and the same memory. -/
structure SameIoctl (R : Process ε → Process ε → Prop) (s s' : Ioctl ε) : Prop where
  result : s.result = s'.result
  process : R s.process s'.process
  mem : s.mem = s'.mem

theorem sizedCase_same {body : Ioctl ε → Turn ε (Ioctl ε)}
    (hb : Run.Rel (SameIoctl R) (body ⟨r, b, m⟩) (body ⟨r, b', m⟩)) (h : R b b') :
    Run.Rel (SameIoctl R) (sizedCase args body ⟨r, b, m⟩) (sizedCase args body ⟨r, b', m⟩) := by
  unfold sizedCase
  dsimp only
  split
  · exact Run.rel_pure ⟨rfl, h, rfl⟩
  · exact hb

/-- A case that hands out what a query of the process comes to. -/
theorem wordCase_same {α : Type} (h : R b b') (hd : Handler) (c : Option U32) (p : Prog (Process ε) α)
    (ret : α → U32) (mem : α → Mem) :
    Run.Rel (SameIoctl R) (start hd c p >>= fun y => pure ⟨ret y, b, mem y⟩)
      (start hd c p >>= fun y => pure ⟨ret y, b', mem y⟩) := by
  refine (rel_start (Run.rel_refl (R := Eq) (fun _ => rfl) p) hd c).bind fun y y' hy => ?_
  subst hy
  exact Run.rel_pure ⟨rfl, h, rfl⟩

/-- A case that starts a request function for its answer. -/
theorem answerCase_same {p p' : Prog (Process ε) (BspRval × Process ε)} (hd : Handler) (c : Option U32)
    (hrel : Run.Rel (SameRet R) p p') :
    Run.Rel (SameIoctl R) (start hd c p >>= fun y => pure ⟨y.1, y.2, m⟩) (start hd c p' >>= fun y => pure ⟨y.1, y.2, m⟩) :=
  (rel_start hrel hd c).bind fun _ _ hy => Run.rel_pure ⟨hy.1, hy.2, rfl⟩

/-- Or for what it puts into the buffer as well. -/
theorem fillCase_same {p p' : Prog (Process ε) (BspRval × Buf × Process ε)} (hd : Handler) (c : Option U32)
    (hrel : Run.Rel (SameOut R) p p') :
    Run.Rel (SameIoctl R) (start hd c p >>= fun y => pure ⟨y.1, y.2.2, Mem.put args.outPtr y.2.1⟩)
      (start hd c p' >>= fun y => pure ⟨y.1, y.2.2, Mem.put args.outPtr y.2.1⟩) :=
  (rel_start hrel hd c).bind fun _ _ hy => Run.rel_pure ⟨hy.1, hy.2.2, congrArg (Mem.put args.outPtr) hy.2.1⟩

theorem ioctlCases_same [DataMem (Process ε)] {fuel : Nat} {x : Ext ε} {es : List (BspEntity (Process ε))}
    (hx : Respected x es R) {k : Case U32 (Event (Process ε)) Fault (Ioctl ε)} (hk : k ∈ ioctlCases fuel x es args)
    (s s' : Ioctl ε) (h : SameIoctl R s s') : Run.Rel (SameIoctl R) (k.body s) (k.body s') := by
  obtain ⟨r, b, m⟩ := s
  obtain ⟨r', b', m'⟩ := s'
  obtain ⟨rfl, hR, rfl⟩ := h
  simp only [ioctlCases, List.mem_cons, List.not_mem_nil, or_false] at hk
  rcases hk with rfl | rfl | rfl | rfl | rfl | rfl | rfl | rfl | rfl
  · refine sizedCase_same ?_ hR
    refine (rel_start (Run.rel_refl (R := Eq) (fun _ => rfl) _) _ _).bind fun y y' hy => ?_
    subst hy
    obtain ⟨ret, version⟩ := y
    cases version with
    | none => exact Run.rel_pure ⟨rfl, hR, rfl⟩
    | some version => exact Run.rel_pure ⟨rfl, hR, rfl⟩
  · refine sizedCase_same ?_ hR
    refine (rel_start (show Run.Rel (SameRet R) (Run.lift _) (Run.lift _) from hx.version b b' hR) _ _).bind ?_
    rintro ⟨⟨ret, version⟩, b₁⟩ ⟨⟨ret', version'⟩, b₁'⟩ ⟨heq, hR₁⟩
    cases heq
    exact Run.rel_pure ⟨rfl, hR₁, rfl⟩
  · refine sizedCase_same ?_ hR
    dsimp only
    rw [hx.consoleMask b b' hR]
    exact wordCase_same hR _ _ _ Prod.fst fun y => m.store args.outPtr (Buf.ofU32 y.2)
  · exact fillCase_same _ _ (query_respects hx.calls hR _)
  · exact fillCase_same _ _ (read_respects hx.calls hR _)
  · exact answerCase_same _ _ (write_respects hx.calls hR _)
  · exact answerCase_same _ _ (init_respects hx.calls hR _ _)
  · exact answerCase_same _ _ (shutdown_respects hx.calls hR)
  · refine sizedCase_same ?_ hR
    dsimp only
    rw [hx.consoleType b b' hR]
    exact wordCase_same hR _ _ _ Prod.fst fun y => m.store args.outPtr (Buf.ofU32 y.2)

/-- The whole switch, whatever the results were before it. -/
theorem switch_same [DataMem (Process ε)] {fuel : Nat} {x : Ext ε} {es : List (BspEntity (Process ε))}
    (hx : Respected x es R) (cmd r r' : U32) (h : R b b') :
    Run.Rel (SameIoctl R) (switch cmd (ioctlCases fuel x es args) caseDefault ⟨r, b, m⟩)
      (switch cmd (ioctlCases fuel x es args) caseDefault ⟨r', b', m⟩) := by
  have hd : ∀ s s' : Ioctl ε, SameIoctl R s s' → Run.Rel (SameIoctl R) (caseDefault s) (caseDefault s') :=
    fun s s' hs => Run.rel_pure ⟨rfl, hs.process, hs.mem⟩
  have hstart : SameIoctl R ⟨r', b, m⟩ ⟨r', b', m⟩ := ⟨rfl, h, rfl⟩
  rw [← switch_fresh cmd args ⟨r, b, m⟩ r']
  exact switch_rel hd (fun k hk s s' hs => ioctlCases_same hx hk s s' hs) hstart

end Cases

/-! ## A turn -/

section Turn

variable [DataMem (Process ε)] {fuel : Nat} {x : Ext ε} {es : List (BspEntity (Process ε))} {R : Process ε → Process ε → Prop}
  {srv srv' t : Server ε} {i : Arrival}

/-- The same fds are open, and the processes look the same. -/
structure LooksSame (R : Process ε → Process ε → Prop) (srv t : Server ε) : Prop where
  table : srv.bsp_fdtable = t.bsp_fdtable
  process : R srv.process t.process

/-- What a turn comes to: the memory is the same, and the result where the message is answered
    with its own. -/
structure SameTurn (R : Process ε → Process ε → Prop) (answered : Prop) (p q : Server ε × Mem) : Prop extends
    LooksSame R p.1 q.1 where
  result : answered → p.1.result = q.1.result
  mem : p.2 = q.2

omit [DataMem (Process ε)] in
theorem LooksSame.lapses (h : LooksSame R srv t) (msg : IOSMessage) : Lapses srv msg ↔ Lapses t msg := by
  unfold Lapses
  rw [h.table]

theorem mainIter_same (hx : Respected x es R) (h : LooksSame R srv t) (msg : IOSMessage) (mem : Mem) :
    Run.Rel (SameTurn R (¬ Lapses srv msg)) (mainIter fuel x es srv msg mem) (mainIter fuel x es t msg mem) := by
  have hreply : ∀ {a b : Server ε} {answered : Prop}, LooksSame R a b → (answered → a.result = b.result) →
      Run.Rel (SameTurn R answered) (reply a mem) (reply b mem) := by
    intro a b answered hab hresult
    unfold Run.Rel
    rw [reply_res, reply_res]
    exact ⟨hab, hresult, rfl⟩
  have hset : ∀ (fd : Fin 0x20) (v : FdT), srv.bsp_fdtable.set fd v fd.isLt = t.bsp_fdtable.set fd v fd.isLt :=
    fun fd v => congrArg (fun table : FdTable => table.set fd v fd.isLt) h.table
  have hemit : ∀ {e : Event (Process ε)} {answered : Prop} {r r' : Turn ε (Server ε × Mem)}, Run.Rel (SameTurn R answered) r r' →
      Run.Rel (SameTurn R answered) (Run.emit e >>= fun _ => r) (Run.emit e >>= fun _ => r') := fun hr =>
    (Run.rel_refl (R := Eq) (fun _ => rfl) _).bind fun _ _ _ => hr
  by_cases hclose : bswap32 msg.command = IOS_CLOSE
  · rcases activeSlot_cases srv.bsp_fdtable msg.fd with ⟨-, hs⟩ | ⟨-, hs⟩ | ⟨fd, hfd, ha, hs⟩
    · rw [mainIter_badFd (Or.inl hclose) hs, mainIter_badFd (Or.inl hclose) (h.table ▸ hs)]
      exact rfl
    · rw [mainIter_noSession (Or.inl hclose) hs, mainIter_noSession (Or.inl hclose) (h.table ▸ hs)]
      exact hreply ⟨h.table, h.process⟩ fun _ => rfl
    · rw [mainIter_close hclose hs, mainIter_close hclose (h.table ▸ hs)]
      exact hemit (hreply ⟨hset fd _, h.process⟩ fun hno => absurd (Or.inr ⟨hclose, fd, hfd, ha⟩) hno)
  by_cases hioctl : bswap32 msg.command = IOS_IOCTL
  · rcases activeSlot_cases srv.bsp_fdtable msg.fd with ⟨-, hs⟩ | ⟨-, hs⟩ | ⟨fd, hfd, ha, hs⟩
    · rw [mainIter_badFd (Or.inr hioctl) hs, mainIter_badFd (Or.inr hioctl) (h.table ▸ hs)]
      exact rfl
    · rw [mainIter_noSession (Or.inr hioctl) hs, mainIter_noSession (Or.inr hioctl) (h.table ▸ hs)]
      exact hreply ⟨h.table, h.process⟩ fun _ => rfl
    · have hargs : t.args msg fd = srv.args msg fd := by
        unfold Server.args
        rw [h.table]
      rw [mainIter_ioctl hioctl hs, mainIter_ioctl hioctl (h.table ▸ hs), hargs]
      refine hemit ?_
      refine (switch_same hx (bswap32 msg.arg0) srv.result t.result h.process).bind fun s s' hs => ?_
      unfold Run.Rel
      rw [reply_res, reply_res]
      exact ⟨⟨h.table, hs.process⟩, fun _ => hs.result, hs.mem⟩
  by_cases hopen : bswap32 msg.command = IOS_OPEN
  · cases hs : freeSlot srv.bsp_fdtable with
    | none =>
      rw [mainIter_openFull hopen hs, mainIter_openFull hopen (h.table ▸ hs)]
      exact hreply h fun hno => absurd (Or.inl hopen) hno
    | some fd =>
      rw [mainIter_open hopen hs, mainIter_open hopen (h.table ▸ hs)]
      exact hemit (hreply ⟨hset fd _, h.process⟩ fun hno => absurd (Or.inl hopen) hno)
  · rw [mainIter_other hclose hioctl hopen, mainIter_other hclose hioctl hopen]
    exact hreply ⟨h.table, h.process⟩ fun _ => rfl

/-- So a client sees the same of it. -/
theorem seenTurn_same (hx : Respected x es R) (h : LooksSame R srv t) :
    Run.Sim (LooksSame R) (seenTurn fuel x es srv i) (seenTurn fuel x es t i) := by
  refine (Run.sim_lift (mainIter_same hx h i.msg i.mem)).bind ?_
  rintro ⟨p, m⟩ ⟨q, m'⟩ hpq
  obtain rfl : m = m' := hpq.mem
  have hseen : (if Lapses srv i.msg then none else some p.result) = if Lapses t i.msg then none else some q.result := by
    by_cases hl : Lapses srv i.msg
    · rw [if_pos hl, if_pos ((h.lapses i.msg).mp hl)]
    · rw [if_neg hl, if_neg fun hl' => hl ((h.lapses i.msg).mpr hl'), hpq.result hl]
  dsimp only
  rw [hseen]
  exact (Run.sim_emit _).bind fun _ _ _ => Run.sim_pure hpq.toLooksSame

/-- A hidden IOCTL leaves the fds, and a process that looks the same. -/
theorem seenTurn_hidden {hides : U32 → Prop} (hx : Isolated x es R hides) (h : LooksSame R srv t) (hi : Hidden hides srv i)
    (hrun : (seenTurn fuel x es srv i).res = .ok srv') : LooksSame R srv' t := by
  obtain ⟨hioctl, fd, hfd, ha, haccess⟩ := hi
  obtain ⟨-, -, mem, hmain, -⟩ := seenTurn_ok hrun
  have htable : srv'.bsp_fdtable = srv.bsp_fdtable := by
    rcases mainIter_table hmain with ⟨ht, -⟩ | ⟨fd, hc, -⟩ | ⟨fd, ho, -⟩
    · exact ht
    · exact absurd (hc.symm.trans hioctl) (by decide)
    · exact absurd (ho.symm.trans hioctl) (by decide)
  have hwithin : ∀ e ∈ (mainIter fuel x es srv i.msg i.mem).trace, e.Within x (leaving R) := by
    rw [mainIter_ioctl hioctl (activeSlot_active hfd ha), Run.emit_bind_trace]
    intro e he
    rcases List.mem_cons.mp he with rfl | he
    · trivial
    rcases Run.mem_bind_trace.mp he with he | ⟨s, -, he⟩
    · rcases switch_events he with ⟨hd, cr, rfl, -⟩ | ⟨c, rfl⟩
      · cases hd with
        | getHardwareVersion => exact hx.silentVersion
        | _ => trivial
      · rcases mem_switch_trace he with ⟨k, hk, s', hbody⟩ | ⟨s', hdflt⟩
        · exact hx.silent _ c haccess (ioctlCases_requested hk hbody)
        · cases hdflt
    · rw [reply_trace, List.mem_singleton] at he
      rw [he]
      trivial
  exact ⟨htable.trans h.table, mainIter_framed srv i.msg i.mem hwithin _ hmain t.process h.process⟩

theorem Isolated.unwinds {hides : U32 → Prop} (hx : Isolated x es R hides) :
    Run.Unwinds (seenTurn fuel x es) (Hidden hides) (LooksSame R) where
  alike h := by
    unfold Hidden
    rw [h.table]
  hidden h hi hrun := seenTurn_hidden hx h hi hrun
  other h _ := seenTurn_same hx.toRespected h

end Turn

/-! ## Every run -/

/-- Over any messages of any clients, in any order: what is seen of the others' messages begins
    what is seen of them when the hidden IOCTLs are never sent. It is all of that, unless the
    server does not get beyond one of these: then it ends there. -/
theorem hidden_clients_unseen [DataMem (Process ε)] {x : Ext ε} {es : List (BspEntity (Process ε))}
    {R : Process ε → Process ε → Prop} {hides : U32 → Prop} [DecidablePred hides] (hx : Isolated x es R hides) (fuel : Nat)
    (result : U32) {b : Process ε} (hb : R b b) (arrivals : List Arrival) :
    Run.shown (seenTurn fuel x es) (Hidden hides) (Server.boot result b) arrivals <+:
        (Run.iter (seenTurn fuel x es) (Server.boot result b)
          (Run.without (seenTurn fuel x es) (Hidden hides) (Server.boot result b) arrivals)).trace ∧
      (Run.stopsHidden (seenTurn fuel x es) (Hidden hides) (Server.boot result b) arrivals = false →
        Run.shown (seenTurn fuel x es) (Hidden hides) (Server.boot result b) arrivals =
          (Run.iter (seenTurn fuel x es) (Server.boot result b)
            (Run.without (seenTurn fuel x es) (Hidden hides) (Server.boot result b) arrivals)).trace) := by
  have hboot : LooksSame R (Server.boot result b) (Server.boot result b) := ⟨rfl, hb⟩
  exact hx.unwinds.unseen arrivals hboot

end Iosu.Bsp
