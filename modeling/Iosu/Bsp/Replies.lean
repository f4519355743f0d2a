/-
  Iosu.Bsp.Replies — what a message is answered with, and the fd it names.

  `result` is declared outside the loop. A CLOSE that frees its fd and an OPEN do not
  set it (`Lapses`): they are answered with what the message before was answered with
  (`result_inv`), or with whatever the variable held to begin with. Every other message
  sets it, so `answered_iff` is exact, for every message of every run.

  The fd of a CLOSE or an IOCTL is compared with its upper bound only, as an `int`.
  `fdSafe_iff`: the table is indexed inside its bounds exactly when the fd is not
  negative.
-/

import Iosu.Bsp.Faults
import Iosu.Bsp.Sessions

namespace Iosu.Bsp

open Iosu.Lib Iosu.Lib.Switch Iosu.Libc Iosu.Entity Iosu.Ios

variable {ε : Type}

/-! ## Replies -/

def Event.replied : Event (Process ε) → Option U32
  | .reply r => some r
  | _ => none

def replies (t : List (Event (Process ε))) : List U32 := t.filterMap Event.replied

theorem reply_replies (srv : Server ε) (mem : Mem) : replies (reply srv mem).trace = [srv.result] := by
  rw [reply_trace]
  rfl

section Turn

variable [DataMem (Process ε)] {fuel : Nat} {x : Ext ε} {es : List (BspEntity (Process ε))} {srv srv' : Server ε}
  {msg : IOSMessage} {mem mem' : Mem}

/-! ## What the cases make of `result` -/

/-- No case reads `result`, and each sets it. -/
theorem ioctlCases_fresh {args : IoctlArgs} {c : Case U32 (Event (Process ε)) Fault (Ioctl ε)}
    (hc : c ∈ ioctlCases fuel x es args) (s : Ioctl ε) (r : U32) : c.body { s with result := r } = c.body s := by
  simp only [ioctlCases, List.mem_cons, List.not_mem_nil, or_false] at hc
  rcases hc with rfl | rfl | rfl | rfl | rfl | rfl | rfl | rfl | rfl <;> rfl

theorem switch_fresh (cmd : U32) (args : IoctlArgs) (s : Ioctl ε) (r : U32) :
    switch cmd (ioctlCases fuel x es args) caseDefault { s with result := r } =
      switch cmd (ioctlCases fuel x es args) caseDefault s := by
  unfold switch
  cases hd : (ioctlCases fuel x es args).dropWhile fun c => c.label ≠ cmd with
  | nil => rfl
  | cons c cs =>
    have hc : c ∈ ioctlCases fuel x es args := by
      refine (List.dropWhile_sublist fun c => decide (c.label ≠ cmd)).mem ?_
      rw [hd]
      exact List.mem_cons_self
    unfold runFrom
    rw [ioctlCases_fresh hc s r]

/-! ## Lapses -/

/-- A message that leaves `result` as it is: an OPEN, or a CLOSE that frees its fd. -/
def Lapses (srv : Server ε) (msg : IOSMessage) : Prop :=
  bswap32 msg.command = IOS_OPEN ∨
    (bswap32 msg.command = IOS_CLOSE ∧ ∃ fd : Fin 0x20, msg.fd = (fd.val : Int) ∧ (srv.bsp_fdtable.get fd).active = true)

/-- It is answered with what `result` held. -/
theorem lapse_replies (h : Lapses srv msg) : replies (mainIter fuel x es srv msg mem).trace = [srv.result] := by
  rcases h with hopen | ⟨hclose, fd, hfd, ha⟩
  · cases hs : freeSlot srv.bsp_fdtable with
    | none =>
      rw [mainIter_openFull hopen hs]
      exact reply_replies srv mem
    | some fd =>
      rw [mainIter_open hopen hs, Run.emit_bind_trace, reply_trace]
      rfl
  · rw [mainIter_close hclose (activeSlot_active hfd ha), Run.emit_bind_trace, reply_trace]
    rfl

/-- Any other message is served the same whatever `result` held. -/
theorem fresh_of_not_lapses (h : ¬ Lapses srv msg) (r : U32) :
    mainIter fuel x es { srv with result := r } msg mem = mainIter fuel x es srv msg mem := by
  have hopen : bswap32 msg.command ≠ IOS_OPEN := fun ho => h (Or.inl ho)
  by_cases hclose : bswap32 msg.command = IOS_CLOSE
  · rcases activeSlot_cases srv.bsp_fdtable msg.fd with ⟨-, hs⟩ | ⟨-, hs⟩ | ⟨fd, hfd, ha, -⟩
    · exact Eq.trans (mainIter_badFd (Or.inl hclose) hs) (Eq.symm (mainIter_badFd (Or.inl hclose) hs))
    · exact Eq.trans (mainIter_noSession (Or.inl hclose) hs) (Eq.symm (mainIter_noSession (Or.inl hclose) hs))
    · exact absurd (Or.inr ⟨hclose, fd, hfd, ha⟩) h
  by_cases hioctl : bswap32 msg.command = IOS_IOCTL
  · rcases activeSlot_cases srv.bsp_fdtable msg.fd with ⟨-, hs⟩ | ⟨-, hs⟩ | ⟨fd, -, -, hs⟩
    · exact Eq.trans (mainIter_badFd (Or.inr hioctl) hs) (Eq.symm (mainIter_badFd (Or.inr hioctl) hs))
    · exact Eq.trans (mainIter_noSession (Or.inr hioctl) hs) (Eq.symm (mainIter_noSession (Or.inr hioctl) hs))
    · refine Eq.trans (mainIter_ioctl hioctl hs) (Eq.trans ?_ (Eq.symm (mainIter_ioctl hioctl hs)))
      have hioctl' : Server.ioctl { srv with result := r } mem = { srv.ioctl mem with result := r } := rfl
      rw [hioctl', switch_fresh]
      rfl
  · exact Eq.trans (mainIter_other hclose hioctl hopen) (Eq.symm (mainIter_other hclose hioctl hopen))

/-- The answers a client relies on. -/
structure Answered (x : Ext ε) (es : List (BspEntity (Process ε))) (srv : Server ε) (msg : IOSMessage) (mem : Mem) :
    Prop where
  /-- They do not depend on what was answered before. -/
  fresh : ∀ fuel r, replies (mainIter fuel x es { srv with result := r } msg mem).trace =
    replies (mainIter fuel x es srv msg mem).trace
  /-- An OPEN is answered with its fd. -/
  opened : bswap32 msg.command = IOS_OPEN → ∀ fd, freeSlot srv.bsp_fdtable = some fd →
    ∀ fuel, replies (mainIter fuel x es srv msg mem).trace = [BitVec.ofNat 32 fd]
  /-- Or, when there is none, with an error. -/
  full : bswap32 msg.command = IOS_OPEN → freeSlot srv.bsp_fdtable = none → ∀ fuel,
    (∃ r : U32, r.toInt < 0 ∧ replies (mainIter fuel x es srv msg mem).trace = [r]) ∧
      ∀ srv' mem', (mainIter fuel x es srv msg mem).res = .ok (srv', mem') → srv'.bsp_fdtable = srv.bsp_fdtable
  closed : bswap32 msg.command = IOS_CLOSE → ∀ fd : Fin 0x20, msg.fd = (fd.val : Int) →
    (srv.bsp_fdtable.get fd).active = true → ∀ fuel, replies (mainIter fuel x es srv msg mem).trace = [IOS_ERROR_OK]

theorem answered_iff : Answered x es srv msg mem ↔ ¬ Lapses srv msg := by
  refine ⟨?_, ?_⟩
  · intro h hl
    -- two values that `result` may have been left with
    have h0 := h.fresh 0 0
    have h1 := h.fresh 0 1
    have hl' : ∀ r, Lapses { srv with result := r } msg := fun _ => hl
    rw [lapse_replies (hl' 0), ← h1, lapse_replies (hl' 1)] at h0
    have hne : (0 : U32) ≠ 1 := by decide
    exact hne (List.cons.inj h0).1
  · intro h
    refine ⟨?_, ?_, ?_, ?_⟩
    · intro fuel r
      rw [fresh_of_not_lapses h r]
    · intro ho
      exact absurd (Or.inl ho) h
    · intro ho
      exact absurd (Or.inl ho) h
    · intro hc fd hfd ha
      exact absurd (Or.inr ⟨hc, fd, hfd, ha⟩) h

end Turn

/-! ## Every run -/

section Runs

variable [DataMem (Process ε)] (fuel : Nat) (x : Ext ε) (es : List (BspEntity (Process ε)))

/-- In every run: a message is answered as its client relies on exactly when it is
    neither an OPEN nor a CLOSE that frees its fd. -/
theorem replies_iff (result : U32) (process : Process ε) (arrivals : List Arrival) :
    Run.Throughout (turn fuel x es) (fun srv i => Answered x es srv i.msg i.mem ↔ ¬ Lapses srv i.msg)
      (Server.boot result process) arrivals :=
  Run.throughout_of_forall (fun _ _ => answered_iff) _ arrivals

/-- The answers so far. -/
def answers (t : List (Logged ε)) : List U32 := replies (t.map Prod.snd)

variable {fuel x es}

/-- A turn that ends leaves in `result` what it replied. -/
theorem mainIter_result {srv srv' : Server ε} {msg : IOSMessage} {mem mem' : Mem}
    (h : (mainIter fuel x es srv msg mem).res = .ok (srv', mem')) :
    ∃ pre, (mainIter fuel x es srv msg mem).trace = pre ++ [.reply srv'.result] := by
  rcases mainIter_cases fuel x es srv msg mem with
    ⟨-, he⟩ | ⟨r, he⟩ | ⟨fd, -, -, he⟩ | ⟨fd, hc, hfd, ha, -⟩ | ⟨fd, -, -, he⟩
  · rw [he] at h
    cases h
  · rw [he] at h ⊢
    cases h
    exact ⟨[], rfl⟩
  · rw [he] at h ⊢
    cases h
    exact ⟨[.closed fd], rfl⟩
  · have hs : activeSlot srv.bsp_fdtable msg.fd = .ok (some fd) := activeSlot_active hfd ha
    obtain ⟨s, hsw⟩ := switch_of_turn hc hs h
    rw [turn_of_switch hc hs hsw] at h ⊢
    cases h
    exact ⟨_ :: _, rfl⟩
  · rw [he] at h ⊢
    cases h
    exact ⟨[.opened fd (bswap32 msg.arg4)], rfl⟩

/-- What `result` holds between two messages is the answer to the last one. -/
theorem result_inv {result : U32} {process : Process ε} {arrivals : List Arrival} {t : List (Logged ε)} {srv : Server ε}
    (h : serve fuel x es (Server.boot result process) arrivals = ⟨t, .ok srv⟩) :
    srv.result = (answers t).getLast?.getD result := by
  have hstep : ∀ t srv i srv', srv.result = (answers t).getLast?.getD result →
      (turn fuel x es srv i).res = .ok srv' →
      srv'.result = (answers (t ++ (turn fuel x es srv i).trace)).getLast?.getD result := by
    intro t srv i srv' _ hturn
    obtain ⟨mem', hmain, htrace⟩ := turn_res hturn
    obtain ⟨pre, hpre⟩ := mainIter_result hmain
    rw [htrace, hpre]
    simp [answers, replies, Event.replied]
  have hinv := Run.iter_inv (fun t srv => srv.result = (answers t).getLast?.getD result) hstep arrivals []
    (Server.boot result process) srv rfl (congrArg Run.res h)
  have htrace : (Run.iter (turn fuel x es) (Server.boot result process) arrivals).trace = t := congrArg Run.trace h
  rw [htrace, List.nil_append] at hinv
  exact hinv

/-- So an OPEN, or a CLOSE that frees its fd, is answered with that answer again. -/
theorem lapse_repeats {result : U32} {process : Process ε} {arrivals : List Arrival} {t : List (Logged ε)}
    {srv : Server ε} (h : serve fuel x es (Server.boot result process) arrivals = ⟨t, .ok srv⟩) {msg : IOSMessage}
    (hl : Lapses srv msg) (mem : Mem) :
    replies (mainIter fuel x es srv msg mem).trace = [(answers t).getLast?.getD result] := by
  rw [lapse_replies hl, result_inv h]

end Runs

section Rest

/-- A CLOSE of fd 5. -/
def closeMsg : IOSMessage := { openMsg with command := bswap32 IOS_CLOSE, clientFD := bswap32 5 }

/-- The OPEN behind it takes fd 0 and is answered with IOS_ERROR_NOEXISTS. -/
theorem replies_closeMsg_openMsg :
    (¬ Run.Throughout (turn 0 idleExt []) (fun srv i => Answered idleExt [] srv i.msg i.mem)
      (Server.boot 0 freshProcess) [⟨closeMsg, sizeMem 4⟩, ⟨openMsg, sizeMem 4⟩]) ∧
    (serve 0 idleExt [] (Server.boot 0 freshProcess) [⟨closeMsg, sizeMem 4⟩, ⟨openMsg, sizeMem 4⟩]).trace =
      [(closeMsg, .reply IOS_ERROR_NOEXISTS), (openMsg, .opened 0 BSP_PERMISSIONS_IOS_USER_READ),
        (openMsg, .reply IOS_ERROR_NOEXISTS)] := by
  refine ⟨?_, rfl⟩
  intro h
  have hopen := (h.2 _ rfl).1
  exact answered_iff.mp hopen (Or.inl rfl)

end Rest

/-! ## The fd of a message -/

section Fd

variable [DataMem (Process ε)] (x : Ext ε) (es : List (BspEntity (Process ε))) (srv : Server ε) (msg : IOSMessage)
  (mem : Mem)

/-- The table is indexed inside its bounds, and an fd that names no session is answered
    with IOS_ERROR_NOEXISTS and nothing else. -/
structure FdSafe : Prop where
  inside : ∀ fuel fd, (mainIter fuel x es srv msg mem).res ≠ .fault (.fdIndex fd)
  refused : (∀ fd : Fin 0x20, msg.fd = (fd.val : Int) → (srv.bsp_fdtable.get fd).active = false) →
    ∀ fuel, mainIter fuel x es srv msg mem =
      ⟨[.reply IOS_ERROR_NOEXISTS], .ok ({ srv with result := IOS_ERROR_NOEXISTS }, mem)⟩

variable {x es srv msg mem}

/-- For every CLOSE and every IOCTL: the fd is safe to use exactly when it is not
    negative as an `int`. -/
theorem fdSafe_iff (hc : bswap32 msg.command = IOS_CLOSE ∨ bswap32 msg.command = IOS_IOCTL) :
    FdSafe x es srv msg mem ↔ 0 ≤ msg.fd := by
  refine ⟨?_, ?_⟩
  · intro h
    by_contra hneg
    have hlt : msg.fd < 0 := by omega
    have hbad : mainIter 0 x es srv msg mem = Run.fault (.fdIndex msg.fd) := mainIter_badFd hc (activeSlot_negative hlt)
    exact h.inside 0 msg.fd (congrArg Run.res hbad)
  · intro hnn
    refine ⟨?_, ?_⟩
    · intro fuel fd hf
      rcases activeSlot_cases srv.bsp_fdtable msg.fd with ⟨hneg, -⟩ | ⟨-, hs⟩ | ⟨slot, -, -, hs⟩
      · omega
      · rw [mainIter_noSession hc hs, reply_res] at hf
        cases hf
      · rcases hc with hc | hc
        · rw [mainIter_close hc hs, Run.emit_bind_res, reply_res] at hf
          cases hf
        · -- the session is there: what is left is the handlers
          rw [mainIter_ioctl hc hs, Run.emit_bind_res] at hf
          rcases Run.bind_res_fault.mp hf with hf | ⟨s, -, hf⟩
          · exact switch_offTable fuel x es _ _ _ _ hf
          · rw [reply_res] at hf
            cases hf
    · intro hno fuel
      have hs : activeSlot srv.bsp_fdtable msg.fd = .ok none := by
        rcases activeSlot_cases srv.bsp_fdtable msg.fd with ⟨hneg, -⟩ | ⟨-, hs⟩ | ⟨slot, hfd, ha, -⟩
        · omega
        · exact hs
        · rw [hno slot hfd] at ha
          cases ha
      rw [mainIter_noSession hc hs, reply_eq]

end Fd

section Rest

/-- A CLOSE of the fd -1. -/
def negativeMsg : IOSMessage := { closeMsg with clientFD := 0xFFFFFFFF }

theorem negativeMsg_not_fdSafe :
    ¬ FdSafe idleExt [] (oneSession BSP_PERMISSIONS_IOS_USER_READ) negativeMsg (sizeMem 4) ∧
      (mainIter 0 idleExt [] (oneSession BSP_PERMISSIONS_IOS_USER_READ) negativeMsg (sizeMem 4)).res =
        .fault (.fdIndex (-1)) :=
  ⟨fun h => h.inside 0 (-1) rfl, rfl⟩

theorem fdSafe_iff_closeMsg : FdSafe idleExt [] (oneSession BSP_PERMISSIONS_IOS_USER_READ) closeMsg (sizeMem 4) :=
  (fdSafe_iff (Or.inl rfl)).mpr (by decide)

end Rest

end Iosu.Bsp
