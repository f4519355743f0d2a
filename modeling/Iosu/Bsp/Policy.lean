/-
  Iosu.Bsp.Policy — the access policy of /dev/bsp, over whole runs of `main`.

  `policy` is a reference monitor. Its state is who holds each fd: the OPEN that took it.
  An OPEN may take the lowest free fd, with the permissions that its message says; a CLOSE
  may free the fd that it names; an IOCTL may be dispatched on the held fd that it names, its
  handlers started with the permissions of the holder, and of the entities nothing called
  but what these allow (`Call.Allowed`). `main_authorised`: every run of `main` keeps to it,
  whatever the entities' callbacks do, up to the moment where it ends or goes wrong; so
  whatever is called for a message is allowed to the OPEN that holds the message's fd.
-/

import Iosu.Bsp.MainTrace
import Iosu.Entity.Access

namespace Iosu.Bsp

open Iosu.Lib Iosu.Lib.Switch Iosu.Lib.Slots Iosu.Libc Iosu.Entity Iosu.Ios

variable {ε : Type}

/-! ## The monitor -/

/-- Who holds each fd. -/
abbrev Holders := Fin 0x20 → Option IOSMessage

/-- The OPEN whose session a message names. -/
def Holders.session (h : Holders) (msg : IOSMessage) : Option IOSMessage :=
  if hfd : 0 ≤ msg.fd ∧ msg.fd < 0x20 then h ⟨msg.fd.toNat, by omega⟩ else none

/-- What the message's session may do, as far as `ok` says so of its OPEN. -/
def Holders.check (h : Holders) (msg : IOSMessage) (ok : IOSMessage → Prop) [DecidablePred ok] : Option Holders :=
  match h.session msg with
  | some m => if ok m then some h else none
  | none => none

def policy : Monitor (MainEvent ε) Holders
  | h, .turn (msg, .opened fd permissions) =>
    if bswap32 msg.command = IOS_OPEN ∧ permissions = bswap32 msg.arg4 ∧ h fd = none ∧ ∀ g < fd, h g ≠ none then
      some (apply h (.opened fd msg))
    else none
  | h, .turn (msg, .closed fd) =>
    if bswap32 msg.command = IOS_CLOSE ∧ msg.fd = (fd.val : Int) ∧ h fd ≠ none then some (apply h (.closed fd)) else none
  | h, .turn (msg, .dispatch fd _) =>
    h.check msg fun _ => bswap32 msg.command = IOS_IOCTL ∧ msg.fd = (fd.val : Int)
  | h, .turn (msg, .handler _ clientCredentials) =>
    h.check msg fun m => clientCredentials = none ∨ clientCredentials = some (bswap32 m.arg4)
  | h, .turn (msg, .call c) => h.check msg fun m => c.Allowed (bswap32 m.arg4)
  | h, _ => some h

theorem Holders.session_eq {h : Holders} {msg : IOSMessage} {fd : Fin 0x20} (hfd : msg.fd = (fd.val : Int)) :
    h.session msg = h fd := by
  have hlt := fd.isLt
  have hslot : ∀ hn : msg.fd.toNat < 0x20, (⟨msg.fd.toNat, hn⟩ : Fin 0x20) = fd := by
    intro hn
    apply Fin.ext
    show msg.fd.toNat = fd.val
    omega
  unfold Holders.session
  rw [dif_pos (by omega), hslot]

theorem Holders.check_eq {h h' : Holders} {msg : IOSMessage} {ok : IOSMessage → Prop} [DecidablePred ok] :
    h.check msg ok = some h' ↔ (∃ m, h.session msg = some m ∧ ok m) ∧ h' = h := by
  unfold Holders.check
  cases hs : h.session msg with
  | none => simp
  | some m =>
    by_cases hok : ok m
    · simp [hok, eq_comm]
    · simp [hok]

/-! ## A turn keeps to it -/

/-- The table is that of the holders. -/
def Holds (h : Holders) (srv : Server ε) : Prop := ∀ fd : Fin 0x20, srv.bsp_fdtable.get fd = slotOf (h fd)

theorem Holds.active {h : Holders} {srv : Server ε} (hh : Holds h srv) {fd : Fin 0x20} :
    (srv.bsp_fdtable.get fd).active = true ↔ ∃ m, h fd = some m ∧ (srv.bsp_fdtable.get fd).permissions = bswap32 m.arg4 := by
  rw [hh fd]
  cases h fd <;> simp [slotOf]

theorem Holds.touched {h : Holders} {srv srv' : Server ε} (hh : Holds h srv) {u : Touch (Fin 0x20) IOSMessage}
    (htable : srv'.bsp_fdtable = srv.bsp_fdtable.set u.slot (slotOf u.holder) u.slot.isLt) : Holds (apply h u) srv' := by
  intro fd
  rw [htable]
  by_cases hfd : u.slot = fd
  · subst hfd
    rw [set_get_self, apply_slot]
  · rw [set_get_ne _ _ (Ne.symm hfd), apply_ne _ hfd]
    exact hh fd

theorem policy_quiet {h : Holders} {msg : IOSMessage} {t : List (Event (Process ε))}
    (ht : ∀ e ∈ t, policy h (.turn (msg, e)) = some h) : policy.run h (t.map fun e => MainEvent.turn (msg, e)) = some h := by
  induction t with
  | nil => rfl
  | cons e t ih =>
    rw [List.map_cons, Monitor.run_cons, ht e List.mem_cons_self, Option.bind_some]
    exact ih fun e' he' => ht e' (List.mem_cons_of_mem e he')

/-! ## What a case shows -/

theorem mem_start {hd : Handler} {cr : Option U32} {α : Type} {p : Prog (Process ε) α} {c : Call (Process ε)}
    (hc : Event.call c ∈ (start hd cr p).trace) : c ∈ p.trace := by
  unfold start at hc
  rw [Run.emit_bind_trace, Run.mapTrace_trace] at hc
  rcases List.mem_cons.mp hc with hc | hc
  · cases hc
  · obtain ⟨c', hc', heq⟩ := List.mem_map.mp hc
    cases heq
    exact hc'

/-- A case that starts a request function and then hands out what it returned. -/
theorem mem_case {hd : Handler} {cr : Option U32} {α β : Type} {p : Prog (Process ε) α} {k : α → Turn ε β}
    (hk : ∀ a, (k a).trace = []) {c : Call (Process ε)} (hc : Event.call c ∈ (start hd cr p >>= k).trace) :
    c ∈ p.trace := by
  rcases Run.mem_bind_trace.mp hc with hc | ⟨a, -, hc⟩
  · exact mem_start hc
  · rw [hk a] at hc
    cases hc

theorem mem_sizedCase {args : IoctlArgs} {body : Ioctl ε → Turn ε (Ioctl ε)} {s : Ioctl ε} {e : Event (Process ε)}
    (he : e ∈ (sizedCase args body s).trace) : e ∈ (body s).trace := by
  unfold sizedCase at he
  split at he
  · cases he
  · exact he

section Turn

variable [DataMem (Process ε)] {fuel : Nat} {x : Ext ε} {es : List (BspEntity (Process ε))} {srv : Server ε}
  {msg : IOSMessage} {mem : Mem} {h : Holders}

/-- What a case calls, a request with the IOCTL's permissions calls. -/
theorem ioctlCases_requested {args : IoctlArgs} {k : Case U32 (Event (Process ε)) Fault (Ioctl ε)}
    (hk : k ∈ ioctlCases fuel x es args) {s : Ioctl ε} {c : Call (Process ε)} (hc : .call c ∈ (k.body s).trace) :
    Requested es args.permissions c := by
  have hsilent : ∀ {p : Prog (Process ε) (BspRval × U32)}, p.trace = [] → c ∉ p.trace := by
    intro p hp hmem
    rw [hp] at hmem
    cases hmem
  simp only [ioctlCases, List.mem_cons, List.not_mem_nil, or_false] at hk
  rcases hk with rfl | rfl | rfl | rfl | rfl | rfl | rfl | rfl | rfl
  · have hmem := mem_case (fun p => by rcases p with ⟨ret, _ | version⟩ <;> rfl) (mem_sizedCase hc)
    rw [getEntityVersion_silent] at hmem
    cases hmem
  · exact absurd (mem_case (fun _ => rfl) (mem_sizedCase hc)) (by simp)
  · exact absurd (mem_case (fun _ => rfl) (mem_sizedCase hc)) (by simp)
  · exact query_requested (mem_case (fun _ => rfl) hc)
  · exact read_requested (mem_case (fun _ => rfl) hc)
  · exact write_requested (mem_case (fun _ => rfl) hc)
  · exact init_requested (mem_case (fun _ => rfl) hc)
  · exact shutdown_requested (mem_case (fun _ => rfl) hc)
  · exact absurd (mem_case (fun _ => rfl) (mem_sizedCase hc)) (by simp)

/-- What an IOCTL's switch shows is within the policy. -/
theorem switch_policy (hh : Holds h srv) {fd : Fin 0x20} (hfd : msg.fd = (fd.val : Int))
    (ha : (srv.bsp_fdtable.get fd).active = true) {cmd : U32} {s : Ioctl ε} :
    ∀ e ∈ (switch cmd (ioctlCases fuel x es (srv.args msg fd)) caseDefault s).trace,
      policy h (.turn (msg, e)) = some h := by
  obtain ⟨m, hm, hperm⟩ := hh.active.mp ha
  have hsession : h.session msg = some m := (Holders.session_eq hfd).trans hm
  intro e he
  rcases switch_events he with ⟨hd, cr, rfl, hcr⟩ | ⟨c, rfl⟩
  · refine Holders.check_eq.mpr ⟨⟨m, hsession, ?_⟩, rfl⟩
    rcases hcr with rfl | rfl
    · exact Or.inl rfl
    · exact Or.inr (congrArg some hperm)
  · refine Holders.check_eq.mpr ⟨⟨m, hsession, ?_⟩, rfl⟩
    rcases mem_switch_trace he with ⟨k, hk, s', hbody⟩ | ⟨s', hdflt⟩
    · rw [← hperm]
      exact (ioctlCases_requested hk hbody).allowed
    · cases hdflt

/-- A turn keeps to the policy, and leaves the table to the holders. -/
theorem turn_policy (hh : Holds h srv) :
    policy.Keeps h ((mainIter fuel x es srv msg mem).mapTrace fun e => MainEvent.turn (msg, e)) fun p h' =>
      Holds h' p.1 := by
  rcases mainIter_cases fuel x es srv msg mem with
    ⟨-, he⟩ | ⟨r, he⟩ | ⟨fd, hc, hfd, he⟩ | ⟨fd, hc, hfd, ha, he⟩ | ⟨fd, hc, hfree, he⟩
  · rw [he]
    exact Monitor.keeps_mapTrace (M := policy) rfl fun p hp => by cases hp
  · rw [he]
    refine Monitor.keeps_mapTrace (M := policy) rfl fun p hp => ?_
    cases hp
    exact hh
  · have ha : (srv.bsp_fdtable.get fd).active = true := by
      by_contra hno
      have hs : activeSlot srv.bsp_fdtable msg.fd = .ok none := activeSlot_inactive hfd (Bool.eq_false_iff.mpr hno)
      have htrace := congrArg Run.trace he
      rw [mainIter_noSession (Or.inl hc) hs, reply_trace] at htrace
      cases htrace
    obtain ⟨m, hm, -⟩ := hh.active.mp ha
    have hstep : policy h (MainEvent.turn (ε := ε) (msg, .closed fd)) = some (apply h (.closed fd)) :=
      if_pos ⟨hc, hfd, by rw [hm]; simp⟩
    rw [he]
    refine Monitor.keeps_mapTrace (Monitor.run_cons_eq_some.mpr ⟨_, hstep, rfl⟩) fun p hp => ?_
    cases hp
    exact hh.touched (u := .closed fd) rfl
  · obtain ⟨m, hm, hperm⟩ := hh.active.mp ha
    have hdispatch : policy h (MainEvent.turn (ε := ε) (msg, .dispatch fd (bswap32 msg.arg0))) = some h :=
      Holders.check_eq.mpr ⟨⟨m, (Holders.session_eq hfd).trans hm, hc, hfd⟩, rfl⟩
    refine Monitor.keeps_mapTrace (policy_quiet fun e hmem => ?_) fun p hp => ?_
    · rw [he, Run.emit_bind_trace] at hmem
      rcases List.mem_cons.mp hmem with rfl | hmem
      · exact hdispatch
      rcases Run.mem_bind_trace.mp hmem with hmem | ⟨s, -, hmem⟩
      · exact switch_policy hh hfd ha e hmem
      · rw [reply_trace, List.mem_singleton] at hmem
        rw [hmem]
        rfl
    · rw [he, Run.emit_bind_res] at hp
      obtain ⟨s, -, hp⟩ := Run.bind_res_ok.mp hp
      rw [reply_res] at hp
      cases hp
      exact hh
  · obtain ⟨hinactive, hbelow⟩ := freeSlot_eq_some_iff.mp hfree
    have hnone : h fd = none := by
      by_contra hsome
      obtain ⟨m, hm⟩ := Option.ne_none_iff_exists'.mp hsome
      rw [hh fd, hm] at hinactive
      cases hinactive
    have hheld : ∀ g < fd, h g ≠ none := by
      intro g hg hnone
      have hactive := hbelow g hg
      rw [hh g, hnone] at hactive
      cases hactive
    have hstep : policy h (MainEvent.turn (ε := ε) (msg, .opened fd (bswap32 msg.arg4))) =
        some (apply h (.opened fd msg)) := if_pos ⟨hc, rfl, hnone, hheld⟩
    rw [he]
    refine Monitor.keeps_mapTrace (Monitor.run_cons_eq_some.mpr ⟨_, hstep, rfl⟩) fun p hp => ?_
    cases hp
    exact hh.touched (u := .opened fd msg) rfl

end Turn

/-! ## Every run of `main` -/

section Main

variable [DataMem (Process ε)] (x : MainExt ε) (fuel : Nat) (es : List (BspEntity (Process ε)))

theorem mainLoop_policy (id : U32) (turns : Nat) {h : Holders} {srv : Server ε} (hh : Holds h srv) :
    policy.Keeps h (Traced.mainLoop x fuel es id turns srv) fun _ _ => True := by
  induction turns generalizing h srv with
  | zero => exact Monitor.keeps_spin
  | succ turns ih =>
    unfold Traced.mainLoop
    rcases x.iosReceiveMessage id srv.process.drv.env with ⟨ret, msg, mem, env⟩
    refine Monitor.keeps_emit_bind (M := policy) rfl ?_
    dsimp only
    split
    · exact Monitor.keeps_pure trivial
    · refine Monitor.Keeps.bind (turn_policy (h := h) hh) fun p h' _ hh' => ?_
      exact Monitor.keeps_emit_bind (M := policy) rfl (ih hh')

theorem main_policy (turns : Nat) (result : U32) (b : Process ε) :
    policy.Keeps (fun _ => none) (Traced.main x fuel turns es result b) fun _ _ => True := by
  have hquiet : ∀ e : MainEvent ε, e.ofLoop = false → policy (fun _ => none) e = some fun _ => none := by
    intro e he
    cases e with
    | turn l => cases he
    | _ => rfl
  exact main_keeps hquiet (fun id b => mainLoop_policy x fuel es id turns (follows_boot result b).slots) b

end Main

/-! ## The history of a run -/

/-- The turns of a run of `main`. -/
def logged (t : List (MainEvent ε)) : List (Logged ε) :=
  t.filterMap fun e => match e with
    | .turn l => some l
    | _ => none

theorem logged_turns (t : List (Logged ε)) : logged (t.map MainEvent.turn) = t := by
  unfold logged
  rw [List.filterMap_map]
  exact List.filterMap_some

/-- The monitor's state is the history of the slots. -/
theorem policy_step {h h' : Holders} {e : MainEvent ε} (hstep : policy h e = some h') :
    h' = (touches (logged [e])).foldl apply h := by
  cases e with
  | turn l =>
    obtain ⟨msg, e⟩ := l
    cases e with
    | opened fd permissions =>
      simp only [policy] at hstep
      split at hstep <;> cases hstep
      rfl
    | closed fd =>
      simp only [policy] at hstep
      split at hstep <;> cases hstep
      rfl
    | dispatch fd cmd => exact (Holders.check_eq.mp hstep).2
    | handler hd cr => exact (Holders.check_eq.mp hstep).2
    | call c => exact (Holders.check_eq.mp hstep).2
    | reply r => exact (Option.some.inj hstep).symm
  | _ => exact (Option.some.inj hstep).symm

theorem policy_history {h h' : Holders} {t : List (MainEvent ε)} (hrun : policy.run h t = some h') :
    h' = (touches (logged t)).foldl apply h := by
  induction t generalizing h with
  | nil => exact (Option.some.inj hrun).symm
  | cons e t ih =>
    obtain ⟨h₁, hstep, hrest⟩ := Monitor.run_cons_eq_some.mp hrun
    have hsplit : touches (logged (e :: t)) = touches (logged [e]) ++ touches (logged t) := by
      unfold touches logged
      rw [← List.filterMap_append, ← List.filterMap_append]
      rfl
    rw [ih hrest, policy_step hstep, hsplit, List.foldl_append]

/-- Only OPENs hold an fd. -/
theorem policy_opens {h h' : Holders} {e : MainEvent ε} (hh : ∀ fd m, h fd = some m → bswap32 m.command = IOS_OPEN)
    (hstep : policy h e = some h') : ∀ fd m, h' fd = some m → bswap32 m.command = IOS_OPEN := by
  have hsame : h' = h → ∀ fd m, h' fd = some m → bswap32 m.command = IOS_OPEN := fun heq => heq ▸ hh
  cases e with
  | turn l =>
    obtain ⟨msg, e⟩ := l
    cases e with
    | opened fd permissions =>
      simp only [policy] at hstep
      split at hstep <;> cases hstep
      rename_i hok
      intro g m hm
      by_cases hg : fd = g
      · subst hg
        rw [show apply h (.opened fd msg) fd = some msg from apply_slot h (.opened fd msg)] at hm
        cases hm
        exact hok.1
      · rw [apply_ne _ (show (Touch.opened fd msg).slot ≠ g from hg)] at hm
        exact hh g m hm
    | closed fd =>
      simp only [policy] at hstep
      split at hstep <;> cases hstep
      intro g m hm
      by_cases hg : fd = g
      · subst hg
        rw [show apply h (.closed fd) fd = none from apply_slot h (.closed fd)] at hm
        cases hm
      · rw [apply_ne _ (show (Touch.closed (π := IOSMessage) fd).slot ≠ g from hg)] at hm
        exact hh g m hm
    | dispatch fd cmd => exact hsame (Holders.check_eq.mp hstep).2
    | handler hd cr => exact hsame (Holders.check_eq.mp hstep).2
    | call c => exact hsame (Holders.check_eq.mp hstep).2
    | reply r => exact hsame (Option.some.inj hstep).symm
  | _ => exact hsame (Option.some.inj hstep).symm

/-- Whatever is called for a message is allowed to the OPEN that took the fd that the message
    names, and that was not touched since. -/
def Authorised (t : List (MainEvent ε)) : Prop :=
  ∀ before after msg c, t = before ++ .turn (msg, .call c) :: after →
    ∃ (fd : Fin 0x20) (m : IOSMessage), msg.fd = (fd.val : Int) ∧ OpenedBy fd m (logged before) ∧
      bswap32 m.command = IOS_OPEN ∧ c.Allowed (bswap32 m.arg4)

/-- What the monitor allows a call at a point of the trace. -/
theorem policy_authorised {h : Holders} {before after : List (MainEvent ε)} {msg : IOSMessage} {c : Call (Process ε)}
    (hrun : policy.run (fun _ => none) (before ++ .turn (msg, .call c) :: after) = some h) :
    ∃ (fd : Fin 0x20) (m : IOSMessage), msg.fd = (fd.val : Int) ∧ OpenedBy fd m (logged before) ∧
      bswap32 m.command = IOS_OPEN ∧ c.Allowed (bswap32 m.arg4) := by
  obtain ⟨h₁, h₂, hbefore, hstep, -⟩ := Monitor.step_of_split hrun
  obtain ⟨⟨m, hm, hallowed⟩, -⟩ := Holders.check_eq.mp hstep
  have hopens := Monitor.run_inv (fun _ _ _ hh hstep => policy_opens hh hstep) (fun _ _ hnone => by cases hnone) hbefore
  unfold Holders.session at hm
  split at hm
  · rename_i hfd
    refine ⟨⟨msg.fd.toNat, by omega⟩, m, ?_, ?_, hopens _ m hm, hallowed⟩
    · show msg.fd = (msg.fd.toNat : Int)
      omega
    · rw [policy_history hbefore] at hm
      exact (holders_eq_some_iff _ m _).mp hm
  · cases hm

/-- In every run of `main`, with any kernel and any entities, every callback that is started
    and every copy of an attribute's data is authorised. -/
theorem main_authorised [DataMem (Process ε)] (x : MainExt ε) (fuel turns : Nat) (es : List (BspEntity (Process ε)))
    (result : U32) (b : Process ε) : Authorised (Traced.main x fuel turns es result b).trace := by
  intro before after msg c ht
  obtain ⟨h, hrun, -⟩ := main_policy x fuel es turns result b
  rw [ht] at hrun
  exact policy_authorised hrun

end Iosu.Bsp
