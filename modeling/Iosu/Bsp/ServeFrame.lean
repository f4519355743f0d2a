/-
  Iosu.Bsp.ServeFrame — the message loop changes no more than what it calls.

  Between its messages the loop hands the process on. What changes it in a turn is what the
  turn's request calls, or `bspMethodGetHardwareVersion`, which looks the version up when it
  is not known (`Event.Within`). So over any run a change of the process that goes beyond a
  frame is a callback's that does (`serve_framed`), and that callback was allowed to the OPEN
  that holds the fd its message names (`serve_authorised`).
-/

import Iosu.Bsp.Policy
import Iosu.Entity.Frame

namespace Iosu.Bsp

open Iosu.Lib Iosu.Lib.Switch Iosu.Lib.Slots Iosu.Libc Iosu.Entity Iosu.Ios

variable {ε : Type}

/-- What the event stands for stays within the frame. -/
def Event.Within (x : Ext ε) (F : Frame (Process ε)) : Event (Process ε) → Prop
  | .call c => c.Within F
  | .handler .getHardwareVersion _ => ∀ b p b', bspMethodGetHardwareVersion x b = .ok (p, b') → F.rel b b'
  | _ => True

/-! ## The cases -/

section Cases

variable {x : Ext ε} {F : Frame (Process ε)}

theorem framed_start {α : Type} {h : Handler} {cr : Option U32} {p : Prog (Process ε) α} {b : Process ε}
    {g : α → Process ε} (hp : p.Framed F (Call.Within F) b g) : (start h cr p).Framed F (Event.Within x F) b g :=
  Run.framed_emit_bind fun _ => hp.mapTrace fun _ hc => hc

/-- A case that starts a request function and then hands out what it returned. -/
theorem framed_case {α : Type} {h : Handler} {cr : Option U32} {p : Prog (Process ε) α} {b : Process ε}
    {g : α → Process ε} {k : α → Ioctl ε} (hp : p.Framed F (Call.Within F) b g) (hk : ∀ a, (k a).process = g a) :
    Run.Framed F (Event.Within x F) b (start h cr p >>= fun a => (pure (k a) : Turn ε (Ioctl ε))) Ioctl.process :=
  (framed_start hp).bind fun a => Run.framed_pure (hk a)

theorem framed_sizedCase {args : IoctlArgs} {body : Ioctl ε → Turn ε (Ioctl ε)} {s : Ioctl ε}
    (hb : (body s).Framed F (Event.Within x F) s.process Ioctl.process) :
    (sizedCase args body s).Framed F (Event.Within x F) s.process Ioctl.process :=
  Run.Framed.ite (Run.framed_pure rfl) hb

theorem framed_getHardwareVersion {args : IoctlArgs} (s : Ioctl ε) :
    (caseGetHardwareVersion x args s).Framed F (Event.Within x F) s.process Ioctl.process := by
  refine framed_sizedCase ?_
  refine Run.Framed.bind (g := fun q => q.2) ?_ fun q => Run.framed_pure rfl
  refine Run.framed_emit_bind fun hw => Run.Framed.mapTrace (W := fun _ => True) ?_ fun _ _ => trivial
  exact Run.framed_lift fun q hq => hw s.process q.1 q.2 hq

end Cases

section Framed

variable [DataMem (Process ε)] {fuel : Nat} {x : Ext ε} {es : List (BspEntity (Process ε))} {F : Frame (Process ε)}

theorem ioctlCases_framed {args : IoctlArgs} {k : Case U32 (Event (Process ε)) Fault (Ioctl ε)}
    (hk : k ∈ ioctlCases fuel x es args) (s : Ioctl ε) :
    (k.body s).Framed F (Event.Within x F) s.process Ioctl.process := by
  have hkept : ∀ {α : Type} {p : Prog (Process ε) α}, p.Framed F (Call.Within F) s.process fun _ => s.process :=
    fun _ _ _ => F.refl s.process
  simp only [ioctlCases, List.mem_cons, List.not_mem_nil, or_false] at hk
  rcases hk with rfl | rfl | rfl | rfl | rfl | rfl | rfl | rfl | rfl
  · refine framed_sizedCase ((framed_start hkept).bind fun q => ?_)
    rcases q with ⟨ret, _ | version⟩
    · exact Run.framed_pure rfl
    · exact Run.framed_pure rfl
  · exact framed_getHardwareVersion s
  · exact framed_sizedCase (framed_case hkept fun _ => rfl)
  · exact framed_case (query_framed _) fun _ => rfl
  · exact framed_case (read_framed _) fun _ => rfl
  · exact framed_case (write_framed _) fun _ => rfl
  · exact framed_case (init_framed _ _) fun _ => rfl
  · exact framed_case shutdown_framed fun _ => rfl
  · exact framed_sizedCase (framed_case hkept fun _ => rfl)

/-! ## A turn -/

theorem mainIter_framed (srv : Server ε) (msg : IOSMessage) (mem : Mem) :
    (mainIter fuel x es srv msg mem).Framed F (Event.Within x F) srv.process fun p => p.1.process := by
  have hsame : ∀ {r : Turn ε (Server ε × Mem)} {srv' : Server ε} {mem' : Mem}, r.res = .ok (srv', mem') →
      srv'.process = srv.process → r.Framed F (Event.Within x F) srv.process fun p => p.1.process := by
    intro r srv' mem' hr hp _ q hq
    rw [hr] at hq
    cases hq
    show F.rel srv.process srv'.process
    rw [hp]
    exact F.refl srv.process
  rcases mainIter_cases fuel x es srv msg mem with
    ⟨-, he⟩ | ⟨r, he⟩ | ⟨fd, -, -, he⟩ | ⟨fd, -, -, -, he⟩ | ⟨fd, -, -, he⟩
  · rw [he]
    exact Run.framed_fault
  · rw [he]
    exact hsame rfl rfl
  · rw [he]
    exact hsame rfl rfl
  · rw [he]
    refine Run.framed_emit_bind fun _ => ?_
    refine Run.Framed.bind (g := Ioctl.process) ?_ fun s => ?_
    · have hd : ∀ s : Ioctl ε, (caseDefault s).Framed F (Event.Within x F) s.process Ioctl.process :=
        fun s => Run.framed_pure rfl
      exact switch_framed hd (fun k hk s => ioctlCases_framed hk s) (srv.ioctl mem)
    · rw [reply_eq]
      intro _ q hq
      cases hq
      exact F.refl s.process
  · rw [he]
    exact hsame rfl rfl

/-- What a turn calls belongs to an attribute of the entities. -/
theorem mainIter_listed {srv : Server ε} {msg : IOSMessage} {mem : Mem} {c : Call (Process ε)}
    (hc : .call c ∈ (mainIter fuel x es srv msg mem).trace) : c.Of es := by
  rcases mainIter_cases fuel x es srv msg mem with
    ⟨-, he⟩ | ⟨r, he⟩ | ⟨fd, -, -, he⟩ | ⟨fd, -, -, -, he⟩ | ⟨fd, -, -, he⟩
  · simp [he] at hc
  · simp [he] at hc
  · simp [he] at hc
  · rw [he, Run.emit_bind_trace] at hc
    rcases List.mem_cons.mp hc with hc | hc
    · cases hc
    rcases Run.mem_bind_trace.mp hc with hc | ⟨s, -, hc⟩
    · rcases mem_switch_trace hc with ⟨k, hk, s', hbody⟩ | ⟨s', hdflt⟩
      · exact (ioctlCases_requested hk hbody).listed
      · cases hdflt
    · simp [reply_trace] at hc
  · simp [he] at hc

/-- Where all that it may call stays within a frame, so does the turn. -/
theorem mainIter_rel {srv srv' : Server ε} {msg : IOSMessage} {mem mem' : Mem}
    (hversion : Stays F (bspMethodGetHardwareVersion x)) (hes : ∀ c : Call (Process ε), c.Of es → c.Within F)
    (h : (mainIter fuel x es srv msg mem).res = .ok (srv', mem')) : F.rel srv.process srv'.process := by
  refine mainIter_framed srv msg mem (fun e he => ?_) _ h
  cases e with
  | call c => exact hes c (mainIter_listed he)
  | handler hd cr =>
    cases hd with
    | getHardwareVersion => exact hversion
    | _ => trivial
  | _ => trivial

/-! ## Every run -/

/-- Where everything that a run calls is within the frame, so is the run. -/
theorem serve_framed (srv : Server ε) (arrivals : List Arrival) :
    (serve fuel x es srv arrivals).Framed (F.comap Server.process) (fun l => l.2.Within x F) srv id := by
  refine Run.framed_iter (fun srv i => ?_) arrivals
  refine Run.Framed.bind (g := fun p => p.1) ?_ fun p => Run.framed_pure rfl
  exact Run.Framed.mapTrace (F := F.comap Server.process) (W := Event.Within x F)
    (fun hW p hp => mainIter_framed srv i.msg i.mem hW p hp) fun _ hw => hw

variable (fuel x es) in
/-- The turns keep to the policy. -/
theorem serve_policy {h : Holders} {srv : Server ε} (hh : Holds h srv) (arrivals : List Arrival) :
    policy.Keeps h ((serve fuel x es srv arrivals).mapTrace MainEvent.turn) fun srv' h' => Holds h' srv' := by
  have hturn : ∀ (srv : Server ε) (i : Arrival) (h : Holders), Holds h srv →
      policy.Keeps h ((turn fuel x es srv i).mapTrace MainEvent.turn) fun srv' h' => Holds h' srv' := by
    intro srv i h hh
    unfold turn
    rw [Run.mapTrace_bind, Run.mapTrace_mapTrace]
    exact (turn_policy hh).bind fun p h' _ hh' => Monitor.keeps_pure hh'
  unfold serve
  rw [Run.mapTrace_iter]
  exact Monitor.keeps_iter (P := fun srv h => Holds h srv) hturn arrivals hh

/-- Whatever a run calls belongs to an attribute of its entities. -/
theorem serve_listed {srv : Server ε} {arrivals : List Arrival} {msg : IOSMessage} {c : Call (Process ε)}
    (hc : (msg, .call c) ∈ (serve fuel x es srv arrivals).trace) : c.Of es := by
  obtain ⟨srv', i, -, hc⟩ := Run.mem_iter_trace hc
  rcases Run.mem_bind_trace.mp hc with hc | ⟨p, -, hc⟩
  · obtain ⟨e, he, heq⟩ := List.mem_map.mp hc
    cases heq
    exact mainIter_listed he
  · cases hc

/-- Whatever a run calls is allowed to the OPEN that took the fd that the message names, and
    that was not touched since. -/
theorem serve_authorised (result : U32) (b : Process ε) (arrivals : List Arrival) {before after : List (Logged ε)}
    {msg : IOSMessage} {c : Call (Process ε)}
    (ht : (serve fuel x es (Server.boot result b) arrivals).trace = before ++ (msg, .call c) :: after) :
    ∃ (fd : Fin 0x20) (m : IOSMessage), msg.fd = (fd.val : Int) ∧ OpenedBy fd m before ∧
      bswap32 m.command = IOS_OPEN ∧ c.Allowed (bswap32 m.arg4) := by
  obtain ⟨h, hrun, -⟩ := serve_policy fuel x es (follows_boot result b).slots arrivals
  rw [Run.mapTrace_trace, ht, List.map_append, List.map_cons] at hrun
  obtain ⟨fd, m, hfd, hm, hopen, hallowed⟩ := policy_authorised hrun
  refine ⟨fd, m, hfd, ?_, hopen, hallowed⟩
  rwa [logged_turns] at hm

/-- A call that goes beyond the frame, of an attribute of the entities, and the OPEN that it
    was allowed to. -/
def Accounted (F : Frame (Process ε)) (es : List (BspEntity (Process ε))) (t : List (Logged ε)) : Prop :=
  ∃ before after msg c, t = before ++ (msg, .call c) :: after ∧ c.Of es ∧ ¬ c.Within F ∧
    ∃ (fd : Fin 0x20) (m : IOSMessage), msg.fd = (fd.val : Int) ∧ OpenedBy fd m before ∧
      bswap32 m.command = IOS_OPEN ∧ c.Allowed (bswap32 m.arg4)

/-- A run that goes beyond a frame has made such a call, if finding out the version does not. -/
theorem serve_accounted {result : U32} {b : Process ε} {arrivals : List Arrival} {srv' : Server ε}
    (hversion : ∀ b p b', bspMethodGetHardwareVersion x b = .ok (p, b') → F.rel b b')
    (hrun : (serve fuel x es (Server.boot result b) arrivals).res = .ok srv') (hchanged : ¬ F.rel b srv'.process) :
    Accounted F es (serve fuel x es (Server.boot result b) arrivals).trace := by
  obtain ⟨⟨msg, e⟩, he, hout⟩ := (serve_framed (F := F) _ arrivals).event hrun hchanged
  have hcall : ∃ c, e = .call c ∧ ¬ c.Within F := by
    cases e with
    | call c => exact ⟨c, rfl, hout⟩
    | handler h cr =>
      cases h with
      | getHardwareVersion => exact absurd hversion hout
      | _ => exact absurd trivial hout
    | _ => exact absurd trivial hout
  obtain ⟨c, rfl, hc⟩ := hcall
  obtain ⟨before, after, hsplit⟩ := List.append_of_mem he
  exact ⟨before, after, msg, c, hsplit, serve_listed he, hc, serve_authorised result b arrivals hsplit⟩

end Framed

end Iosu.Bsp
