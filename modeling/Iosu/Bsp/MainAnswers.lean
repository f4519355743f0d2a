/-
  Iosu.Bsp.MainAnswers — what the clients of /dev/bsp are answered, over whole runs of `main`.

  Each case of the switch sets `result` to what its handler returned, and none ends in a
  `break`: the default has the last word. So no client is ever answered with what a handler
  returned. `answering` is the monitor of that: its state is `result`, and each command has
  its own answers (`answersTo`). `main_answers`: it accepts every run of `main`; whatever is
  asked, an IOCTL is answered with IOS_ERROR_INVALID or IOS_ERROR_NOEXISTS, and any message
  with one of these or with what `result` held before the first message came.
-/

import Iosu.Bsp.MainTrace

namespace Iosu.Bsp

open Iosu.Lib Iosu.Lib.Switch Iosu.Libc Iosu.Entity Iosu.Ios

variable {ε : Type}

/-! ## The monitor -/

/-- What a message may be answered with, when `result` is left by the message before. -/
def answersTo (msg : IOSMessage) (result : U32) : List U32 :=
  if bswap32 msg.command = IOS_CLOSE then [IOS_ERROR_NOEXISTS, result]
  else if bswap32 msg.command = IOS_IOCTL then [IOS_ERROR_NOEXISTS, IOS_ERROR_INVALID]
  else if bswap32 msg.command = IOS_OPEN then [result]
  else [IOS_ERROR_INVALID]

def answering : Monitor (MainEvent ε) U32
  | result, .resourceReply msg r => if r ∈ answersTo msg result then some r else none
  | result, _ => some result

/-! ## A turn -/

section Turn

variable [DataMem (Process ε)] {fuel : Nat} {x : Ext ε} {es : List (BspEntity (Process ε))} {srv srv' : Server ε}
  {msg : IOSMessage} {mem mem' : Mem}

/-- Without a `break` the run comes to the default, whatever the selected case. -/
theorem runFrom_default {κ ε φ σ : Type} {dflt : σ → Run ε φ σ} {cases : List (Case κ ε φ σ)}
    (hc : ∀ c ∈ cases, c.breaks = false) {s s' : σ} (h : (runFrom dflt cases s).res = .ok s') :
    ∃ s₁, (dflt s₁).res = .ok s' := by
  induction cases generalizing s with
  | nil => exact ⟨s, h⟩
  | cons c cs ih =>
    obtain ⟨s₁, -, hrest⟩ := Run.bind_res_ok.mp h
    rw [hc c List.mem_cons_self, if_neg Bool.false_ne_true] at hrest
    exact ih (fun c' hc' => hc c' (List.mem_cons_of_mem c hc')) hrest

theorem switch_result {cmd : U32} {args : IoctlArgs} {s s' : Ioctl ε}
    (h : (switch cmd (ioctlCases fuel x es args) caseDefault s).res = .ok s') : s'.result = IOS_ERROR_INVALID := by
  obtain ⟨s₁, hd⟩ := runFrom_default
    (fun c hc => ioctlCases_fall fuel x es args ((List.dropWhile_sublist _).mem hc)) h
  cases hd
  rfl

/-- What a turn leaves in `result`. -/
theorem mainIter_answersTo (h : (mainIter fuel x es srv msg mem).res = .ok (srv', mem')) :
    srv'.result ∈ answersTo msg srv.result := by
  unfold answersTo
  by_cases hclose : bswap32 msg.command = IOS_CLOSE
  · rw [if_pos hclose]
    rcases activeSlot_cases srv.bsp_fdtable msg.fd with ⟨-, hs⟩ | ⟨-, hs⟩ | ⟨fd, -, -, hs⟩
    · rw [mainIter_badFd (Or.inl hclose) hs] at h
      cases h
    · rw [mainIter_noSession (Or.inl hclose) hs, reply_res] at h
      cases h
      simp
    · rw [mainIter_close hclose hs, Run.emit_bind_res, reply_res] at h
      cases h
      simp
  rw [if_neg hclose]
  by_cases hioctl : bswap32 msg.command = IOS_IOCTL
  · rw [if_pos hioctl]
    rcases activeSlot_cases srv.bsp_fdtable msg.fd with ⟨-, hs⟩ | ⟨-, hs⟩ | ⟨fd, -, -, hs⟩
    · rw [mainIter_badFd (Or.inr hioctl) hs] at h
      cases h
    · rw [mainIter_noSession (Or.inr hioctl) hs, reply_res] at h
      cases h
      simp
    · obtain ⟨s, hsw⟩ := switch_of_turn hioctl hs h
      rw [turn_of_switch hioctl hs hsw] at h
      cases h
      simp [switch_result hsw]
  rw [if_neg hioctl]
  by_cases hopen : bswap32 msg.command = IOS_OPEN
  · rw [if_pos hopen]
    cases hs : freeSlot srv.bsp_fdtable with
    | none =>
      rw [mainIter_openFull hopen hs, reply_res] at h
      cases h
      simp
    | some fd =>
      rw [mainIter_open hopen hs, Run.emit_bind_res, reply_res] at h
      cases h
      simp
  · rw [if_neg hopen]
    rw [mainIter_other hclose hioctl hopen, reply_res] at h
    cases h
    simp

end Turn

/-! ## Every run of `main` -/

/-- The events that are no replies are nothing to the monitor. -/
theorem answering_quiet {ι : Type} {f : ι → MainEvent ε} (hf : ∀ r e, answering r (f e) = some r) (result : U32)
    (t : List ι) : answering.run result (t.map f) = some result := by
  induction t with
  | nil => rfl
  | cons e t ih =>
    rw [List.map_cons, Monitor.run_cons, hf, Option.bind_some]
    exact ih

theorem turn_answering [DataMem (Process ε)] {fuel : Nat} {x : Ext ε} {es : List (BspEntity (Process ε))}
    {srv : Server ε} {msg : IOSMessage} {mem : Mem} {result : U32} (h : srv.result = result) :
    answering.Keeps result ((mainIter fuel x es srv msg mem).mapTrace fun e => MainEvent.turn (msg, e)) fun p r =>
      p.1.result ∈ answersTo msg result ∧ r = result := by
  subst h
  exact Monitor.keeps_mapTrace (answering_quiet (fun _ _ => rfl) _ _) fun p hp => ⟨mainIter_answersTo hp, rfl⟩

section Main

variable [DataMem (Process ε)] (x : MainExt ε) (fuel : Nat) (es : List (BspEntity (Process ε)))

theorem mainLoop_answering (id : U32) (turns : Nat) {srv : Server ε} {result : U32} (h : srv.result = result) :
    answering.Keeps result (Traced.mainLoop x fuel es id turns srv) fun _ _ => True := by
  induction turns generalizing srv result with
  | zero => exact Monitor.keeps_spin
  | succ turns ih =>
    unfold Traced.mainLoop
    rcases x.iosReceiveMessage id srv.process.drv.env with ⟨ret, msg, mem, env⟩
    refine Monitor.keeps_emit_bind (M := answering) rfl ?_
    dsimp only
    split
    · exact Monitor.keeps_pure trivial
    refine Monitor.Keeps.bind (turn_answering h) ?_
    rintro ⟨srv', mem'⟩ r - ⟨hr, rfl⟩
    have hstep : answering r (MainEvent.resourceReply (ε := ε) msg srv'.result) = some srv'.result := if_pos hr
    exact Monitor.keeps_emit_bind hstep (ih rfl)

theorem main_answering (turns : Nat) (result : U32) (b : Process ε) :
    answering.Keeps result (Traced.main x fuel turns es result b) fun _ _ => True := by
  have hquiet : ∀ e : MainEvent ε, e.ofLoop = false → answering result e = some result := by
    intro e he
    cases e with
    | resourceReply msg r => cases he
    | _ => rfl
  exact main_keeps hquiet (fun id b => mainLoop_answering x fuel es id turns rfl) b

end Main

/-- The answers that any client can ever have, by what `result` held to begin with. -/
structure AnsweredFrom (result : U32) (msg : IOSMessage) (r : U32) : Prop where
  known : r = result ∨ r = IOS_ERROR_INVALID ∨ r = IOS_ERROR_NOEXISTS
  ioctl : bswap32 msg.command = IOS_IOCTL → r = IOS_ERROR_INVALID ∨ r = IOS_ERROR_NOEXISTS

theorem mem_answersTo {msg : IOSMessage} {result r : U32} (h : r ∈ answersTo msg result) :
    (r = result ∨ r = IOS_ERROR_INVALID ∨ r = IOS_ERROR_NOEXISTS) ∧
      (bswap32 msg.command = IOS_IOCTL → r = IOS_ERROR_INVALID ∨ r = IOS_ERROR_NOEXISTS) := by
  unfold answersTo at h
  by_cases hioctl : bswap32 msg.command = IOS_IOCTL
  · rw [hioctl, if_neg ioctl_ne_close, if_pos rfl] at h
    rcases List.mem_pair.mp h with rfl | rfl <;> simp
  refine ⟨?_, fun hc => absurd hc hioctl⟩
  rw [if_neg hioctl] at h
  split at h
  · rcases List.mem_pair.mp h with rfl | rfl <;> simp
  · split at h
    · exact Or.inl (List.mem_singleton.mp h)
    · exact Or.inr (Or.inl (List.mem_singleton.mp h))

/-- In every run of `main`, whatever the handlers of the entities return. -/
theorem main_answers [DataMem (Process ε)] (x : MainExt ε) (fuel turns : Nat) (es : List (BspEntity (Process ε)))
    (result : U32) (b : Process ε) :
    answering.Keeps result (Traced.main x fuel turns es result b) (fun _ _ => True) ∧
      ∀ before after msg r, (Traced.main x fuel turns es result b).trace = before ++ .resourceReply msg r :: after →
        AnsweredFrom result msg r := by
  have hkeeps := main_answering x fuel es turns result b
  refine ⟨hkeeps, fun before after msg r ht => ?_⟩
  obtain ⟨final, hrun, -⟩ := hkeeps
  rw [ht] at hrun
  obtain ⟨r₁, r₂, hbefore, hstep, -⟩ := Monitor.step_of_split hrun
  -- what `result` has come to hold
  have hheld : r₁ = result ∨ r₁ = IOS_ERROR_INVALID ∨ r₁ = IOS_ERROR_NOEXISTS := by
    refine Monitor.run_inv (P := fun r => r = result ∨ r = IOS_ERROR_INVALID ∨ r = IOS_ERROR_NOEXISTS) ?_ (Or.inl rfl) hbefore
    intro r₁ e r₂ h₁ hstep
    cases e with
    | resourceReply msg r =>
      simp only [answering] at hstep
      split at hstep <;> cases hstep
      rename_i hmem
      rcases (mem_answersTo hmem).1 with rfl | h | h
      · exact h₁
      · exact Or.inr (Or.inl h)
      · exact Or.inr (Or.inr h)
    | _ => exact (Option.some.inj hstep) ▸ h₁
  simp only [answering] at hstep
  split at hstep
  · rename_i hmem
    obtain ⟨hknown, hioctl⟩ := mem_answersTo hmem
    refine ⟨?_, hioctl⟩
    rcases hknown with rfl | h | h
    · exact hheld
    · exact Or.inr (Or.inl h)
    · exact Or.inr (Or.inr h)
  · cases hstep

end Iosu.Bsp
