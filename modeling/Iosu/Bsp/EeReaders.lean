/-
  Iosu.Bsp.EeReaders — clients that only read the SEEPROM.

  A read of "access" or of "bc" runs the bit-banging driver, and so moves the pins and the
  device behind them. But it leaves the machine that stands for the board (`EeMachine`), and of
  a process the others see no more than this machine, the version and the board's configuration
  (`EeAlike`). So whatever the clients ask for that were granted no write, init or shutdown of
  the EE entity, and however it is mixed with what the others ask for, these are handed what
  they are handed without it, up to an IOCTL that the server does not get beyond
  (`readers_unseen`). A global init is no way around the grants here: it stops at "access",
  which has no init.
-/

import Iosu.Bsp.Accounts
import Iosu.Bsp.Isolation

namespace Iosu.Bsp

open Iosu.Lib Iosu.Lib.Microwire Iosu.Lib.Microwire.Device Iosu.Libc Iosu.Entity Iosu.Entities Iosu.Ios Iosu.Eeprom

variable {ε : Type}

/-- An access that grants no more of the EE entity than its reads. -/
structure OnlyReads (access : U32) : Prop where
  external : access &&& BSP_PERMISSIONS_INTERNAL = 0
  write : access &&& BSP_PERMISSIONS_IOS_SUPV &&& (Op.write fun _ => 0).classBits = 0
  init : access &&& BSP_PERMISSIONS_IOS_SUPV &&& (Op.init none).classBits = 0
  shutdown : access &&& BSP_PERMISSIONS_IOS_SUPV &&& Op.shutdown.classBits = 0

theorem onlyReads_iff (access : U32) : OnlyReads access ↔ access &&& BSP_PERMISSIONS_INTERNAL = 0 ∧
    access &&& BSP_PERMISSIONS_IOS_SUPV &&& (Op.write fun _ => 0).classBits = 0 ∧
    access &&& BSP_PERMISSIONS_IOS_SUPV &&& (Op.init none).classBits = 0 ∧
    access &&& BSP_PERMISSIONS_IOS_SUPV &&& Op.shutdown.classBits = 0 :=
  ⟨fun h => ⟨h.external, h.write, h.init, h.shutdown⟩, fun h => ⟨h.1, h.2.1, h.2.2.1, h.2.2.2⟩⟩

instance : DecidablePred OnlyReads := fun access => decidable_of_iff' _ (onlyReads_iff access)

/-- One machine stands for both, and the version, once it is known, and the configuration are
    the same. -/
structure EeAlike (dev : ε → Device) (b b' : Process ε) : Prop where
  known : b.bspHardwareVersion ≠ 0
  version : b.bspHardwareVersion = b'.bspHardwareVersion
  config : b.bspBoardConfig = b'.bspBoardConfig
  machine : ∃ m, Stands dev b m ∧ Stands dev b' m

/-! ## The entity's calls -/

section Calls

variable {x : Ext ε} {dev : ε → Device} {b b' : Process ε}

/-- A call answers the same in both, and leaves them alike. -/
theorem eeCall_alike (hx : Board x dev) {c : EeCall} (hc : c ≠ .bcInit) (h : EeAlike dev b b') :
    Res.Rel (SameRet (EeAlike dev)) (c.run x b) (c.run x b') := by
  obtain ⟨m, hm, hm'⟩ := h.machine
  have hknown' : b'.bspHardwareVersion ≠ 0 := h.version ▸ h.known
  refine ((run_follows hx hm c).common (run_follows hx hm' c)).imp ?_
  rintro ⟨answer, b₁⟩ ⟨answer', b₁'⟩ hrun hrun' ⟨⟨answer₀, m'⟩, ⟨rfl, hs⟩, rfl, hs'⟩
  obtain ⟨hknown₁, hsame⟩ := eeCall_pinned hc b _ b₁ hrun h.known
  obtain ⟨-, hsame'⟩ := eeCall_pinned hc b' _ b₁' hrun' hknown'
  obtain ⟨hversion, hconfig⟩ := Prod.mk.inj hsame
  obtain ⟨hversion', hconfig'⟩ := Prod.mk.inj hsame'
  exact ⟨rfl, hknown₁, (hversion.trans h.version).trans hversion'.symm, (hconfig.trans h.config).trans hconfig'.symm,
    m', hs, hs'⟩

/-- One that leaves the machine leaves a process that is alike. -/
theorem eeCall_leaves (hx : Board x dev) {c : EeCall} (hc : c ≠ .bcInit)
    (hm : ∀ (m : EeMachine) a m', m.run c = .ok (a, m') → m' = m) : Stays (leaving (EeAlike dev)) (c.run x) := by
  intro b a b₁ hrun b' h
  obtain ⟨m, hb, hb'⟩ := h.machine
  obtain ⟨hknown, hsame⟩ := eeCall_pinned hc b a b₁ hrun h.known
  obtain ⟨hversion, hconfig⟩ := Prod.mk.inj hsame
  have hrel := run_follows hx hb c
  rw [hrun] at hrel
  cases hmachine : m.run c with
  | ok q =>
    obtain ⟨a', m'⟩ := q
    rw [hmachine] at hrel
    have hsame : m' = m := hm m a' m' hmachine
    exact ⟨hknown, hversion.trans h.version, hconfig.trans h.config, m, hsame ▸ hrel.2, hb'⟩
  | fault f =>
    rw [hmachine] at hrel
    exact absurd hrel id
  | spin =>
    rw [hmachine] at hrel
    exact absurd hrel id

theorem read_leaves (hx : Board x dev) (inst : U32) (p : Buf) :
    Stays (leaving (EeAlike dev)) ((EeCall.read inst p).run x) := by
  refine eeCall_leaves hx (by simp) fun m a m' h => ?_
  exact EeMachine.of_whenOpen (P := fun n => n = m) h rfl rfl

theorem bcRead_leaves (hx : Board x dev) (inst : U32) (config : BcConfig) :
    Stays (leaving (EeAlike dev)) ((EeCall.bcRead inst config).run x) := by
  refine eeCall_leaves hx (by simp) fun m a m' h => ?_
  simp only [EeMachine.run] at h
  split at h
  · obtain ⟨q, -, hq⟩ := Res.bind_eq_ok.mp h
    cases hq
    rfl
  · cases h
    rfl

end Calls

/-! ## The entity's attributes -/

section Attributes

variable {x : Ext ε} {dev : ε → Device} {cb : Callbacks (Process ε)} {c : Call (Process ε)}

/-- The answers of the functions themselves, before they are written to the buffer. -/
theorem alike_answer {α : Type} {R : Process ε → Process ε → Prop} {f : BspM ε α} {g : α → EeAnswer}
    (hg : Function.Injective g) {b b' : Process ε}
    (h : Res.Rel (SameRet R) ((f >>= fun a => (pure (g a) : BspM ε EeAnswer)) b)
      ((f >>= fun a => (pure (g a) : BspM ε EeAnswer)) b')) : Res.Rel (SameRet R) (f b) (f b') := by
  rw [bspM_bind, bspM_bind] at h
  cases hf : f b <;> cases hf' : f b' <;> rw [hf, hf'] at h <;> first
    | exact ⟨hg h.1, h.2⟩
    | exact h

theorem ee_respects [DataMem (Process ε)] (hx : Board x dev) (ha : c.attribute ∈ bspEE_attributes (eeCallbacks x cb)) :
    c.Respects (EeAlike dev) := by
  simp only [bspEE_attributes, List.mem_cons, List.not_mem_nil, or_false] at ha
  cases c with
  | read inst a =>
    change a = _ ∨ a = _ ∨ a = _ at ha
    rcases ha with rfl | rfl | rfl
    · intro m hm p b b' h
      cases hm
      have hcall := alike_answer (f := bspEE_access_read x inst p) (g := fun q => .data q.1 q.2)
        (fun _ _ hq => Prod.ext (EeAnswer.data.inj hq).1 (EeAnswer.data.inj hq).2)
        (eeCall_alike hx (c := .read inst p) (by simp) h)
      refine hcall.bind ?_
      rintro ⟨⟨ret, q⟩, b₁⟩ ⟨⟨ret', q'⟩, b₁'⟩ ⟨heq, hR⟩
      cases heq
      exact ⟨rfl, rfl, hR⟩
    · intro m hm
      cases hm
    · intro m hm p b b' h
      cases hm
      have hcall := alike_answer (f := bspEE_bc_read x inst (BcConfig.load p)) (g := fun q => .config q.1 q.2)
        (fun _ _ hq => Prod.ext (EeAnswer.config.inj hq).1 (EeAnswer.config.inj hq).2)
        (eeCall_alike hx (c := .bcRead inst (BcConfig.load p)) (by simp) h)
      refine hcall.bind ?_
      rintro ⟨⟨ret, q⟩, b₁⟩ ⟨⟨ret', q'⟩, b₁'⟩ ⟨heq, hR⟩
      cases heq
      exact ⟨rfl, rfl, hR⟩
  | query inst a =>
    change a = _ ∨ a = _ ∨ a = _ at ha
    rcases ha with rfl | rfl | rfl <;> intro m hm <;> cases hm
  | copyDirect a => trivial
  | copyIndirect a =>
    change a = _ ∨ a = _ ∨ a = _ at ha
    have hnone : (0 : U32) &&& BSP_AO_QUERY_DATA_INDIRECT = 0 := by decide
    have hglobal : BSP_AO_INIT_GLOBAL &&& BSP_AO_QUERY_DATA_INDIRECT = 0 := by decide
    rcases ha with rfl | rfl | rfl
    · exact fun hindirect => absurd hnone hindirect
    · exact fun hindirect => absurd hglobal hindirect
    · exact fun hindirect => absurd hnone hindirect
  | write inst a p =>
    change a = _ ∨ a = _ ∨ a = _ at ha
    rcases ha with rfl | rfl | rfl
    · intro m hm b b' h
      cases hm
      exact alike_answer (fun _ _ hq => EeAnswer.rval.inj hq) (eeCall_alike hx (c := .write inst p) (by simp) h)
    · intro m hm b b' h
      cases hm
      exact alike_answer (fun _ _ hq => EeAnswer.rval.inj hq) (eeCall_alike hx (c := .control inst p) (by simp) h)
    · intro m hm
      cases hm
  | init inst a p size =>
    change a = _ ∨ a = _ ∨ a = _ at ha
    rcases ha with rfl | rfl | rfl
    · intro m hm
      cases hm
    · intro m hm b b' h
      cases hm
      exact alike_answer (fun _ _ hq => EeAnswer.rval.inj hq) (eeCall_alike hx (c := .controlInit inst) (by simp) h)
    · intro m hm
      cases hm
  | shutdown inst a =>
    change a = _ ∨ a = _ ∨ a = _ at ha
    rcases ha with rfl | rfl | rfl
    · intro m hm
      cases hm
    · intro m hm b b' h
      cases hm
      exact alike_answer (fun _ _ hq => EeAnswer.rval.inj hq) (eeCall_alike hx (c := .controlShutdown inst) (by simp) h)
    · intro m hm
      cases hm

/-- A global init never gets beyond "access". -/
theorem ee_not_global {a : BspAttribute (Process ε)} {pre post : List (BspAttribute (Process ε))}
    (hlive : live (bspEE_attributes (eeCallbacks x cb)) = pre ++ a :: post) (hpre : ∀ b ∈ pre, b.optsIn = true)
    (ha : a.optsIn = true) : False := by
  cases pre with
  | nil =>
    obtain ⟨rfl, -⟩ := List.cons.inj hlive
    cases ha
  | cons b pre =>
    obtain ⟨rfl, -⟩ := List.cons.inj hlive
    cases hpre _ List.mem_cons_self

/-- What such an access allows of the entity is a read, and that leaves what the others see. -/
theorem ee_silent [DataMem (Process ε)] (hx : Board x dev) {access : U32} (haccess : OnlyReads access)
    (ha : c.attribute ∈ bspEE_attributes (eeCallbacks x cb))
    (hc : access &&& BSP_PERMISSIONS_INTERNAL ≠ 0 ∨ access &&& c.attribute.permissions &&& c.classBits ≠ 0 ∨
      ∃ pre post, live (bspEE_attributes (eeCallbacks x cb)) = pre ++ c.attribute :: post ∧ (∀ b ∈ pre, b.optsIn = true) ∧
        c.attribute.optsIn = true) : c.Within (leaving (EeAlike dev)) := by
  have hperm : c.attribute.permissions = BSP_PERMISSIONS_IOS_SUPV := by
    simp only [bspEE_attributes, List.mem_cons, List.not_mem_nil, or_false] at ha
    rcases ha with h | h | h <;> rw [h]
  have hclass : access &&& BSP_PERMISSIONS_IOS_SUPV &&& c.classBits ≠ 0 := by
    rcases hc with hint | hbits | ⟨pre, post, hlive, hpre, hopts⟩
    · exact absurd haccess.external hint
    · rwa [hperm] at hbits
    · exact absurd hopts fun _ => ee_not_global hlive hpre hopts
  cases c with
  | read inst a =>
    simp only [bspEE_attributes, List.mem_cons, List.not_mem_nil, or_false] at ha
    change a = _ ∨ a = _ ∨ a = _ at ha
    rcases ha with rfl | rfl | rfl
    · intro m hm p b ret p' b' h
      cases hm
      obtain ⟨⟨⟨ret, q⟩, b₁⟩, hrun, hq⟩ := Res.bind_eq_ok.mp h
      cases hq
      exact stays_answer (read_leaves hx inst p) b _ b' hrun
    · intro m hm
      cases hm
    · intro m hm p b ret p' b' h
      cases hm
      obtain ⟨⟨⟨ret, q⟩, b₁⟩, hrun, hq⟩ := Res.bind_eq_ok.mp h
      cases hq
      exact stays_answer (bcRead_leaves hx inst (BcConfig.load p)) b _ b' hrun
  | query inst a =>
    simp only [bspEE_attributes, List.mem_cons, List.not_mem_nil, or_false] at ha
    change a = _ ∨ a = _ ∨ a = _ at ha
    rcases ha with rfl | rfl | rfl <;> intro m hm <;> cases hm
  | copyDirect a => trivial
  | copyIndirect a => trivial
  | write inst a p => exact absurd haccess.write hclass
  | init inst a p size => exact absurd haccess.init hclass
  | shutdown inst a => exact absurd haccess.shutdown hclass

end Attributes

/-! ## Every run -/

section Runs

variable [DataMem (Process ε)] {x : Ext ε} {dev : ε → Device} {cb : Callbacks (Process ε)}
  {es : List (BspEntity (Process ε))}

/-- The EE entity's table, or one with nothing but what is the same in processes that are alike
    and leaves them so. -/
def EeTables (x : Ext ε) (dev : ε → Device) (cb : Callbacks (Process ε)) (es : List (BspEntity (Process ε))) : Prop :=
  ∀ e ∈ es, ∀ t ∈ e.pAttributes, t = bspEE_attributes (eeCallbacks x cb) ∨
    ∀ a ∈ t, ∀ c : Call (Process ε), c.attribute = a → c.Respects (EeAlike dev) ∧ c.Within (leaving (EeAlike dev))

theorem ee_isolated (hx : Board x dev) (hes : EeTables x dev cb es) : Isolated x es (EeAlike dev) OnlyReads where
  calls := by
    rintro c ⟨e, he, t, ht, ha⟩
    rcases hes e he t ht with rfl | hplain
    · exact ee_respects hx ha
    · exact (hplain c.attribute ha c rfl).1
  version := by
    intro b b' h
    rw [getHardwareVersion_known h.known, getHardwareVersion_known (h.version ▸ h.known), h.version]
    exact ⟨rfl, h⟩
  consoleMask := fun b b' h => by rw [h.config]
  consoleType := fun b b' h => by rw [h.config]
  silent := by
    intro access c haccess hc
    obtain ⟨e, he, t, ht, ha, hplaced⟩ := hc.placed
    rcases hes e he t ht with rfl | hplain
    · exact ee_silent hx haccess ha hplaced
    · exact (hplain c.attribute ha c rfl).2
  silentVersion := by
    intro b q b₁ h b' hR
    rw [getHardwareVersion_known hR.known] at h
    cases h
    exact hR

/-- On a board whose version is known: over any messages, in any order, what is seen of the
    messages of the others begins what is seen of them when the clients that were granted only
    reads of the EE entity send no IOCTL at all. It is all of that, unless the server does not
    get beyond an IOCTL of theirs. -/
theorem readers_unseen (hx : Board x dev) (hes : EeTables x dev cb es) (fuel : Nat) (result : U32) {b : Process ε}
    {m : EeMachine} (hb : Stands dev b m) (hknown : b.bspHardwareVersion ≠ 0) (arrivals : List Arrival) :
    Run.shown (seenTurn fuel x es) (Hidden OnlyReads) (Server.boot result b) arrivals <+:
        (Run.iter (seenTurn fuel x es) (Server.boot result b)
          (Run.without (seenTurn fuel x es) (Hidden OnlyReads) (Server.boot result b) arrivals)).trace ∧
      (Run.stopsHidden (seenTurn fuel x es) (Hidden OnlyReads) (Server.boot result b) arrivals = false →
        Run.shown (seenTurn fuel x es) (Hidden OnlyReads) (Server.boot result b) arrivals =
          (Run.iter (seenTurn fuel x es) (Server.boot result b)
            (Run.without (seenTurn fuel x es) (Hidden OnlyReads) (Server.boot result b) arrivals)).trace) := by
  have hboot : LooksSame (EeAlike dev) (Server.boot result b) (Server.boot result b) :=
    ⟨rfl, hknown, rfl, rfl, m, hb, hb⟩
  exact (ee_isolated hx hes).unwinds.unseen arrivals hboot

end Runs

/-! ## A reader and another client -/

/-- A reader opens fd 0, and a client that may also initialise opens fd 1. This one
    initialises the control; then both read a halfword. -/
def twoReads : List Arrival :=
  [opening BSP_PERMISSIONS_IOS_SUPV_READ, opening (BSP_PERMISSIONS_IOS_SUPV_READ ||| BSP_PERMISSIONS_IOS_SUPV_INIT),
    eeIoctl 1 BSP_IOCTL_METHOD_INIT (eeRequest (cstr "control") (Buf.ofU32 0)),
    eeIoctl 0 BSP_IOCTL_METHOD_READ (eeRequest (cstr "access") [0, 0]),
    eeIoctl 1 BSP_IOCTL_METHOD_READ (eeRequest (cstr "access") [0, 0])]

theorem eeAlone_tables : EeTables (Ext.quiet seeprom 0 0) id default eeAlone := by
  intro e he t ht
  obtain rfl := List.mem_singleton.mp he
  exact Or.inl (List.mem_singleton.mp ht)

/-- A board whose version is known, and a SEEPROM of one word over and over. -/
def wordBoard : Process Device :=
  { Process.start (Device.fresh (fun _ => 0xCAFE) false) with bspHardwareVersion := 0x26100028 }

theorem wordBoard_stands : Stands id wordBoard ⟨.uninitialised, ⟨fun _ => 0xCAFE, false⟩, false⟩ :=
  ⟨rfl, Device.fresh_atRest (fun _ => 0xCAFE) false, rfl, rfl⟩

/-- The reader's IOCTL is the fourth one, and the other client, which is handed the same
    without it, reads the halfword. -/
theorem twoReads_unseen :
    (Run.without (seenTurn 0 (Ext.quiet seeprom 0 0) eeAlone) (Hidden OnlyReads) (Server.boot 0 wordBoard) twoReads).map
        Arrival.msg = (twoReads.take 3 ++ twoReads.drop 4).map Arrival.msg ∧
      Run.shown (seenTurn 0 (Ext.quiet seeprom 0 0) eeAlone) (Hidden OnlyReads) (Server.boot 0 wordBoard) twoReads =
        (Run.iter (seenTurn 0 (Ext.quiet seeprom 0 0) eeAlone) (Server.boot 0 wordBoard)
          (Run.without (seenTurn 0 (Ext.quiet seeprom 0 0) eeAlone) (Hidden OnlyReads) (Server.boot 0 wordBoard)
            twoReads)).trace ∧
      (Run.shown (seenTurn 0 (Ext.quiet seeprom 0 0) eeAlone) (Hidden OnlyReads) (Server.boot 0 wordBoard)
        twoReads).getLast?.map (fun seen => seen.mem 0x100 ++ seen.mem 0x101) = some 0xCAFE := by
  refine ⟨?_, (readers_unseen seeprom_board eeAlone_tables 0 0 wordBoard_stands (by decide) twoReads).2 ?_, ?_⟩
  · decide +kernel
  · decide +kernel
  · decide +kernel

/-- And so it is where both go on to read once more. -/
theorem fourReads_unseen :
    Run.shown (seenTurn 0 (Ext.quiet seeprom 0 0) eeAlone) (Hidden OnlyReads) (Server.boot 0 wordBoard)
        (twoReads ++ twoReads.drop 3) =
      (Run.iter (seenTurn 0 (Ext.quiet seeprom 0 0) eeAlone) (Server.boot 0 wordBoard)
        (Run.without (seenTurn 0 (Ext.quiet seeprom 0 0) eeAlone) (Hidden OnlyReads) (Server.boot 0 wordBoard)
          (twoReads ++ twoReads.drop 3))).trace := by
  have hsame : EeAlike id wordBoard wordBoard := ⟨by decide, rfl, rfl, _, wordBoard_stands, wordBoard_stands⟩
  exact (hidden_clients_unseen (ee_isolated seeprom_board eeAlone_tables) 0 0 hsame _).2 (by decide +kernel)

end Iosu.Bsp
