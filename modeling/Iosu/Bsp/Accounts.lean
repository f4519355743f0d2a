/-
  Iosu.Bsp.Accounts — who answers for what a run of the message loop has changed.

  Once the hardware version is known, the loop itself changes nothing of the process: whatever
  is different at the end of a run, a callback has changed, for a client that its OPEN
  allowed it to (`changes_accounted`). So a property that the callbacks keep holds in every
  run, and a part of a register is changed by its own attributes only: a line of LT_RSTB
  moves for the clients that were granted a write of an attribute that has it
  (`resetLines_guarded`).
-/

import Iosu.Bsp.EeEntity
import Iosu.Entities.DiReset

namespace Iosu.Bsp

open Iosu.Lib Iosu.Lib.Microwire Iosu.Libc Iosu.Entity Iosu.Entities Iosu.Ios Iosu.Eeprom

variable {ε : Type}

/-! ## With the version known -/

/-- The version stays known, and what `f` shows stays as it is. -/
def knownFrame {κ : Type} (f : Process ε → κ) : Frame (Process ε) := Frame.keeping (fun b => b.bspHardwareVersion ≠ 0) f

theorem getHardwareVersion_known {x : Ext ε} {b : Process ε} (h : b.bspHardwareVersion ≠ 0) :
    bspMethodGetHardwareVersion x b = .ok ((BSP_RVAL_OK, b.bspHardwareVersion), b) := by
  unfold bspMethodGetHardwareVersion
  rw [bspM_bind_ok (bspM_get b), if_pos h]
  rfl

theorem known_stays {κ : Type} {x : Ext ε} {f : Process ε → κ} (b : Process ε) (p : BspRval × U32) (b' : Process ε)
    (h : bspMethodGetHardwareVersion x b = .ok (p, b')) : (knownFrame f).rel b b' := by
  intro hknown
  rw [getHardwareVersion_known hknown] at h
  cases h
  exact ⟨hknown, rfl⟩

section Runs

variable [DataMem (Process ε)] {κ : Type} {fuel : Nat} {x : Ext ε} {es : List (BspEntity (Process ε))} {result : U32}
  {b : Process ε} {arrivals : List Arrival} {srv' : Server ε}

/-- Whatever shows a difference at the end of a run, an allowed call has made it. -/
theorem changes_accounted (f : Process ε → κ) (hknown : b.bspHardwareVersion ≠ 0)
    (hrun : (serve fuel x es (Server.boot result b) arrivals).res = .ok srv') (hchanged : f srv'.process ≠ f b) :
    Accounted (knownFrame f) es (serve fuel x es (Server.boot result b) arrivals).trace :=
  serve_accounted known_stays hrun fun hrel => hchanged (hrel hknown).2

/-- Where all of the callbacks keep it, so does every run. -/
theorem serve_keeps {f : Process ε → κ} (hes : ∀ c : Call (Process ε), c.Of es → c.Within (knownFrame f))
    (hknown : b.bspHardwareVersion ≠ 0)
    (hrun : (serve fuel x es (Server.boot result b) arrivals).res = .ok srv') :
    srv'.process.bspHardwareVersion ≠ 0 ∧ f srv'.process = f b := by
  by_contra hchanged
  obtain ⟨before, after, msg, c, -, hof, hc, -⟩ :=
    serve_accounted known_stays hrun fun hrel : (knownFrame f).rel b srv'.process => hchanged (hrel hknown)
  exact hc (hes c hof)

end Runs

/-! ## The version and the board's configuration -/

/-- The version, once it is known, and what "BC_CONFIG" was read. -/
def boardFrame : Frame (Process ε) := knownFrame fun b => (b.bspHardwareVersion, b.bspBoardConfig)

section Board

variable {x : Ext ε}

/-- The driver has no part in them. -/
theorem callDrv_pinned {α : Type} (f : Drv ε → Res Fault (α × Drv ε)) : Stays boardFrame (callDrv f) := by
  intro b a b' h
  obtain ⟨⟨a', drv⟩, -, hq⟩ := Res.bind_eq_ok.mp h
  cases hq
  exact fun hknown => ⟨hknown, rfl⟩

theorem raise_pinned {α β : Type} (f : Fault) (k : α → BspM ε β) : Stays boardFrame (raise f >>= k) := by
  intro b a b' h
  cases h

theorem readWords_pinned (n i : Nat) (data : Vector U16 0x24) : Stays boardFrame (readWords x n i data) := by
  induction n generalizing i data with
  | zero => exact stays_pure _
  | succ n ih =>
    unfold readWords
    split
    · refine (callDrv_pinned _).bind fun q => ?_
      dsimp only
      split
      · exact stays_pure _
      · exact ih _ _
    · intro b a b' h
      cases h

theorem bcGet_pinned (config : BcConfig) : Stays boardFrame (bcGet x config) := by
  refine (callDrv_pinned _).bind fun q => ?_
  dsimp only
  split
  · exact stays_pure _
  split
  · exact stays_pure _
  refine (readWords_pinned _ _ _).bind fun q => ?_
  split
  · exact stays_pure _
  split
  · exact raise_pinned _ _
  refine (stays_modify fun b => fun hknown => ⟨hknown, rfl⟩).bind fun _ => ?_
  split
  · exact stays_pure _
  · exact stays_pure _

theorem eeCall_pinned {c : EeCall} (hc : c ≠ .bcInit) : Stays boardFrame (c.run x) := by
  cases c with
  | read inst p =>
    refine Stays.bind ((callDrv_pinned _).bind fun q => ?_) fun q => stays_pure _
    dsimp only
    split <;> exact stays_pure _
  | write inst p =>
    refine Stays.bind ((callDrv_pinned _).bind fun err => ?_) fun q => stays_pure _
    split <;> exact stays_pure _
  | control inst p =>
    refine Stays.bind ?_ fun q => stays_pure _
    unfold bspEE_control_write
    split
    · exact stays_pure _
    · refine (callDrv_pinned _).bind fun err => ?_
      split <;> exact stays_pure _
  | controlInit inst =>
    refine Stays.bind ((callDrv_pinned _).bind fun err => ?_) fun q => stays_pure _
    split
    · exact stays_pure _
    refine (callDrv_pinned _).bind fun err => ?_
    split
    · exact stays_pure _
    refine (callDrv_pinned _).bind fun err => ?_
    split <;> exact stays_pure _
  | controlShutdown inst =>
    refine Stays.bind ((callDrv_pinned _).bind fun err => ?_) fun q => stays_pure _
    split <;> exact stays_pure _
  | bcRead inst config =>
    refine Stays.bind ((bcGet_pinned config).bind fun q => ?_) fun q => stays_pure _
    dsimp only
    split <;> exact stays_pure _
  | bcInit => exact absurd rfl hc

theorem ee_pinned {cb : Callbacks (Process ε)} {c : Call (Process ε)}
    (ha : c.attribute ∈ bspEE_attributes (eeCallbacks x cb)) : c.Within boardFrame :=
  ee_within ha (fun _ _ => eeCall_pinned (by simp)) (fun _ _ => eeCall_pinned (by simp)) (fun _ => eeCall_pinned (by simp))
    (fun _ => eeCall_pinned (by simp)) (fun _ _ _ => eeCall_pinned (by simp)) fun _ _ _ => eeCall_pinned (by simp)

/-- In every run of the message loop, with the EE entity and others that leave the two alone,
    the hardware version and the console queries keep answering what they answered first. -/
theorem board_pinned [DataMem (Process ε)] {cb : Callbacks (Process ε)} {fuel : Nat} {es : List (BspEntity (Process ε))}
    {result : U32} {b : Process ε} {arrivals : List Arrival} {srv' : Server ε}
    (hes : ∀ e ∈ es, ∀ t ∈ e.pAttributes, ∀ a ∈ t,
      a ∈ bspEE_attributes (eeCallbacks x cb) ∨ ∀ c : Call (Process ε), c.attribute = a → c.Within boardFrame)
    (hknown : b.bspHardwareVersion ≠ 0)
    (hrun : (serve fuel x es (Server.boot result b) arrivals).res = .ok srv') :
    bspMethodGetHardwareVersion x srv'.process = .ok ((BSP_RVAL_OK, b.bspHardwareVersion), srv'.process) ∧
      bspGetConsoleMask srv'.process.bspBoardConfig = bspGetConsoleMask b.bspBoardConfig ∧
      bspGetConsoleType srv'.process.bspBoardConfig = bspGetConsoleType b.bspBoardConfig := by
  have hwithin : ∀ c : Call (Process ε), c.Of es → c.Within boardFrame := by
    rintro c ⟨e, he, t, ht, ha⟩
    rcases hes e he t ht c.attribute ha with hee | hkeeps
    · exact ee_pinned hee
    · exact hkeeps c rfl
  obtain ⟨hknown', hsame⟩ := serve_keeps hwithin hknown hrun
  obtain ⟨hversion, hconfig⟩ := Prod.mk.inj hsame
  rw [getHardwareVersion_known hknown', hversion, hconfig]
  exact ⟨rfl, rfl, rfl⟩

end Board

/-! ## The reset lines -/

/-- A register of the world, seen from the process. -/
def worldReg {w : Nat} (reg : Reg ε w) : Reg (Process ε) w where
  read b := reg.read b.drv.env
  write v b := { b with drv := { b.drv with env := reg.write v b.drv.env } }
  read_write v b := reg.read_write v b.drv.env

/-- An attribute of the Reset entity. -/
structure ResetLine (LT_RSTB : Reg ε 32) (a : BspAttribute (Process ε)) : Prop where
  read : a.readMethod = some (bspReset_LT_RSTB_read (worldReg LT_RSTB))
  write : a.writeMethod = some (bspReset_LT_RSTB_write (worldReg LT_RSTB))
  query : a.queryMethod = none
  init : a.initMethod = none
  shutdown : a.shutdownMethod = none

/-- It keeps to its one byte. -/
theorem ResetLine.keepsTo {LT_RSTB : Reg ε 32} {a : BspAttribute (Process ε)} (h : ResetLine LT_RSTB a)
    (hsize : a.dataSize = 1) : a.KeepsTo := by
  refine ⟨?_, ?_, ?_, ?_⟩
  · intro m hm inst p p' b hp
    rw [h.read] at hm
    cases hm
    exact filled_store hp _ (by simp [hsize]) BSP_RVAL_OK b
  · intro m hm
    rw [h.query] at hm
    cases hm
  · intro m hm inst p p' b hp
    rw [h.write] at hm
    cases hm
    have h0 : p 0 = p' 0 := hp 0 (by simp [hsize])
    unfold bspReset_LT_RSTB_write
    rw [h0]
  · intro m hm
    rw [h.init] at hm
    cases hm

/-- So tables of lines and of the EE entity's attributes are as the message loop needs them. -/
theorem source_tablesKeep {LT_RSTB : Reg ε 32} {x : Ext ε} {cb : Callbacks (Process ε)} {es : List (BspEntity (Process ε))}
    (hes : ∀ e ∈ es, ∀ t ∈ e.pAttributes, ∀ a ∈ t, (ResetLine LT_RSTB a ∧ a.dataSize = 1) ∨
      a ∈ bspEE_attributes (eeCallbacks x cb) ∨ a = { pName := none }) : TablesKeep es := by
  intro e he t ht a ha
  rcases hes e he t ht a ha with ⟨hline, hsize⟩ | hee | rfl
  · exact hline.keepsTo hsize
  · exact ee_keepsTo hee
  · refine ⟨?_, ?_, ?_, ?_⟩ <;> (intro m hm; cases hm)

/-- One that has nothing to do with the lines, nor with the version. -/
def LeavesLines (LT_RSTB : Reg ε 32) (a : BspAttribute (Process ε)) : Prop :=
  ∀ c : Call (Process ε), c.attribute = a → c.Within (knownFrame fun b => LT_RSTB.read b.drv.env)

section Lines

variable {LT_RSTB : Reg ε 32} {a : BspAttribute (Process ε)} {i : Nat}

/-- One bit of the register. -/
def lineFrame (LT_RSTB : Reg ε 32) (i : Nat) : Frame (Process ε) := knownFrame fun b => (LT_RSTB.read b.drv.env).getLsbD i

theorem lineFrame_of_register {b b' : Process ε} (h : (knownFrame fun b => LT_RSTB.read b.drv.env).rel b b') :
    (lineFrame LT_RSTB i).rel b b' := by
  intro hknown
  obtain ⟨hknown', hsame⟩ := h hknown
  exact ⟨hknown', congrArg (fun reg => BitVec.getLsbD reg i) hsame⟩

/-- Of a line's calls, only a write changes a bit, and only one under the line's mask. -/
theorem resetLine_within (h : ResetLine LT_RSTB a) {c : Call (Process ε)} (hc : c.attribute = a)
    (hwrite : ∀ inst p, c = .write inst a p → a.attributeSpecific.getLsbD i = false) : c.Within (lineFrame LT_RSTB i) := by
  subst hc
  cases c with
  | read inst a =>
    intro m hm p b ret p' b' hrun
    rw [show a.readMethod = _ from h.read] at hm
    cases hm
    cases hrun
    exact (lineFrame LT_RSTB i).refl b
  | query inst a =>
    intro m hm
    rw [show a.queryMethod = none from h.query] at hm
    cases hm
  | copyDirect a => trivial
  | copyIndirect a => trivial
  | write inst a p =>
    intro m hm b ret b' hrun hknown
    rw [show a.writeMethod = _ from h.write] at hm
    cases hm
    have hbit : a.attributeSpecific.getLsbD i = false := hwrite inst p rfl
    cases hrun
    refine ⟨hknown, ?_⟩
    show ((worldReg LT_RSTB).read ((worldReg LT_RSTB).write _ b)).getLsbD i = (LT_RSTB.read b.drv.env).getLsbD i
    rw [Reg.read_write]
    split
    · simpa [worldReg, hbit] using BitVec.lt_of_getLsbD
    · simp [worldReg, hbit]
  | init inst a p size =>
    intro m hm
    rw [show a.initMethod = none from h.init] at hm
    cases hm
  | shutdown inst a =>
    intro m hm
    rw [show a.shutdownMethod = none from h.shutdown] at hm
    cases hm

/-- In every run of the message loop, with whatever else the entities do: a bit of LT_RSTB that
    has changed was written through a line that has it, over an fd whose OPEN was granted
    a write of that line. -/
theorem resetLines_guarded [DataMem (Process ε)] {fuel : Nat} {x : Ext ε} {es : List (BspEntity (Process ε))} {result : U32}
    {b : Process ε} {arrivals : List Arrival} {srv' : Server ε}
    (hes : ∀ e ∈ es, ∀ t ∈ e.pAttributes, ∀ a ∈ t, ResetLine LT_RSTB a ∨ LeavesLines LT_RSTB a)
    (hknown : b.bspHardwareVersion ≠ 0)
    (hrun : (serve fuel x es (Server.boot result b) arrivals).res = .ok srv')
    (hchanged : (LT_RSTB.read srv'.process.drv.env).getLsbD i ≠ (LT_RSTB.read b.drv.env).getLsbD i) :
    ∃ before after msg inst a p,
      (serve fuel x es (Server.boot result b) arrivals).trace = before ++ (msg, .call (.write inst a p)) :: after ∧
      ResetLine LT_RSTB a ∧ a.attributeSpecific.getLsbD i = true ∧
      ∃ (fd : Fin 0x20) (m : IOSMessage), msg.fd = (fd.val : Int) ∧ OpenedBy fd m before ∧
        bswap32 m.command = IOS_OPEN ∧ (Call.write inst a p).Allowed (bswap32 m.arg4) := by
  obtain ⟨before, after, msg, c, hsplit, ⟨e, he, t, ht, ha⟩, hc, hopened⟩ :=
    serve_accounted (F := lineFrame LT_RSTB i) known_stays hrun fun hrel => hchanged (hrel hknown).2
  rcases hes e he t ht c.attribute ha with hline | hleaves
  · have hwritten : ∃ inst p, c = .write inst c.attribute p ∧ c.attribute.attributeSpecific.getLsbD i = true := by
      by_contra hno
      refine hc (resetLine_within hline rfl fun inst p heq => ?_)
      cases hbit : c.attribute.attributeSpecific.getLsbD i with
      | false => rfl
      | true => exact absurd ⟨inst, p, heq, hbit⟩ hno
    obtain ⟨inst, p, heq, hbit⟩ := hwritten
    rw [heq] at hsplit hopened
    exact ⟨before, after, msg, inst, c.attribute, p, hsplit, hline, hbit, hopened⟩
  · exact absurd ((hleaves c rfl).mono fun _ _ => lineFrame_of_register) hc

end Lines

/-! ## A client that drives a line -/

/-- The world is the register. -/
def lineExt : Ext U32 := Ext.quiet ⟨fun _ _ env => (BSP_RVAL_OK, env), fun env => (BSP_RVAL_OK, 1, env)⟩ 0 0

def lineEntity : BspEntity (Process U32) where
  pName := RESET
  version := 1
  instanceCount := 1
  options := BSP_EO_FLAT_INSTANCES
  pAttributes := [[{ pName := some RSTB_DIRSTB, permissions := BSP_PERMISSIONS_IOS_USER_WRITE, dataSize := 1,
                     attributeSpecific := 0x10, readMethod := some (bspReset_LT_RSTB_read (worldReg wordReg)),
                     writeMethod := some (bspReset_LT_RSTB_write (worldReg wordReg)) }]]

/-- An OPEN that may write, and a write of 1. -/
def lineArrivals : List Arrival :=
  [⟨{ openMsg with arg4 := bswap32 BSP_PERMISSIONS_IOS_USER_WRITE }, fun _ => 0⟩,
   ⟨{ consoleTypeMsg with arg0 := bswap32 BSP_IOCTL_METHOD_WRITE }, fun a =>
     (RESET ++ List.replicate 31 0 ++ RSTB_DIRSTB ++ List.replicate 21 0 ++ [1, 0, 0, 0, 1]).getD a.toNat 0⟩]

def lineProcess : Process U32 := { Process.start 0 with bspHardwareVersion := 0x26100028 }

instance : DataMem (Process U32) := ⟨fun _ _ => 0⟩

theorem lineEntity_resetLine : ∀ e ∈ [lineEntity], ∀ t ∈ e.pAttributes, ∀ a ∈ t,
    ResetLine wordReg a ∨ LeavesLines wordReg a := by
  intro e he t ht a ha
  obtain rfl := List.mem_singleton.mp he
  obtain rfl := List.mem_singleton.mp ht
  obtain rfl := List.mem_singleton.mp ha
  exact Or.inl ⟨rfl, rfl, rfl, rfl, rfl⟩

/-- Bit 4 of the register has changed. -/
theorem lineArrivals_guarded :
    ∃ srv', (serve 0 lineExt [lineEntity] (Server.boot 0 lineProcess) lineArrivals).res = .ok srv' ∧
      ∃ before after msg inst a p,
        (serve 0 lineExt [lineEntity] (Server.boot 0 lineProcess) lineArrivals).trace =
          before ++ (msg, .call (.write inst a p)) :: after ∧
        ResetLine wordReg a ∧ a.attributeSpecific.getLsbD 4 = true ∧
        ∃ (fd : Fin 0x20) (m : IOSMessage), msg.fd = (fd.val : Int) ∧ OpenedBy fd m before ∧
          bswap32 m.command = IOS_OPEN ∧ (Call.write inst a p).Allowed (bswap32 m.arg4) :=
  ⟨_, rfl, resetLines_guarded lineEntity_resetLine (by decide) rfl (by decide)⟩

/-- So has what the process's world is. -/
theorem lineArrivals_accounted :
    Accounted (knownFrame fun b => b.drv.env) [lineEntity]
      (serve 0 lineExt [lineEntity] (Server.boot 0 lineProcess) lineArrivals).trace :=
  changes_accounted (fun b => b.drv.env) (by decide) rfl (by decide)

/-- A board whose version is known. -/
def knownBoard : Process Device := { blankBoard with bspHardwareVersion := 0x26100028 }

/-- Its SEEPROM is programmed, and it still answers for its version and its configuration. -/
theorem programming_pins : ∃ srv',
    (serve 0 (Ext.quiet seeprom 0 0) eeAlone (Server.boot 0 knownBoard) programming).res = .ok srv' ∧
      srv'.process.drv.env.store.mem 0 = 0xCAFE ∧
      bspMethodGetHardwareVersion (Ext.quiet seeprom 0 0) srv'.process = .ok ((BSP_RVAL_OK, 0x26100028), srv'.process) ∧
      bspGetConsoleMask srv'.process.bspBoardConfig = bspGetConsoleMask BcConfig.zero ∧
      bspGetConsoleType srv'.process.bspBoardConfig = bspGetConsoleType BcConfig.zero := by
  have hstored :
      Stored 0xCAFE (serve 0 (Ext.quiet seeprom 0 0) eeAlone (Server.boot 0 knownBoard) programming).res = true := by
    decide +kernel
  obtain ⟨srv', hrun, hword⟩ := stored_iff.mp hstored
  have hknown : knownBoard.bspHardwareVersion ≠ 0 := by decide
  exact ⟨srv', hrun, hword, board_pinned (fun e he t ht a ha => Or.inl (eeAlone_attributes e he t ht a ha)) hknown hrun⟩

end Iosu.Bsp
