/-
  Iosu.Eeprom.Protocol — the driver at the level of commands, and its refinement by the
  pins.

  At this level a call is a `Command`: it moves the status (`Command.next`) and sends
  the device some frames (`Command.Frames`). `run_spec` is the simulation step: the
  driver's own code moves its status the same way and leaves on the lines exactly
  these frames, and the lines low. `wire_protocol` is the run from there.
-/

import Iosu.Eeprom.Wire

namespace Iosu.Eeprom

open Iosu.Lib Iosu.Lib.Serial Iosu.Lib.Serial.Receiver Iosu.Entity Iosu.Ios

variable {ε : Type}

/-! ## Commands -/

inductive Command where
  | init
  | open
  | shutdown
  | readWord (addr : U8)
  | writeWord (addr : U8) (data : U16)
  | setWriteControl (control : U32)
  deriving DecidableEq, Repr

def ewds : Frame := msbFirst 0b10000000000#11
def ewen : Frame := msbFirst 0b10011000000#11
def eral : Frame := msbFirst 0b10010000000#11

namespace Command

/-- The status after a command. -/
def next (status : EepromStatus) : Command → EepromStatus
  | .init => .initialised
  | .open => if status = .closed ∨ status = .initialised then .opened else status
  | .shutdown => if status = .opened then .closed else status
  | .readWord _ => status
  | .writeWord _ _ => status
  | .setWriteControl _ => status

/-- A frame, and a second one of the zero bits of 1 to 1000 polls. -/
def Polled (f : Frame) (fs : List Frame) : Prop := ∃ n, 1 ≤ n ∧ n ≤ 1000 ∧ fs = [f, List.replicate n false]

/-- The frames a command sends, in the status it finds. -/
def Frames (status : EepromStatus) (fs : List Frame) : Command → Prop
  | .readWord addr =>
    if status = .opened then ∃ f, fs = [f] ∧ f.length = 27 ∧ f.take 11 = [true, true, false] ++ msbFirst addr
    else fs = []
  | .writeWord addr data =>
    if status = .opened then Polled ([true, false, true] ++ msbFirst addr ++ msbFirst data) fs else fs = []
  | .setWriteControl control =>
    if status = .opened then
      if control = EEPROM_WRITE_ERASE then Polled eral fs
      else if control = EEPROM_WRITE_DISABLE then fs = [ewds]
      else if control = EEPROM_WRITE_ENABLE then fs = [ewen]
      else fs = []
    else fs = []
  | .init => fs = []
  | .open => fs = []
  | .shutdown => fs = []

/-- The frames of a sequence of commands, in order. -/
def Sends : EepromStatus → List Command → List Frame → Prop
  | _, [], fs => fs = []
  | status, c :: cs, fs => ∃ gs hs, fs = gs ++ hs ∧ c.Frames status gs ∧ Sends (c.next status) cs hs

/-- The call of the driver, on eeprom 0. -/
def run (g : Gpio ε) (c : Command) (d : Drv ε) : Res Fault (Drv ε) :=
  match c with
  | .init => eepromDrvInit g 0 d >>= fun r => .ok r.2
  | .open => eepromDrvOpen g 0 d >>= fun r => .ok r.2
  | .shutdown => eepromDrvShutdown g 0 d >>= fun r => .ok r.2
  | .readWord addr => eepromDrvReadWord g 0 addr d >>= fun r => .ok r.2
  | .writeWord addr data => eepromDrvWriteWord g 0 addr data d >>= fun r => .ok r.2
  | .setWriteControl control => eepromDrvSetWriteControl g 0 control d >>= fun r => .ok r.2

def runAll (g : Gpio ε) : List Command → Drv ε → Res Fault (Drv ε)
  | [], d => .ok d
  | c :: cs, d => c.run g d >>= runAll g cs

end Command

/-- The driver at the start, with nothing driven yet. -/
def Drv.start (status : EepromStatus) (env : ε) : Drv ε := { status := status, env := env, wire := [] }

/-! ## One command -/

/-- A receiver that saw the lines idle sees these frames, and the lines idle. -/
def Shows (es : List Edge) (fs : List Frame) : Prop := ∀ before, decode (idle before) es = idle (before ++ fs)

theorem shows_nil : Shows [] [] := by
  intro before
  simp

theorem shows_low {es : List Edge} (h : ∀ e ∈ es, e.2 = false) : Shows es [] := by
  intro before
  rw [decode_idle_low before es h, List.append_nil]

theorem Shows.append {es es' : List Edge} {fs fs' : List Frame} (h : Shows es fs) (h' : Shows es' fs') :
    Shows (es ++ es') (fs ++ fs') := by
  intro before
  rw [decode_append, h before, h' (before ++ fs), List.append_assoc]

theorem shows_send (bits : Frame) (hne : bits ≠ []) (n : Nat) : Shows (bits.flatMap sendCell ++ release n) [bits] :=
  fun before => decode_sendFrame before bits hne n

theorem shows_sendHold (bits : Frame) (hne : bits ≠ []) (k n : Nat) :
    Shows (bits.flatMap sendCell ++ (List.replicate (k + 1) holdCell).flatten ++ release n)
      [bits ++ List.replicate (k + 1) (bits.getLast hne)] :=
  fun before => decode_sendHoldFrame before bits hne k n

theorem shows_poll (k n : Nat) :
    Shows ((.data, false) :: ((List.replicate (k + 1) holdCell).flatten ++ release n)) [List.replicate (k + 1) false] :=
  fun before => decode_holdFrame before k n

/-- A frame and the polling that follows it. -/
theorem shows_polled (bits : Frame) (hne : bits ≠ []) (k : Nat) :
    Shows ((bits.flatMap sendCell ++ release 2) ++
        ((.data, false) :: ((List.replicate (k + 1) holdCell).flatten ++ release 2)))
      [bits, List.replicate (k + 1) false] :=
  (shows_send bits hne 2).append (shows_poll k 2)

theorem bitsBelow_ne_nil {w : Nat} (x : BitVec w) (n : Nat) : bitsBelow x (n + 1) ≠ [] := by
  intro h
  cases h

section OneCommand

variable {g : Gpio ε} (hg : g.Succeeds)
include hg

/-- The three lines driven low. -/
theorem drives_allLow {α : Type} {k : DrvM ε α} (hk : Drives k []) :
    Drives (do
      let _ ← eepromDrvSetCS g 0
      let _ ← eepromDrvSetSK g 0
      let _ ← eepromDrvSetDO g 0
      k) [(.select, false), (.clock, false), (.data, false)] :=
  (drives_setPin hg .eepromCS 0).bind fun _ => (drives_setPin hg .eepromSK 0).bind fun _ =>
    (drives_setPin hg .eepromDO 0).bind fun _ => hk

/-- A command of `size` bits sent and let go. -/
theorem drives_command {size : Nat} (hs : size ≤ 32) (data : U32) (d : Drv ε) :
    DrivesFrom (eepromDrvSendBits g size data >>= fun ret => eepromDrvFinishCommand g 2 >>= fun _ => pure ret) d
      ((bitsBelow data size).flatMap sendCell ++ release 2) := by
  rw [← List.append_nil (release 2)]
  exact (drives_sendBits hg hs data).bind (fun _ => (drives_finishCommand hg 2).bind fun _ => drives_pure _) d

/-- The same, followed by the polling. -/
theorem drives_polledCommand {size : Nat} (hs : size ≤ 32) (data : U32) (d : Drv ε) :
    ∃ k, k + 1 ≤ 1000 ∧ DrivesFrom (do
        let ret ← eepromDrvSendBits g size data
        eepromDrvFinishCommand g 2
        if ret ≠ IOS_ERROR_OK then return ret
        eepromDrvWaitForReady g) d
      (((bitsBelow data size).flatMap sendCell ++ release 2) ++
        ((.data, false) :: ((List.replicate (k + 1) holdCell).flatten ++ release 2))) := by
  have hsend := drives_sendBits hg hs data d
  have hfinish := drives_finishCommand hg 2 (eepromDrvSendBits g size data d).2
  obtain ⟨k, hk, hwait⟩ := drives_waitForReady hg (eepromDrvFinishCommand g 2 (eepromDrvSendBits g size data d).2).2
  refine ⟨k, hk, ?_⟩
  rw [List.append_assoc]
  refine hsend.bind (hfinish.bind ?_)
  have hok : ¬ (eepromDrvSendBits g size data d).1 ≠ IOS_ERROR_OK := not_not.mpr (sendBits_ok hs data d)
  rw [if_neg hok]
  exact hwait

/-- What a command does: it ends, moves the status and shows its frames. -/
def Command.Refines (g : Gpio ε) (c : Command) (d : Drv ε) : Prop :=
  ∃ d' es fs, c.run g d = .ok d' ∧ d'.status = c.next d.status ∧ edges d'.wire = edges d.wire ++ es ∧
    c.Frames d.status fs ∧ Shows es fs

omit hg in
theorem refines_of_drives {α : Type} {m : DrvM ε α} {c : Command} {d : Drv ε} {es : List Edge} {fs : List Frame}
    (hrun : c.run g d = .ok (m d).2) (hnext : c.next d.status = d.status) (hm : DrivesFrom m d es)
    (hframes : c.Frames d.status fs) (hshows : Shows es fs) : c.Refines g d :=
  ⟨(m d).2, es, fs, hrun, by rw [hnext, hm.2], hm.1, hframes, hshows⟩

omit hg in
/-- A command that the status gate refuses leaves everything as it was. -/
theorem refines_refused {c : Command} {d : Drv ε} (hrun : c.run g d = .ok d) (hnext : c.next d.status = d.status)
    (hframes : c.Frames d.status []) : c.Refines g d :=
  ⟨d, [], [], hrun, hnext.symm, (List.append_nil _).symm, hframes, shows_nil⟩

theorem setPin_ok (pin : Pin) (state : U32) (d : Drv ε) : (eepromDrvSetPin g pin state d).1 = IOS_ERROR_OK := by
  have hok := hg pin (normalise state) d.env
  unfold eepromDrvSetPin
  dsimp only
  rw [hok]
  rfl

omit hg in
/-- The driver after the three lines were driven low. -/
def lowered (g : Gpio ε) (d : Drv ε) : Drv ε := (eepromDrvSetDO g 0 (eepromDrvSetSK g 0 (eepromDrvSetCS g 0 d).2).2).2

theorem lowered_spec (d : Drv ε) :
    edges (lowered g d).wire = edges d.wire ++ [(.select, false), (.clock, false), (.data, false)] ∧
      (lowered g d).status = d.status :=
  drives_allLow hg (k := (pure () : DrvM ε Unit)) (drives_pure ()) d

theorem init_eq (d : Drv ε) :
    init g d = (IOS_ERROR_OK, { lowered g { d with status := .uninitialised } with status := .initialised }) := by
  have hcs := setPin_ok hg .eepromCS 0 { d with status := .uninitialised }
  have hsk := setPin_ok hg .eepromSK 0 (eepromDrvSetCS g 0 { d with status := .uninitialised }).2
  have hdo := setPin_ok hg .eepromDO 0 (eepromDrvSetSK g 0 (eepromDrvSetCS g 0 { d with status := .uninitialised }).2).2
  have herr : ¬ IOS_ERROR_OK ||| (eepromDrvSetPin g .eepromCS 0 { d with status := .uninitialised }).1 |||
      (eepromDrvSetPin g .eepromSK 0 (eepromDrvSetCS g 0 { d with status := .uninitialised }).2).1 |||
      (eepromDrvSetPin g .eepromDO 0
        (eepromDrvSetSK g 0 (eepromDrvSetCS g 0 { d with status := .uninitialised }).2).2).1 ≠ IOS_ERROR_OK := by
    rw [hcs, hsk, hdo]
    decide
  unfold init
  show (ite (IOS_ERROR_OK ||| (eepromDrvSetPin g .eepromCS 0 { d with status := .uninitialised }).1 |||
      (eepromDrvSetPin g .eepromSK 0 (eepromDrvSetCS g 0 { d with status := .uninitialised }).2).1 |||
      (eepromDrvSetPin g .eepromDO 0
        (eepromDrvSetSK g 0 (eepromDrvSetCS g 0 { d with status := .uninitialised }).2).2).1 ≠ IOS_ERROR_OK)
      _ _ : DrvM ε IosError) (lowered g { d with status := .uninitialised }) = _
  rw [if_neg herr]
  rfl

theorem init_refines (d : Drv ε) : Command.init.Refines g d := by
  have hlow := lowered_spec hg { d with status := .uninitialised }
  have hrun : Command.init.run g d =
      .ok { lowered g { d with status := .uninitialised } with status := .initialised } := by
    show Res.ok (init g d).2 = _
    rw [init_eq hg d]
  exact ⟨_, _, [], hrun, rfl, hlow.1, rfl, shows_low (by simp)⟩

theorem open_refines (d : Drv ε) : Command.open.Refines g d := by
  by_cases h : d.status = .closed ∨ d.status = .initialised
  · have hlow := lowered_spec hg d
    have hgate : ¬ (d.status ≠ .closed ∧ d.status ≠ .initialised) := by
      intro hno
      rcases h with h | h
      · exact hno.1 h
      · exact hno.2 h
    have hrun : Command.open.run g d = .ok { lowered g d with status := .opened } := by
      show Res.ok ((ite (d.status ≠ .closed ∧ d.status ≠ .initialised) _ _ : DrvM ε IosError) d).2 = _
      rw [if_neg hgate]
      rfl
    have hnext : Command.open.next d.status = .opened := if_pos h
    exact ⟨_, _, [], hrun, hnext.symm, hlow.1, rfl, shows_low (by simp)⟩
  · have hgate : d.status ≠ .closed ∧ d.status ≠ .initialised := not_or.mp h
    refine refines_refused ?_ (if_neg h) rfl
    show Res.ok ((ite (d.status ≠ .closed ∧ d.status ≠ .initialised) _ _ : DrvM ε IosError) d).2 = _
    rw [if_pos hgate]
    rfl

theorem shutdown_refines (d : Drv ε) : Command.shutdown.Refines g d := by
  by_cases h : d.status = .opened
  · have hlow := lowered_spec hg d
    have hrun : Command.shutdown.run g d = .ok { lowered g d with status := .closed } := by
      show Res.ok ((ite (d.status ≠ .opened) _ _ : DrvM ε IosError) d).2 = _
      rw [if_neg (not_not.mpr h)]
      rfl
    have hnext : Command.shutdown.next d.status = .closed := if_pos h
    exact ⟨_, _, [], hrun, hnext.symm, hlow.1, rfl, shows_low (by simp)⟩
  · refine refines_refused ?_ (if_neg h) rfl
    show Res.ok ((ite (d.status ≠ .opened) _ _ : DrvM ε IosError) d).2 = _
    rw [if_pos h]
    rfl

theorem readWord_refines (addr : U8) (d : Drv ε) : (Command.readWord addr).Refines g d := by
  by_cases h : d.status = .opened
  · have hsend := drives_sendBits hg (by omega : 11 ≤ 32) (0x600 ||| addr.setWidth 32) d
    have hok := sendBits_ok (g := g) (by omega : 11 ≤ 32) (0x600 ||| addr.setWidth 32) d
    have hne := bitsBelow_ne_nil ((0x600 : U32) ||| addr.setWidth 32) 10
    have hbody : DrivesFrom (readWord g addr) d ((bitsBelow ((0x600 : U32) ||| addr.setWidth 32) 11).flatMap sendCell ++
        ((List.replicate 16 holdCell).flatten ++ release 2)) := by
      have hrun : readWord g addr d = (eepromDrvSendBits g 11 (0x600 ||| addr.setWidth 32) >>= fun ret =>
          if ret = IOS_ERROR_OK then do
            let read ← readBitsFrom g 16 0
            eepromDrvFinishCommand g 2
            return (ret, some read)
          else do
            eepromDrvFinishCommand g 2
            return (ret, none)) d := by
        show (ite (d.status ≠ .opened) _ _ : DrvM ε (IosError × Option U16)) d = _
        rw [if_neg (not_not.mpr h)]
      unfold DrivesFrom
      rw [hrun]
      refine hsend.bind ?_
      rw [if_pos hok, ← List.append_nil (release 2)]
      exact (drives_readBitsFrom hg 16 0).bind (fun _ => (drives_finishCommand hg 2).bind fun _ => drives_pure _) _
    refine refines_of_drives rfl rfl (List.append_assoc _ _ _ ▸ hbody) ?_ (shows_sendHold _ hne 15 2)
    simp only [Command.Frames]
    rw [if_pos h]
    refine ⟨_, rfl, ?_, ?_⟩
    · rw [List.length_append, List.length_replicate, bitsBelow_length]
    · rw [List.take_append_of_le_length (by simp), List.take_of_length_le (by simp), bitsBelow_read]
  · refine refines_refused ?_ rfl (by simp [Command.Frames, h])
    show Res.ok ((ite (d.status ≠ .opened) _ _ : DrvM ε (IosError × Option U16)) d).2 = _
    rw [if_pos h]
    rfl

theorem writeWord_refines (addr : U8) (data : U16) (d : Drv ε) : (Command.writeWord addr data).Refines g d := by
  by_cases h : d.status = .opened
  · obtain ⟨k, hk, hbody⟩ := drives_polledCommand hg (by omega : 27 ≤ 32)
      ((((0x500 : U32) ||| addr.setWidth 32) <<< 16) ||| data.setWidth 32) d
    have hne := bitsBelow_ne_nil ((((0x500 : U32) ||| addr.setWidth 32) <<< 16) ||| data.setWidth 32) 26
    refine refines_of_drives ?_ rfl hbody ?_ (shows_polled _ hne k)
    · show Res.ok ((ite (d.status ≠ .opened) _ _ : DrvM ε IosError) d).2 = _
      rw [if_neg (not_not.mpr h)]
    · simp only [Command.Frames]
      rw [if_pos h, bitsBelow_write]
      exact ⟨k + 1, by omega, hk, rfl⟩
  · refine refines_refused ?_ rfl (by simp [Command.Frames, h])
    show Res.ok ((ite (d.status ≠ .opened) _ _ : DrvM ε IosError) d).2 = _
    rw [if_pos h]
    rfl

theorem setWriteControl_refines (control : U32) (d : Drv ε) : (Command.setWriteControl control).Refines g d := by
  have hgate : ∀ (hopen : d.status = .opened), setWriteControl g control d =
      (if control = EEPROM_WRITE_ERASE then do
        let ret ← eepromDrvSendBits g 11 0x480
        eepromDrvFinishCommand g 2
        if ret ≠ IOS_ERROR_OK then return ret
        eepromDrvWaitForReady g
      else if control = EEPROM_WRITE_DISABLE then do
        let ret ← eepromDrvSendBits g 11 0x400
        eepromDrvFinishCommand g 2
        return ret
      else if control = EEPROM_WRITE_ENABLE then do
        let ret ← eepromDrvSendBits g 11 0x4c0
        eepromDrvFinishCommand g 2
        return ret
      else return IOS_ERROR_INVALID : DrvM ε IosError) d := by
    intro hopen
    show (ite (d.status ≠ .opened) _ _ : DrvM ε IosError) d = _
    rw [if_neg (not_not.mpr hopen)]
  by_cases h : d.status = .opened
  · have hrun : (Command.setWriteControl control).run g d = .ok (setWriteControl g control d).2 := rfl
    rw [hgate h] at hrun
    by_cases herase : control = EEPROM_WRITE_ERASE
    · rw [if_pos herase] at hrun
      obtain ⟨k, hk, hbody⟩ := drives_polledCommand hg (by omega : 11 ≤ 32) 0x480 d
      refine refines_of_drives hrun rfl hbody ?_ (shows_polled _ (bitsBelow_ne_nil _ 10) k)
      simp only [Command.Frames]
      rw [if_pos h, if_pos herase]
      exact ⟨k + 1, by omega, hk, rfl⟩
    · rw [if_neg herase] at hrun
      by_cases hdisable : control = EEPROM_WRITE_DISABLE
      · rw [if_pos hdisable] at hrun
        refine refines_of_drives hrun rfl (drives_command hg (by omega) 0x400 d) ?_
          (shows_send _ (bitsBelow_ne_nil _ 10) 2)
        simp only [Command.Frames]
        rw [if_pos h, if_neg herase, if_pos hdisable]
        rfl
      · rw [if_neg hdisable] at hrun
        by_cases henable : control = EEPROM_WRITE_ENABLE
        · rw [if_pos henable] at hrun
          refine refines_of_drives hrun rfl (drives_command hg (by omega) 0x4c0 d) ?_
            (shows_send _ (bitsBelow_ne_nil _ 10) 2)
          simp only [Command.Frames]
          rw [if_pos h, if_neg herase, if_neg hdisable, if_pos henable]
          rfl
        · rw [if_neg henable] at hrun
          exact refines_refused hrun rfl (by simp [Command.Frames, h, herase, hdisable, henable])
  · refine refines_refused ?_ rfl (by simp [Command.Frames, h])
    show Res.ok ((ite (d.status ≠ .opened) _ _ : DrvM ε IosError) d).2 = _
    rw [if_pos h]
    rfl

/-- Every command refines the command level. -/
theorem run_spec (c : Command) (d : Drv ε) : c.Refines g d := by
  cases c with
  | init => exact init_refines hg d
  | «open» => exact open_refines hg d
  | shutdown => exact shutdown_refines hg d
  | readWord addr => exact readWord_refines hg addr d
  | writeWord addr data => exact writeWord_refines hg addr data d
  | setWriteControl control => exact setWriteControl_refines hg control d

end OneCommand

/-! ## Runs -/

/-- A run from lines that are idle leaves them idle, and on them the frames of its
    commands. -/
theorem runAll_spec {g : Gpio ε} (hg : g.Succeeds) (cs : List Command) :
    ∀ (d : Drv ε) (before : List Frame), decode (idle []) (edges d.wire) = idle before →
      ∃ d' fs, Command.runAll g cs d = .ok d' ∧ d'.status = cs.foldl Command.next d.status ∧
        Command.Sends d.status cs fs ∧ decode (idle []) (edges d'.wire) = idle (before ++ fs) := by
  induction cs with
  | nil =>
    intro d before h
    exact ⟨d, [], rfl, rfl, rfl, by rw [List.append_nil]; exact h⟩
  | cons c cs ih =>
    intro d before h
    obtain ⟨d1, es, gs, hrun, hstatus, hwire, hframes, hshows⟩ := run_spec hg c d
    have hidle : decode (idle []) (edges d1.wire) = idle (before ++ gs) := by
      rw [hwire, decode_append, h, hshows before]
    obtain ⟨d', hs, hrest, hstatus', hsends, hend⟩ := ih d1 (before ++ gs) hidle
    refine ⟨d', gs ++ hs, ?_, ?_, ?_, ?_⟩
    · show (c.run g d >>= Command.runAll g cs) = _
      rw [hrun]
      exact hrest
    · rw [hstatus', hstatus]
      rfl
    · rw [hstatus] at hsends
      exact ⟨gs, hs, rfl, hframes, hsends⟩
    · rw [hend, List.append_assoc]

/-- Any sequence of calls on eeprom 0 ends, and a receiver on the pins decodes exactly
    the frames of the commands, in order; after the last call, whichever it is, chip
    select, clock and data are low. -/
theorem wire_protocol {g : Gpio ε} (hg : g.Succeeds) (status : EepromStatus) (env : ε) (cs : List Command) :
    ∃ d fs, Command.runAll g cs (Drv.start status env) = .ok d ∧ d.status = cs.foldl Command.next status ∧
      Command.Sends status cs fs ∧ decode (idle []) (edges d.wire) = idle fs :=
  runAll_spec hg cs (Drv.start status env) [] rfl

/-- A device that answers 1 at once. -/
def readyGpio : Gpio Unit where
  write := fun _ _ env => (BSP_RVAL_OK, env)
  readDI := fun env => (BSP_RVAL_OK, 1, env)

theorem wire_protocol_ready :
    ∃ d fs, Command.runAll readyGpio [.init, .open, .setWriteControl EEPROM_WRITE_ENABLE, .writeWord 0x1e 0x28, .readWord 0x1e]
        (Drv.start .uninitialised ()) = .ok d ∧
      d.status = [Command.init, .open, .setWriteControl EEPROM_WRITE_ENABLE, .writeWord 0x1e 0x28, .readWord 0x1e].foldl
        Command.next .uninitialised ∧
      Command.Sends .uninitialised
        [.init, .open, .setWriteControl EEPROM_WRITE_ENABLE, .writeWord 0x1e 0x28, .readWord 0x1e] fs ∧
      decode (idle []) (edges d.wire) = idle fs :=
  wire_protocol (fun _ _ _ => rfl) .uninitialised () _

end Iosu.Eeprom
