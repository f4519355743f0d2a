/-
  Iosu.Eeprom.Timing — when the driver moves the lines.

  `timing` is a monitor of the wire, in the terms of a device that is clocked: it takes SK for
  low at first; EEPROM_CS and EEPROM_DO may move only while SK is low, SK may rise only when
  the lines have stood for 4 us and fall only when it has stood for 4 us, and EEPROM_DI is
  read only behind that. What counts is what the driver asks for: `driver_timed` says that it
  keeps to this over any sequence of calls, whatever the GPIO entity answers, be it a failure
  in the middle of a command.
-/

import Iosu.Eeprom.Protocol
import Iosu.Lib.Monitor

namespace Iosu.Eeprom

open Iosu.Lib Iosu.Entity Iosu.Ios

variable {ε α β : Type}

/-! ## The monitor -/

/-- The level of SK, and whether the lines have stood for 4 us. -/
inductive Phase where
  | low
  | lowSettled
  | high
  | highSettled
  deriving DecidableEq, Repr

def Phase.settle : Phase → Phase
  | .low | .lowSettled => .lowSettled
  | .high | .highSettled => .highSettled

def timing : Monitor WireEvent Phase
  | s, .udelay usec => some (if 4 ≤ usec.toNat then s.settle else s)
  | .low, .write .eepromSK state _ => if state = 0 then some .low else none
  | .lowSettled, .write .eepromSK state _ => some (if state = 0 then .lowSettled else .high)
  | .highSettled, .write .eepromSK state _ => some (if state = 0 then .low else .highSettled)
  | .low, .write _ _ _ | .lowSettled, .write _ _ _ => some .low
  | .highSettled, .readDI _ _ => some .highSettled
  | _, _ => none

/-- Where a clock cycle may begin: SK is low, or it may fall. -/
def Phase.Ready (s : Phase) : Prop := s = .low ∨ s = .highSettled

/-! ## Code that keeps to it -/

/-- From a phase in `P`, what the code does on the wire is within the timing, and ends in one
    in `Q`. -/
def Timed (P : Phase → Prop) (m : DrvM ε α) (Q : Phase → Prop) : Prop :=
  ∀ d s, P s → ∃ w s', (m d).2.wire = d.wire ++ w ∧ timing.run s w = some s' ∧ Q s'

section Rules

variable {P Q R : Phase → Prop}

theorem timed_pure (a : α) : Timed P (pure a : DrvM ε α) P :=
  fun d s hs => ⟨[], s, (List.append_nil d.wire).symm, rfl, hs⟩

theorem Timed.bind {m : DrvM ε α} {k : α → DrvM ε β} (hm : Timed P m Q) (hk : ∀ a, Timed Q (k a) R) :
    Timed P (m >>= k) R := by
  intro d s hs
  obtain ⟨w, s₁, hw, hrun, hq⟩ := hm d s hs
  obtain ⟨w', s', hw', hrun', hr⟩ := hk (m d).1 (m d).2 s₁ hq
  refine ⟨w ++ w', s', ?_, Monitor.run_append_eq_some.mpr ⟨s₁, hrun, hrun'⟩, hr⟩
  show (k (m d).1 (m d).2).2.wire = d.wire ++ (w ++ w')
  rw [hw', hw, List.append_assoc]

theorem Timed.weaken {m : DrvM ε α} (h : Timed P m Q) (hP : ∀ s, R s → P s) : Timed R m Q :=
  fun d s hs => h d s (hP s hs)

theorem Timed.imp {m : DrvM ε α} (h : Timed P m Q) (hQ : ∀ s, Q s → R s) : Timed P m R := by
  intro d s hs
  obtain ⟨w, s', hw, hrun, hq⟩ := h d s hs
  exact ⟨w, s', hw, hrun, hQ s' hq⟩

theorem timed_get : Timed P (get : DrvM ε (Drv ε)) P :=
  fun d s hs => ⟨[], s, (List.append_nil d.wire).symm, rfl, hs⟩

theorem timed_status (status : EepromStatus) : Timed P (modify fun d => { d with status := status } : DrvM ε PUnit) P :=
  fun d s hs => ⟨[], s, (List.append_nil d.wire).symm, rfl, hs⟩

theorem timed_setPin {g : Gpio ε} {pin : Pin} {state : U32}
    (h : ∀ ret s, P s → ∃ s', timing s (.write pin (normalise state) ret) = some s' ∧ Q s') :
    Timed P (eepromDrvSetPin g pin state) Q := by
  intro d s hs
  obtain ⟨s', hstep, hq⟩ := h (g.write pin (normalise state) d.env).1 s hs
  exact ⟨[_], s', rfl, by simp [hstep], hq⟩

/-- The code's own delays. -/
theorem timed_udelay {s s' : Phase} (h : s.settle = s') : Timed (· = s) (udelay 4 : DrvM ε Unit) (· = s') := by
  rintro d _ rfl
  exact ⟨[.udelay 4], s', rfl, by simp [timing, h], rfl⟩

end Rules

/-! ## The lines -/

section Lines

variable {g : Gpio ε}

theorem timed_setSK_low : Timed Phase.Ready (eepromDrvSetSK g 0) (· = .low) := by
  refine timed_setPin fun ret s hs => ?_
  rcases hs with rfl | rfl
  · exact ⟨.low, rfl, rfl⟩
  · exact ⟨.low, rfl, rfl⟩

theorem timed_setSK_high : Timed (· = .lowSettled) (eepromDrvSetSK g 1) (· = .high) := by
  refine timed_setPin fun ret s hs => ?_
  subst hs
  exact ⟨.high, rfl, rfl⟩

theorem timed_setCS (state : U32) : Timed (· = .low) (eepromDrvSetCS g state) (· = .low) := by
  refine timed_setPin fun ret s hs => ?_
  subst hs
  exact ⟨.low, rfl, rfl⟩

theorem timed_setDO (state : U32) : Timed (· = .low) (eepromDrvSetDO g state) (· = .low) := by
  refine timed_setPin fun ret s hs => ?_
  subst hs
  exact ⟨.low, rfl, rfl⟩

theorem timed_readDI : Timed (· = .highSettled) (readDI g) (· = .highSettled) := by
  rintro d _ rfl
  exact ⟨[_], .highSettled, rfl, rfl, rfl⟩

/-- The second half of every clock cycle. -/
theorem timed_rise {m : DrvM ε α} {Q : Phase → Prop} (hm : Timed (· = .highSettled) m Q) :
    Timed (· = .low) (udelay 4 >>= fun _ => eepromDrvSetSK g 1 >>= fun _ => udelay 4 >>= fun _ => m) Q :=
  (timed_udelay rfl).bind fun _ => timed_setSK_high.bind fun _ => (timed_udelay rfl).bind fun _ => hm

theorem low_ready : ∀ s : Phase, s = .low → s.Ready := fun _ h => Or.inl h

theorem highSettled_ready : ∀ s : Phase, s = .highSettled → s.Ready := fun _ h => Or.inr h

/-! ## `eeprom_bits.c` -/

theorem timed_readBit : Timed Phase.Ready (eepromDrvReadBit g) (· = .highSettled) := by
  unfold eepromDrvReadBit
  refine timed_setSK_low.bind fun _ => (timed_setCS 1).bind fun _ => timed_rise (timed_readDI.bind fun p => ?_)
  dsimp only
  split
  · exact timed_pure 0
  · exact timed_pure _

theorem timed_finishClocks (clocks : Nat) : Timed Phase.Ready (finishClocks g clocks) Phase.Ready := by
  induction clocks with
  | zero => exact timed_pure ()
  | succ clocks ih =>
    unfold finishClocks
    exact timed_setSK_low.bind fun _ => timed_rise (ih.weaken highSettled_ready)

theorem timed_finishCommand (clocks : Nat) : Timed Phase.Ready (eepromDrvFinishCommand g clocks) (· = .low) := by
  unfold eepromDrvFinishCommand
  refine timed_setSK_low.bind fun _ => (timed_setCS 0).bind fun _ => (timed_setDO 0).bind fun _ => ?_
  exact ((timed_finishClocks clocks).weaken low_ready).bind fun _ => timed_setSK_low.bind fun _ => timed_pure _

theorem timed_pollReady (n : Nat) : Timed Phase.Ready (pollReady g n) Phase.Ready := by
  induction n with
  | zero => exact timed_pure true
  | succ n ih =>
    unfold pollReady
    refine timed_readBit.bind fun bit => ?_
    split
    · exact (timed_pure false).imp highSettled_ready
    · exact ih.weaken highSettled_ready

theorem timed_waitForReady : Timed (· = .low) (eepromDrvWaitForReady g) (· = .low) := by
  unfold eepromDrvWaitForReady
  refine (timed_setDO 0).bind fun _ => ((timed_pollReady 1000).weaken low_ready).bind fun timeout => ?_
  refine (timed_finishCommand 2).bind fun _ => ?_
  split
  · exact timed_pure _
  · exact timed_pure _

theorem timed_sendBitsFrom (data : U32) (n : Nat) : Timed Phase.Ready (sendBitsFrom g data n) Phase.Ready := by
  induction n with
  | zero => exact timed_pure ()
  | succ n ih =>
    unfold sendBitsFrom
    refine timed_setSK_low.bind fun _ => (timed_setCS 1).bind fun _ => (timed_setDO _).bind fun _ => ?_
    exact timed_rise (ih.weaken highSettled_ready)

theorem timed_sendBits (size : Nat) (data : U32) : Timed (· = .low) (eepromDrvSendBits g size data) Phase.Ready := by
  unfold eepromDrvSendBits
  split
  · exact (timed_pure _).imp low_ready
  · exact ((timed_sendBitsFrom data size).weaken low_ready).bind fun _ => timed_pure _

/-! ## `eeprom.c` -/

theorem timed_readBitsFrom (n : Nat) (read : U16) : Timed Phase.Ready (readBitsFrom g n read) Phase.Ready := by
  induction n generalizing read with
  | zero => exact timed_pure read
  | succ n ih =>
    unfold readBitsFrom
    exact timed_readBit.bind fun bit => (ih _).weaken highSettled_ready

/-- A command whose bits are let go: `k` is what follows. -/
theorem timed_command (size : Nat) (data : U32) {k : IosError → DrvM ε α} (hk : ∀ ret, Timed (· = .low) (k ret) (· = .low)) :
    Timed (· = .low) (eepromDrvSendBits g size data >>= fun ret => eepromDrvFinishCommand g 2 >>= fun _ => k ret)
      (· = .low) :=
  (timed_sendBits size data).bind fun ret => (timed_finishCommand 2).bind fun _ => hk ret

theorem timed_readWord (addr : U8) : Timed (· = .low) (readWord g addr) (· = .low) := by
  unfold readWord
  refine timed_get.bind fun d => ?_
  split
  · exact timed_pure _
  refine (timed_sendBits _ _).bind fun ret => ?_
  split
  · exact (timed_readBitsFrom 16 0).bind fun read => (timed_finishCommand 2).bind fun _ => timed_pure _
  · exact (timed_finishCommand 2).bind fun _ => timed_pure _

theorem timed_writeWord (addr : U8) (data : U16) : Timed (· = .low) (writeWord g addr data) (· = .low) := by
  unfold writeWord
  refine timed_get.bind fun d => ?_
  split
  · exact timed_pure _
  refine timed_command 27 _ fun ret => ?_
  split
  · exact timed_pure _
  · exact timed_waitForReady

theorem timed_setWriteControl (control : U32) : Timed (· = .low) (setWriteControl g control) (· = .low) := by
  unfold setWriteControl
  refine timed_get.bind fun d => ?_
  split
  · exact timed_pure _
  split
  · refine timed_command 11 _ fun ret => ?_
    split
    · exact timed_pure _
    · exact timed_waitForReady
  split
  · exact timed_command 11 _ fun ret => timed_pure _
  split
  · exact timed_command 11 _ fun ret => timed_pure _
  · exact timed_pure _

/-- The three lines are let go. -/
theorem timed_lower {k : IosError → IosError → IosError → DrvM ε α}
    (hk : ∀ cs sk dout, Timed (· = .low) (k cs sk dout) (· = .low)) :
    Timed (· = .low) (eepromDrvSetCS g 0 >>= fun cs => eepromDrvSetSK g 0 >>= fun sk => eepromDrvSetDO g 0 >>= fun dout =>
      k cs sk dout) (· = .low) :=
  (timed_setCS 0).bind fun cs => (timed_setSK_low.weaken low_ready).bind fun sk => (timed_setDO 0).bind fun dout =>
    hk cs sk dout

theorem timed_init : Timed (· = .low) (init g) (· = .low) := by
  unfold init
  refine (timed_status .uninitialised).bind fun _ => timed_lower fun cs sk dout => ?_
  dsimp only
  split
  · exact timed_pure _
  · exact (timed_status .initialised).bind fun _ => timed_pure _

theorem timed_openCtx : Timed (· = .low) (openCtx g) (· = .low) := by
  unfold openCtx
  refine timed_get.bind fun d => timed_get.bind fun d' => ?_
  split
  · exact timed_pure _
  · exact timed_lower fun _ _ _ => (timed_status .opened).bind fun _ => timed_pure _

theorem timed_shutdown : Timed (· = .low) (shutdown g) (· = .low) := by
  unfold shutdown
  refine timed_get.bind fun d => ?_
  split
  · exact timed_pure _
  · exact timed_lower fun _ _ _ => (timed_status .closed).bind fun _ => timed_pure _

end Lines

/-! ## Every run -/

/-- A call on eeprom 0. -/
theorem Timed.onEeprom {m : DrvM ε α} (h : Timed (· = .low) m (· = .low)) (refused : α) {d d' : Drv ε}
    (hrun : (onEeprom 0 refused m d >>= fun r => .ok r.2) = .ok d') :
    ∃ w, d'.wire = d.wire ++ w ∧ timing.run .low w = some .low := by
  have hd' : (m d).2 = d' := Res.ok.inj hrun
  obtain ⟨w, s', hw, htiming, rfl⟩ := h d .low rfl
  exact ⟨w, hd' ▸ hw, htiming⟩

theorem command_timed {g : Gpio ε} (c : Command) {d d' : Drv ε} (hrun : c.run g d = .ok d') :
    ∃ w, d'.wire = d.wire ++ w ∧ timing.run .low w = some .low := by
  cases c with
  | init => exact timed_init.onEeprom _ hrun
  | «open» => exact timed_openCtx.onEeprom _ hrun
  | shutdown => exact timed_shutdown.onEeprom _ hrun
  | readWord addr => exact (timed_readWord addr).onEeprom _ hrun
  | writeWord addr data => exact (timed_writeWord addr data).onEeprom _ hrun
  | setWriteControl control => exact (timed_setWriteControl control).onEeprom _ hrun

/-- Over any sequence of calls, and whatever the pins are answered, the driver keeps to the
    timing, and leaves SK low. -/
theorem driver_timed (g : Gpio ε) (cs : List Command) (d : Drv ε) :
    ∃ w d', Command.runAll g cs d = .ok d' ∧ d'.wire = d.wire ++ w ∧ timing.run .low w = some .low := by
  induction cs generalizing d with
  | nil => exact ⟨[], d, rfl, (List.append_nil d.wire).symm, rfl⟩
  | cons c cs ih =>
    have hret : ∃ d₁, c.run g d = .ok d₁ := by cases c <;> exact ⟨_, rfl⟩
    obtain ⟨d₁, h₁⟩ := hret
    obtain ⟨w₁, hw₁, ht₁⟩ := command_timed c h₁
    obtain ⟨w₂, d', h₂, hw₂, ht₂⟩ := ih d₁
    refine ⟨w₁ ++ w₂, d', ?_, ?_, Monitor.run_append_eq_some.mpr ⟨_, ht₁, ht₂⟩⟩
    · show (c.run g d >>= Command.runAll g cs) = .ok d'
      rw [h₁]
      exact h₂
    · rw [hw₂, hw₁, List.append_assoc]

end Iosu.Eeprom
