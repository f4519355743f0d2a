/-
  Iosu.Eeprom.Wire — what the SEEPROM sees of the driver.

  As long as the pin writes succeed, every function of the driver drives the lines
  through whole cells (`Drives`), whatever EEPROM_DI answers: a command is one frame,
  the polling after a write another, and nothing else selects the device.
  `Command.Frames` is the command level, in the terms of the device; `run_spec` is the
  step from there to the pins, and `wire_protocol` carries it over whole runs.
-/

import Iosu.Eeprom.Driver
import Iosu.Lib.Serial

namespace Iosu.Eeprom

open Iosu.Lib Iosu.Lib.Serial Iosu.Lib.Serial.Receiver Iosu.Entity Iosu.Ios

variable {ε : Type}

/-! ## The pin trace -/

def Pin.line : Pin → Line
  | .eepromCS => .select
  | .eepromSK => .clock
  | .eepromDO => .data

/-- A write that succeeded drives its line. -/
def WireEvent.edge? : WireEvent → Option Edge
  | .write pin state ret => if ret = BSP_RVAL_OK then some (pin.line, decide (state ≠ 0)) else none
  | .readDI _ _ => none
  | .udelay _ => none

def edges (wire : List WireEvent) : List Edge := wire.filterMap WireEvent.edge?

/-- Every write of a pin succeeds. -/
def Gpio.Succeeds (g : Gpio ε) : Prop := ∀ pin state env, (g.write pin state env).1 = BSP_RVAL_OK

/-- From `d`, the code drives the lines through `es` and leaves the status as it is. -/
def DrivesFrom {α : Type} (m : DrvM ε α) (d : Drv ε) (es : List Edge) : Prop :=
  edges (m d).2.wire = edges d.wire ++ es ∧ (m d).2.status = d.status

def Drives {α : Type} (m : DrvM ε α) (es : List Edge) : Prop := ∀ d, DrivesFrom m d es

theorem drives_pure {α : Type} (x : α) : Drives (pure x : DrvM ε α) [] := by
  intro d
  exact ⟨(List.append_nil _).symm, rfl⟩

theorem DrivesFrom.bind {α β : Type} {m : DrvM ε α} {k : α → DrvM ε β} {d : Drv ε} {es r : List Edge}
    (hm : DrivesFrom m d es) (hk : DrivesFrom (k (m d).1) (m d).2 r) : DrivesFrom (m >>= k) d (es ++ r) := by
  have hrun : (m >>= k) d = k (m d).1 (m d).2 := rfl
  refine ⟨?_, ?_⟩
  · rw [hrun, hk.1, hm.1, List.append_assoc]
  · rw [hrun, hk.2, hm.2]

theorem Drives.bind {α β : Type} {m : DrvM ε α} {k : α → DrvM ε β} {es r : List Edge} (hm : Drives m es)
    (hk : ∀ x, Drives (k x) r) : Drives (m >>= k) (es ++ r) :=
  fun d => (hm d).bind (hk _ _)

/-! ## `eeprom_bits.c` on the lines -/

section Bits

variable {g : Gpio ε} (hg : g.Succeeds)

theorem normalise_ne_zero (state : U32) : decide (normalise state ≠ 0) = decide (state ≠ 0) := by
  unfold normalise
  by_cases h : state = 0
  · rw [if_neg (not_not.mpr h)]
  · have h1 : (1 : U32) ≠ 0 := by decide
    rw [if_pos h, decide_eq_true h, decide_eq_true h1]

theorem shifted_bit (data : U32) (i : Nat) : decide ((data >>> i) &&& 1 ≠ 0) = data.getLsbD i := by
  have h : (data >>> i) &&& 1 = 0 ↔ data.getLsbD i = false := by
    refine ⟨?_, ?_⟩
    · intro h0
      have hbit := congrArg (fun x : U32 => x.getLsbD 0) h0
      simpa using hbit
    · intro hb
      apply BitVec.eq_of_getLsbD_eq
      intro j _
      by_cases hj : j = 0
      · subst hj
        simpa using hb
      · simp [hj]
  by_cases hb : data.getLsbD i = false
  · rw [hb]
    exact decide_eq_false (not_not.mpr (h.mpr hb))
  · have h0 : (data >>> i) &&& 1 ≠ 0 := fun h0 => hb (h.mp h0)
    rw [decide_eq_true h0]
    exact (Bool.not_eq_false _ ▸ hb).symm

include hg in
theorem drives_setPin (pin : Pin) (state : U32) :
    Drives (eepromDrvSetPin g pin state) [(pin.line, decide (state ≠ 0))] := by
  intro d
  have hok := hg pin (normalise state) d.env
  refine ⟨?_, rfl⟩
  show edges (d.wire ++ [_]) = _
  unfold edges
  rw [List.filterMap_append]
  congr 1
  simp only [List.filterMap_cons, List.filterMap_nil, WireEvent.edge?]
  rw [if_pos hok, normalise_ne_zero]

theorem drives_udelay (usec : U32) : Drives (udelay usec : DrvM ε Unit) [] := by
  intro d
  refine ⟨?_, rfl⟩
  show edges (d.wire ++ [_]) = _
  simp [edges, WireEvent.edge?]

theorem drives_readDI (g : Gpio ε) : Drives (readDI g) [] := by
  intro d
  refine ⟨?_, rfl⟩
  show edges (d.wire ++ [_]) = _
  simp [edges, WireEvent.edge?]

include hg

theorem drives_readBit : Drives (eepromDrvReadBit g) holdCell := by
  unfold eepromDrvReadBit
  have hsample : Drives (do
      let p ← readDI g
      if p.1 ≠ BSP_RVAL_OK then return 0
      return normalise p.2) [] := by
    refine (drives_readDI g).bind (r := []) fun p => ?_
    split
    · exact drives_pure _
    · exact drives_pure _
  exact (drives_setPin hg .eepromSK 0).bind fun _ => (drives_setPin hg .eepromCS 1).bind fun _ =>
    (drives_udelay 4).bind fun _ => (drives_setPin hg .eepromSK 1).bind fun _ => (drives_udelay 4).bind fun _ => hsample

theorem drives_finishClocks (clocks : Nat) :
    Drives (finishClocks g clocks) (List.replicate clocks [(Line.clock, false), (Line.clock, true)]).flatten := by
  induction clocks with
  | zero => exact drives_pure ()
  | succ clocks ih =>
    unfold finishClocks
    rw [List.replicate_succ, List.flatten_cons]
    exact (drives_setPin hg .eepromSK 0).bind fun _ => (drives_udelay 4).bind fun _ =>
      (drives_setPin hg .eepromSK 1).bind fun _ => (drives_udelay 4).bind fun _ => ih

theorem drives_finishCommand (clocks : Nat) : Drives (eepromDrvFinishCommand g clocks) (release clocks) := by
  unfold eepromDrvFinishCommand release
  rw [List.append_assoc]
  exact (drives_setPin hg .eepromSK 0).bind fun _ => (drives_setPin hg .eepromCS 0).bind fun _ =>
    (drives_setPin hg .eepromDO 0).bind fun _ => (drives_finishClocks hg clocks).bind fun _ =>
    (drives_setPin hg .eepromSK 0).bind fun _ => drives_pure _

/-- The bits go out most significant first. -/
theorem drives_sendBitsFrom (data : U32) (n : Nat) :
    Drives (sendBitsFrom g data n) ((bitsBelow data n).flatMap sendCell) := by
  induction n with
  | zero => exact drives_pure ()
  | succ i ih =>
    unfold sendBitsFrom
    have hdo := drives_setPin hg .eepromDO ((data >>> i) &&& 1)
    rw [shifted_bit data i] at hdo
    rw [bitsBelow, List.flatMap_cons]
    exact (drives_setPin hg .eepromSK 0).bind fun _ => (drives_setPin hg .eepromCS 1).bind fun _ =>
      hdo.bind fun _ => (drives_udelay 4).bind fun _ => (drives_setPin hg .eepromSK 1).bind fun _ =>
      (drives_udelay 4).bind fun _ => ih

/-- It polls at least once, and at most as often as it may. -/
theorem drives_pollReady (n : Nat) (d : Drv ε) :
    ∃ k, k + 1 ≤ n + 1 ∧ DrivesFrom (pollReady g (n + 1)) d (List.replicate (k + 1) holdCell).flatten := by
  induction n generalizing d with
  | zero =>
    refine ⟨0, Nat.le_refl _, ?_⟩
    unfold pollReady
    refine (drives_readBit hg d).bind (r := []) ?_
    split
    · exact drives_pure _ _
    · exact drives_pure _ _
  | succ n ih =>
    unfold pollReady
    by_cases hbit : (eepromDrvReadBit g d).1 ≠ 0
    · refine ⟨0, by omega, ?_⟩
      refine (drives_readBit hg d).bind (r := []) ?_
      rw [if_pos hbit]
      exact drives_pure _ _
    · obtain ⟨k, hk, hrest⟩ := ih (eepromDrvReadBit g d).2
      refine ⟨k + 1, by omega, ?_⟩
      rw [List.replicate_succ, List.flatten_cons]
      refine (drives_readBit hg d).bind ?_
      rw [if_neg hbit]
      exact hrest

theorem drives_readBitsFrom (n : Nat) (read : U16) :
    Drives (readBitsFrom g n read) (List.replicate n holdCell).flatten := by
  induction n generalizing read with
  | zero => exact drives_pure read
  | succ n ih =>
    unfold readBitsFrom
    rw [List.replicate_succ, List.flatten_cons]
    exact (drives_readBit hg).bind fun _ => ih _

theorem drives_waitForReady (d : Drv ε) :
    ∃ k, k + 1 ≤ 1000 ∧ DrivesFrom (eepromDrvWaitForReady g) d
      ((.data, false) :: ((List.replicate (k + 1) holdCell).flatten ++ release 2)) := by
  obtain ⟨k, hk, hpoll⟩ := drives_pollReady hg 999 (eepromDrvSetDO g 0 d).2
  refine ⟨k, hk, ?_⟩
  unfold eepromDrvWaitForReady
  refine (drives_setPin hg .eepromDO 0 d).bind (r := (List.replicate (k + 1) holdCell).flatten ++ release 2) ?_
  refine hpoll.bind ?_
  have hend : ∀ timeout : Bool, Drives (do
      eepromDrvFinishCommand g 2
      if timeout then return IOS_ERROR_FAIL_INTERNAL
      return IOS_ERROR_OK) (release 2) := by
    intro timeout
    rw [← List.append_nil (release 2)]
    refine (drives_finishCommand hg 2).bind fun _ => ?_
    split
    · exact drives_pure _
    · exact drives_pure _
  exact hend _ _

omit hg in
theorem sendBits_eq {size : Nat} (hs : size ≤ 32) (data : U32) :
    eepromDrvSendBits g size data = (sendBitsFrom g data size >>= fun _ => pure IOS_ERROR_OK) := by
  unfold eepromDrvSendBits
  rw [if_neg (by omega)]

omit hg in
theorem sendBits_ok {size : Nat} (hs : size ≤ 32) (data : U32) (d : Drv ε) :
    (eepromDrvSendBits g size data d).1 = IOS_ERROR_OK := by
  rw [sendBits_eq hs]
  rfl

theorem drives_sendBits {size : Nat} (hs : size ≤ 32) (data : U32) :
    Drives (eepromDrvSendBits g size data) ((bitsBelow data size).flatMap sendCell) := by
  rw [sendBits_eq hs, ← List.append_nil ((bitsBelow data size).flatMap sendCell)]
  exact (drives_sendBitsFrom hg data size).bind fun _ => drives_pure _

end Bits

/-! ## The words on the line -/

/-- A three-bit command and the address, as the eleven bits they are sent as. -/
theorem bitsBelow_header (cmd : U32) (hlow : ∀ i < 8, cmd.getLsbD i = false) (addr : U8) :
    bitsBelow (cmd ||| addr.setWidth 32) 11 = [cmd.getLsbD 10, cmd.getLsbD 9, cmd.getLsbD 8] ++ msbFirst addr := by
  have haddr : bitsBelow (cmd ||| addr.setWidth 32) 8 = msbFirst addr := by
    refine bitsBelow_congr fun i hi => ?_
    rw [BitVec.getLsbD_or, hlow i hi, Bool.false_or, BitVec.getLsbD_setWidth]
    simp only [show i < 32 by omega, decide_true, Bool.true_and]
  rw [show (11 : Nat) = 3 + 8 from rfl, bitsBelow_add, haddr]
  congr 1
  simp [bitsBelow]

theorem bitsBelow_read (addr : U8) : bitsBelow ((0x600 : U32) ||| addr.setWidth 32) 11 = [true, true, false] ++ msbFirst addr :=
  bitsBelow_header 0x600 (by decide) addr

theorem bitsBelow_write (addr : U8) (data : U16) :
    bitsBelow ((((0x500 : U32) ||| addr.setWidth 32) <<< 16) ||| data.setWidth 32) 27 =
      [true, false, true] ++ msbFirst addr ++ msbFirst data := by
  have htop : bitsBelow (((((0x500 : U32) ||| addr.setWidth 32) <<< 16) ||| data.setWidth 32) >>> 16) 11 =
      [true, false, true] ++ msbFirst addr := by
    rw [← show bitsBelow ((0x500 : U32) ||| addr.setWidth 32) 11 = [true, false, true] ++ msbFirst addr from
      bitsBelow_header 0x500 (by decide) addr]
    refine bitsBelow_congr fun i hi => ?_
    have hlt : 16 + i < 32 := by omega
    have hge : ¬ 16 + i < 16 := by omega
    have hdata : data.getLsbD (16 + i) = false := BitVec.getLsbD_of_ge data _ (by omega)
    rw [BitVec.getLsbD_ushiftRight, BitVec.getLsbD_or, BitVec.getLsbD_shiftLeft, BitVec.getLsbD_setWidth, hdata]
    simp only [hlt, hge, decide_true, decide_false, Bool.not_false, Bool.true_and, Bool.and_false, Bool.or_false]
    rw [Nat.add_sub_cancel_left]
  have hlow : bitsBelow ((((0x500 : U32) ||| addr.setWidth 32) <<< 16) ||| data.setWidth 32) 16 = msbFirst data := by
    refine bitsBelow_congr fun i hi => ?_
    have hlt : i < 32 := by omega
    simp [hi, hlt]
  rw [show (27 : Nat) = 11 + 16 from rfl, bitsBelow_add, htop, hlow]

end Iosu.Eeprom
