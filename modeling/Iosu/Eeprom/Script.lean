/-
  Iosu.Eeprom.Script — the accesses of the driver, whatever they are answered.

  A script is a list of pin accesses. Up to the polling, the driver looks at no answer
  of a write: which accesses a function makes is fixed before the first of them
  (`Follows`), and GPIO alone decides what they are answered (`Gpio.answers`). So what a
  call finds on the pins is a function of the world it starts in.
-/

import Iosu.Eeprom.Wire

namespace Iosu.Eeprom

open Iosu.Lib Iosu.Lib.Serial Iosu.Entity Iosu.Ios

variable {ε : Type}

/-! ## Accesses -/

inductive Access where
  | write (pin : Pin) (level : Bool)
  | readDI
  deriving DecidableEq, Repr

/-- The access an event is, and what it was answered. -/
def WireEvent.access? : WireEvent → Option (Access × BspRval)
  | .write pin state ret => some (.write pin (decide (state ≠ 0)), ret)
  | .readDI ret _ => some (.readDI, ret)
  | .udelay _ => none

def accesses (wire : List WireEvent) : List (Access × BspRval) := wire.filterMap WireEvent.access?

theorem accesses_append (wire wire' : List WireEvent) : accesses (wire ++ wire') = accesses wire ++ accesses wire' :=
  List.filterMap_append

namespace Gpio

variable (g : Gpio ε)

def access : Access → ε → BspRval × ε
  | .write pin level, env => g.write pin (if level then 1 else 0) env
  | .readDI, env => ((g.readDI env).1, (g.readDI env).2.2)

/-- What the accesses of a script are answered. -/
def answers : List Access → ε → List BspRval
  | [], _ => []
  | a :: as, env => (g.access a env).1 :: answers as (g.access a env).2

/-- The world behind a script. -/
def after (script : List Access) (env : ε) : ε := script.foldl (fun env a => (g.access a env).2) env

/-- Every access of the script succeeds. -/
def AllOk (script : List Access) (env : ε) : Prop := ∀ ret ∈ g.answers script env, ret = BSP_RVAL_OK

instance (script : List Access) (env : ε) : Decidable (g.AllOk script env) :=
  inferInstanceAs (Decidable (∀ ret ∈ g.answers script env, ret = BSP_RVAL_OK))

@[simp] theorem answers_length (script : List Access) (env : ε) : (g.answers script env).length = script.length := by
  induction script generalizing env with
  | nil => rfl
  | cons a as ih => simp [answers, ih]

theorem after_append (s r : List Access) (env : ε) : g.after (s ++ r) env = g.after r (g.after s env) :=
  List.foldl_append

theorem answers_append (s r : List Access) (env : ε) :
    g.answers (s ++ r) env = g.answers s env ++ g.answers r (g.after s env) := by
  induction s generalizing env with
  | nil => rfl
  | cons a as ih =>
    rw [List.cons_append, answers, answers, ih]
    rfl

/-- The script with its answers. -/
def log (script : List Access) (env : ε) : List (Access × BspRval) := script.zip (g.answers script env)

@[simp] theorem log_length (script : List Access) (env : ε) : (g.log script env).length = script.length := by
  simp [log]

theorem log_append (s r : List Access) (env : ε) : g.log (s ++ r) env = g.log s env ++ g.log r (g.after s env) := by
  unfold log
  rw [answers_append, List.zip_append (g.answers_length s env).symm]

theorem forall_mem_log {script : List Access} {env : ε} :
    (∀ p ∈ g.log script env, p.2 = BSP_RVAL_OK) ↔ g.AllOk script env := by
  have hsnd : (g.log script env).map Prod.snd = g.answers script env := by
    unfold log
    rw [List.map_snd_zip (Nat.le_of_eq (g.answers_length script env))]
  unfold AllOk
  rw [← hsnd, List.forall_mem_map]

end Gpio

/-! ## Code that follows a script -/

theorem run_bind {α β : Type} (m : DrvM ε α) (k : α → DrvM ε β) (d : Drv ε) : (m >>= k) d = k (m d).1 (m d).2 := rfl

theorem run_pure {α : Type} (x : α) (d : Drv ε) : (pure x : DrvM ε α) d = (x, d) := rfl

/-- From `d`, the code makes exactly these accesses, in order, and keeps the status. -/
def FollowsFrom (g : Gpio ε) {α : Type} (m : DrvM ε α) (d : Drv ε) (script : List Access) : Prop :=
  accesses (m d).2.wire = accesses d.wire ++ g.log script d.env ∧ (m d).2.env = g.after script d.env ∧
    (m d).2.status = d.status

def Follows (g : Gpio ε) {α : Type} (m : DrvM ε α) (script : List Access) : Prop := ∀ d, FollowsFrom g m d script

section Follows

variable {g : Gpio ε}

theorem follows_pure {α : Type} (x : α) : Follows g (pure x : DrvM ε α) [] := by
  intro d
  exact ⟨(List.append_nil _).symm, rfl, rfl⟩

theorem FollowsFrom.bind {α β : Type} {m : DrvM ε α} {k : α → DrvM ε β} {d : Drv ε} {s r : List Access}
    (hm : FollowsFrom g m d s) (hk : FollowsFrom g (k (m d).1) (m d).2 r) : FollowsFrom g (m >>= k) d (s ++ r) := by
  obtain ⟨hwire, henv, hstatus⟩ := hm
  obtain ⟨hwire', henv', hstatus'⟩ := hk
  refine ⟨?_, ?_, ?_⟩
  · rw [run_bind, hwire', hwire, henv, g.log_append, List.append_assoc]
  · rw [run_bind, henv', henv, g.after_append]
  · rw [run_bind, hstatus', hstatus]

theorem Follows.bind {α β : Type} {m : DrvM ε α} {k : α → DrvM ε β} {s r : List Access} (hm : Follows g m s)
    (hk : ∀ x, Follows g (k x) r) : Follows g (m >>= k) (s ++ r) :=
  fun d => (hm d).bind (hk _ _)

theorem normalise_level (state : U32) : normalise state = if decide (state ≠ 0) then 1 else 0 := by
  unfold normalise
  by_cases h : state = 0
  · rw [if_neg (not_not.mpr h), decide_eq_false (not_not.mpr h), h]
    rfl
  · rw [if_pos h, decide_eq_true h]
    rfl

theorem follows_setPin (g : Gpio ε) (pin : Pin) (state : U32) :
    Follows g (eepromDrvSetPin g pin state) [.write pin (decide (state ≠ 0))] := by
  intro d
  refine ⟨?_, ?_, rfl⟩
  · show accesses (d.wire ++ [_]) = _
    rw [accesses_append]
    congr 1
    simp only [accesses, List.filterMap_cons, List.filterMap_nil, WireEvent.access?]
    rw [normalise_ne_zero, normalise_level]
    rfl
  · show (g.write pin (normalise state) d.env).2 = _
    rw [normalise_level]
    rfl

theorem follows_udelay (g : Gpio ε) (usec : U32) : Follows g (udelay usec : DrvM ε Unit) [] := by
  intro d
  refine ⟨?_, rfl, rfl⟩
  show accesses (d.wire ++ [_]) = _
  rw [accesses_append]
  rfl

theorem follows_readDI (g : Gpio ε) : Follows g (readDI g) [.readDI] := by
  intro d
  refine ⟨?_, rfl, rfl⟩
  show accesses (d.wire ++ [_]) = _
  rw [accesses_append]
  rfl

/-! ## The scripts of `eeprom_bits.c` -/

/-- `eepromDrvReadBit`. -/
def pollScript : List Access := [.write .eepromSK false, .write .eepromCS true, .write .eepromSK true, .readDI]

/-- One turn of `eepromDrvSendBits`. -/
def cellScript (b : Bool) : List Access :=
  [.write .eepromSK false, .write .eepromCS true, .write .eepromDO b, .write .eepromSK true]

/-- `eepromDrvFinishCommand`. -/
def releaseScript (clocks : Nat) : List Access :=
  [.write .eepromSK false, .write .eepromCS false, .write .eepromDO false] ++
    (List.replicate clocks [.write .eepromSK false, .write .eepromSK true]).flatten ++ [.write .eepromSK false]

theorem follows_readBit (g : Gpio ε) : Follows g (eepromDrvReadBit g) pollScript := by
  unfold eepromDrvReadBit
  have hsample : Follows g (do
      let p ← readDI g
      if p.1 ≠ BSP_RVAL_OK then return 0
      return normalise p.2) [.readDI] := by
    refine (follows_readDI g).bind (r := []) fun p => ?_
    split
    · exact follows_pure _
    · exact follows_pure _
  exact (follows_setPin g .eepromSK 0).bind fun _ => (follows_setPin g .eepromCS 1).bind fun _ =>
    (follows_udelay g 4).bind fun _ => (follows_setPin g .eepromSK 1).bind fun _ => (follows_udelay g 4).bind fun _ =>
    hsample

theorem follows_finishClocks (g : Gpio ε) (clocks : Nat) :
    Follows g (finishClocks g clocks)
      (List.replicate clocks [Access.write .eepromSK false, Access.write .eepromSK true]).flatten := by
  induction clocks with
  | zero => exact follows_pure ()
  | succ clocks ih =>
    unfold finishClocks
    rw [List.replicate_succ, List.flatten_cons]
    exact (follows_setPin g .eepromSK 0).bind fun _ => (follows_udelay g 4).bind fun _ =>
      (follows_setPin g .eepromSK 1).bind fun _ => (follows_udelay g 4).bind fun _ => ih

theorem follows_finishCommand (g : Gpio ε) (clocks : Nat) :
    Follows g (eepromDrvFinishCommand g clocks) (releaseScript clocks) := by
  unfold eepromDrvFinishCommand releaseScript
  rw [List.append_assoc]
  exact (follows_setPin g .eepromSK 0).bind fun _ => (follows_setPin g .eepromCS 0).bind fun _ =>
    (follows_setPin g .eepromDO 0).bind fun _ => (follows_finishClocks g clocks).bind fun _ =>
    (follows_setPin g .eepromSK 0).bind fun _ => follows_pure _

theorem follows_sendBitsFrom (g : Gpio ε) (data : U32) (n : Nat) :
    Follows g (sendBitsFrom g data n) ((bitsBelow data n).flatMap cellScript) := by
  induction n with
  | zero => exact follows_pure ()
  | succ i ih =>
    unfold sendBitsFrom
    have hdo := follows_setPin g .eepromDO ((data >>> i) &&& 1)
    rw [shifted_bit data i] at hdo
    rw [bitsBelow, List.flatMap_cons]
    exact (follows_setPin g .eepromSK 0).bind fun _ => (follows_setPin g .eepromCS 1).bind fun _ =>
      hdo.bind fun _ => (follows_udelay g 4).bind fun _ => (follows_setPin g .eepromSK 1).bind fun _ =>
      (follows_udelay g 4).bind fun _ => ih

theorem follows_sendBits (g : Gpio ε) {size : Nat} (hs : size ≤ 32) (data : U32) :
    Follows g (eepromDrvSendBits g size data) ((bitsBelow data size).flatMap cellScript) := by
  rw [sendBits_eq hs, ← List.append_nil ((bitsBelow data size).flatMap cellScript)]
  exact (follows_sendBitsFrom g data size).bind fun _ => follows_pure _

theorem follows_readBitsFrom (g : Gpio ε) (n : Nat) (read : U16) :
    Follows g (readBitsFrom g n read) (List.replicate n pollScript).flatten := by
  induction n generalizing read with
  | zero => exact follows_pure read
  | succ n ih =>
    unfold readBitsFrom
    rw [List.replicate_succ, List.flatten_cons]
    exact (follows_readBit g).bind fun _ => ih _

@[simp] theorem cells_length (bits : List Bool) : (bits.flatMap cellScript).length = 4 * bits.length := by
  induction bits with
  | nil => rfl
  | cons b bits ih =>
    rw [List.flatMap_cons, List.length_append, ih, List.length_cons]
    show 4 + _ = _
    omega

@[simp] theorem polls_length (n : Nat) : (List.replicate n pollScript).flatten.length = 4 * n := by
  induction n with
  | zero => rfl
  | succ n ih =>
    rw [List.replicate_succ, List.flatten_cons, List.length_append, ih]
    show 4 + _ = _
    omega

/-! ## What EEPROM_DI shows -/

namespace Gpio

variable (g : Gpio ε)

/-- The bit that `eepromDrvReadBit` takes: 0 where the access fails. -/
def sample (env : ε) : Bool :=
  let di := g.readDI (g.after [.write .eepromSK false, .write .eepromCS true, .write .eepromSK true] env)
  decide (di.1 = BSP_RVAL_OK ∧ di.2.1 ≠ 0)

/-- `n` bits, one after the other. -/
def samples : Nat → ε → List Bool
  | 0, _ => []
  | n + 1, env => g.sample env :: samples n (g.after pollScript env)

theorem samples_succ (n : Nat) (env : ε) :
    g.samples (n + 1) env = g.sample env :: g.samples n (g.after pollScript env) := rfl

/-- One of the next `n` polls finds EEPROM_DI high. -/
def readyWithin (n : Nat) (env : ε) : Bool := (g.samples n env).any id

end Gpio

/-- The clock cycle of `eepromDrvReadBit`. -/
def clockBit (g : Gpio ε) : DrvM ε Unit := do
  let _ ← eepromDrvSetSK g 0
  let _ ← eepromDrvSetCS g 1
  udelay 4
  let _ ← eepromDrvSetSK g 1
  udelay 4

theorem follows_clockBit (g : Gpio ε) :
    Follows g (clockBit g) [.write .eepromSK false, .write .eepromCS true, .write .eepromSK true] :=
  (follows_setPin g .eepromSK 0).bind fun _ => (follows_setPin g .eepromCS 1).bind fun _ =>
    (follows_udelay g 4).bind fun _ => (follows_setPin g .eepromSK 1).bind fun _ => follows_udelay g 4

theorem readBit_value (d : Drv ε) : (eepromDrvReadBit g d).1 = if g.sample d.env then 1 else 0 := by
  obtain ⟨-, henv, -⟩ := follows_clockBit g d
  have hrun : (eepromDrvReadBit g d).1 = ((if (g.readDI (clockBit g d).2.env).1 ≠ BSP_RVAL_OK then return 0
      else return normalise (g.readDI (clockBit g d).2.env).2.1 : DrvM ε U32) (readDI g (clockBit g d).2).2).1 := rfl
  rw [hrun, henv]
  unfold Gpio.sample
  by_cases hret : (g.readDI (g.after [.write .eepromSK false, .write .eepromCS true, .write .eepromSK true] d.env)).1 =
      BSP_RVAL_OK
  · rw [if_neg (not_not.mpr hret)]
    show normalise _ = _
    simp only [hret, true_and]
    rw [normalise_level]
  · rw [if_pos hret]
    simp only [hret, false_and, decide_false]
    rfl

theorem pollReady_value (n : Nat) (d : Drv ε) : (pollReady g n d).1 = !g.readyWithin n d.env := by
  induction n generalizing d with
  | zero => rfl
  | succ n ih =>
    obtain ⟨-, henv, -⟩ := follows_readBit g d
    have hrun : pollReady g (n + 1) d = (if (eepromDrvReadBit g d).1 ≠ 0 then return false else pollReady g n)
        (eepromDrvReadBit g d).2 := rfl
    rw [hrun, readBit_value]
    unfold Gpio.readyWithin
    rw [g.samples_succ]
    cases hs : g.sample d.env with
    | true => rfl
    | false =>
      rw [if_neg (by decide), ih, henv]
      rfl

theorem shifted_sample (b : Bool) {n : Nat} (hn : n < 16) (i : Nat) :
    ((normalise (if b then 1 else 0)).setWidth 16 <<< n : U16).getLsbD i = (decide (i = n) && b) := by
  have hbit : ((normalise (if b then 1 else 0)).setWidth 16 : U16) = if b then 1 else 0 := by
    cases b <;> rfl
  rw [hbit, BitVec.getLsbD_shiftLeft]
  cases b with
  | false => simp
  | true =>
    by_cases hin : i = n
    · subst hin
      simp [hn]
    · by_cases hlt : i < n
      · simp [hlt, hin]
      · have hpos : ¬ i - n = 0 := by omega
        simp [hin, hpos]

/-- The bits or-ed in by `eepromDrvReadWord`, from `n - 1` down. -/
theorem readBitsFrom_getLsbD (n : Nat) (hn : n ≤ 16) (read : U16) (d : Drv ε) (i : Nat) :
    (readBitsFrom g n read d).1.getLsbD i =
      (read.getLsbD i || (decide (i < n) && (g.samples n d.env).getD (n - 1 - i) false)) := by
  induction n generalizing read d with
  | zero =>
    show read.getLsbD i = _
    simp
  | succ n ih =>
    obtain ⟨-, henv, -⟩ := follows_readBit g d
    have hrun : readBitsFrom g (n + 1) read d = readBitsFrom g n
        (read ||| ((normalise (eepromDrvReadBit g d).1).setWidth 16 <<< n)) (eepromDrvReadBit g d).2 := rfl
    rw [hrun, ih (by omega), henv, readBit_value, BitVec.getLsbD_or, shifted_sample _ (by omega), g.samples_succ]
    rcases Nat.lt_trichotomy i n with hi | rfl | hi
    · have hsub : n + 1 - 1 - i = (n - 1 - i) + 1 := by omega
      have hne : i ≠ n := by omega
      have hlt : i < n + 1 := by omega
      rw [hsub, List.getD_cons_succ]
      simp [hi, hne, hlt]
    · simp
    · have hne : i ≠ n := by omega
      have h1 : ¬ i < n := by omega
      have h2 : ¬ i < n + 1 := by omega
      simp [hne, h1, h2]

end Follows

end Iosu.Eeprom
