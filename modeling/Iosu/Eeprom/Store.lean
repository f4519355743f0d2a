/-
  Iosu.Eeprom.Store — the driver on a SEEPROM.

  `Attached` says that the pins are those of a `Microwire` device: their writes succeed
  and move its lines, EEPROM_DI shows what it puts out, and one of a thousand polls finds
  it ready. The calls of the open driver then are the operations of the device's store:
  a read delivers the word at its address and leaves the store, a write and a change of
  the write control carry out their instruction, and each leaves the device at rest.
-/

import Iosu.Eeprom.Calls
import Iosu.Lib.Microwire

namespace Iosu.Eeprom

open Iosu.Lib Iosu.Lib.Serial Iosu.Lib.Serial.Receiver Iosu.Lib.Microwire Iosu.Lib.Microwire.Device Iosu.Entity Iosu.Ios

variable {ε : Type}

/-! ## A device on the pins -/

/-- `dev` is the device that the world holds. -/
structure Attached (g : Gpio ε) (dev : ε → Device) : Prop where
  write_ok : ∀ pin state env, (g.write pin state env).1 = BSP_RVAL_OK
  write_dev : ∀ pin level env, Settles ((dev env).next (pin.line, level)) (dev (g.access (.write pin level) env).2)
  read_ok : ∀ env, (g.readDI env).1 = BSP_RVAL_OK
  read_dev : ∀ env, Settles (dev env) (dev (g.readDI env).2.2)
  /-- Behind the header of a read, EEPROM_DI shows the word. -/
  read_output : ∀ env b, (dev env).output = some b → decide ((g.readDI env).2.1 ≠ 0) = b
  /-- Before an instruction has begun, EEPROM_DI is high only on a device that is ready. -/
  read_ready : ∀ env, Waiting (dev env) → (g.readDI env).2.1 ≠ 0 → (dev (g.readDI env).2.2).busy = false
  /-- A device that is not selected is found ready within 1000 polls. -/
  ready : ∀ env, (dev env).rx = Receiver.idle (dev env).rx.frames → g.readyWithin 1000 env = true

/-- The lines that a script drives. -/
def edgesOf (script : List Access) : List Edge :=
  script.filterMap fun
    | .write pin level => some (pin.line, level)
    | .readDI => none

theorem edgesOf_append (s r : List Access) : edgesOf (s ++ r) = edgesOf s ++ edgesOf r := List.filterMap_append

theorem edgesOf_cells (bits : List Bool) : edgesOf (bits.flatMap cellScript) = bits.flatMap sendCell := by
  induction bits with
  | nil => rfl
  | cons b bits ih =>
    rw [List.flatMap_cons, edgesOf_append, ih, List.flatMap_cons]
    rfl

theorem edgesOf_polls (n : Nat) : edgesOf (List.replicate n pollScript).flatten = (List.replicate n holdCell).flatten := by
  induction n with
  | zero => rfl
  | succ n ih =>
    rw [List.replicate_succ, List.flatten_cons, edgesOf_append, ih, List.replicate_succ, List.flatten_cons]
    rfl

section Attached

variable {g : Gpio ε} {dev : ε → Device} (ha : Attached g dev)
include ha

/-- The device behind a script. -/
theorem reaches_after (script : List Access) (env : ε) : Reaches (dev env) (edgesOf script) (dev (g.after script env)) := by
  induction script generalizing env with
  | nil => exact Reaches.start
  | cons a script ih =>
    have hrest := ih (g.access a env).2
    cases a with
    | write pin level =>
      exact (Reaches.settle (Reaches.edge (pin.line, level) Reaches.start) (ha.write_dev pin level env)).append hrest
    | readDI => exact (Reaches.settle Reaches.start (ha.read_dev env)).append hrest

theorem rx_after (script : List Access) (env : ε) :
    (dev (g.after script env)).rx = decode (dev env).rx (edgesOf script) := (reaches_after ha script env).rx

omit ha in
/-- Nothing fails on the pins of a device. -/
theorem Attached.allOk (ha : Attached g dev) (script : List Access) (env : ε) : g.AllOk script env := by
  induction script generalizing env with
  | nil =>
    intro ret hret
    cases hret
  | cons a script ih =>
    intro ret hret
    rcases List.mem_cons.mp hret with rfl | hret
    · cases a with
      | write pin level => exact ha.write_ok pin _ env
      | readDI => exact ha.read_ok env
    · exact ih _ ret hret

/-- A frame sent to the device at rest. -/
theorem device_command {bits : List Bool} (hne : bits ≠ []) {env : ε} (hrest : AtRest (dev env)) :
    (dev (g.after (bits.flatMap cellScript ++ releaseScript 2) env)).rx = Receiver.idle ((dev env).rx.frames ++ [bits]) ∧
      (dev (g.after (bits.flatMap cellScript ++ releaseScript 2) env)).store = (dev env).store.execute bits ∧
      ((dev (g.after (bits.flatMap cellScript ++ releaseScript 2) env)).busy = true →
        begins (dev env).store bits = true) := by
  have hedges : edgesOf (bits.flatMap cellScript ++ releaseScript 2) = bits.flatMap sendCell ++ release 2 := by
    rw [edgesOf_append, edgesOf_cells]
    rfl
  have hrx := rx_after ha (bits.flatMap cellScript ++ releaseScript 2) env
  rw [hedges, hrest.1, decode_sendFrame _ bits hne] at hrx
  refine ⟨hrx, ?_⟩
  refine (reaches_after ha (bits.flatMap cellScript ++ releaseScript 2) env).frame hrest.2 bits ?_
  rw [hrx]
  rfl

/-! ## Reading -/

/-- A clock while the device is selected. -/
theorem device_clock {env : ε} {f : Frame} (hcur : (dev env).rx.current = some f) (script : List Access)
    (hscript : edgesOf script = holdCell) :
    (dev (g.after script env)).rx.current = some (f ++ [(dev env).rx.data]) ∧
      (dev (g.after script env)).store = (dev env).store := by
  have hrx := rx_after ha script env
  rw [hscript, decode_holdCell, hcur] at hrx
  refine ⟨?_, ?_⟩
  · rw [hrx]
    rfl
  · refine ((reaches_after ha script env).idle [] ?_ (by simp)).1
    rw [hrx, List.append_nil]

/-- Behind the header of a read, the samples are the word, from its highest bit on. -/
theorem samples_read {addr : U8} (n : Nat) (bits : List Bool) (hbits : bits.length + n = 16) {env : ε}
    (hcur : (dev env).rx.current = some ([true, true, false] ++ msbFirst addr ++ bits)) :
    g.samples n env = bitsBelow ((dev env).store.mem addr) n := by
  induction n generalizing bits env with
  | zero => rfl
  | succ n ih =>
    obtain ⟨hup, hsame⟩ := device_clock ha hcur
      [.write .eepromSK false, .write .eepromCS true, .write .eepromSK true] rfl
    obtain ⟨hnext, hsame'⟩ := device_clock ha hcur pollScript rfl
    rw [List.append_assoc] at hup hnext
    have hout := output_read bits.length (by omega) (by simp) hup
    have hbit := ha.read_output _ _ hout
    have hsample : g.sample env = ((dev env).store.mem addr).getLsbD n := by
      unfold Gpio.sample
      rw [hsame, show 15 - bits.length = n by omega] at hbit
      simp only [ha.read_ok, true_and]
      exact hbit
    have hrest := ih (bits ++ [(dev env).rx.data]) (by simp; omega) hnext
    rw [g.samples_succ, bitsBelow, hsample, hrest, hsame']

/-- A read of the open driver delivers the word at its address. -/
theorem delivered_eq (addr : U8) {d : Drv ε} (hrest : AtRest (dev d.env)) :
    delivered g addr d = (dev d.env).store.mem addr := by
  obtain ⟨-, henv, -⟩ := follows_sendBits g (by omega : 11 ≤ 32) (0x600 ||| addr.setWidth 32) d
  rw [bitsBelow_read] at henv
  have hrx := rx_after ha (([true, true, false] ++ msbFirst addr).flatMap cellScript) d.env
  rw [edgesOf_cells, hrest.1] at hrx
  have hsends := decode_sendCells (Receiver.idle (dev d.env).rx.frames) true ([true, false] ++ msbFirst addr)
  have hcur : (dev (g.after (([true, true, false] ++ msbFirst addr).flatMap cellScript) d.env)).rx.current =
      some ([true, true, false] ++ msbFirst addr ++ []) := by
    rw [hrx, List.append_nil]
    exact congrArg Receiver.current hsends
  have hstore : (dev (g.after (([true, true, false] ++ msbFirst addr).flatMap cellScript) d.env)).store =
      (dev d.env).store := by
    refine ((reaches_after ha _ d.env).idle [] ?_ (by simp)).1
    have hframes := congrArg Receiver.frames hsends
    rw [hrx, List.append_nil]
    exact hframes
  have hsamples := samples_read ha 16 [] rfl hcur
  rw [hstore] at hsamples
  apply BitVec.eq_of_getLsbD_eq
  intro i hi
  unfold delivered
  rw [readBitsFrom_getLsbD 16 (Nat.le_refl 16), henv, hsamples, bitsBelow_getD _ hi]
  simp [hi]

/-- A read leaves the store, and the device at rest. -/
theorem device_read (addr : U8) {d : Drv ε} (h : d.status = .opened) (hrest : AtRest (dev d.env)) :
    (dev (readWord g addr d).2.env).store = (dev d.env).store ∧ AtRest (dev (readWord g addr d).2.env) := by
  obtain ⟨-, -, henv, -⟩ := readWord_opened (g := g) addr h
  have hedges : edgesOf (readScript addr ++ releaseScript 2) =
      ([true, true, false] ++ msbFirst addr).flatMap sendCell ++ (List.replicate (15 + 1) holdCell).flatten ++ release 2 := by
    unfold readScript
    rw [edgesOf_append, edgesOf_append, edgesOf_cells, edgesOf_polls]
    rfl
  have hrx := rx_after ha (readScript addr ++ releaseScript 2) d.env
  rw [hedges, hrest.1, decode_sendHoldFrame _ _ (by simp)] at hrx
  obtain ⟨hstore, hbusy⟩ := (reaches_after ha (readScript addr ++ releaseScript 2) d.env).idle _ (by rw [hrx]; rfl) (by
    intro f hf
    rw [List.mem_singleton.mp hf]
    exact Or.inr ⟨addr, instruction_read addr _⟩)
  rw [henv]
  refine ⟨hstore, ?_, free_of_imp hbusy hrest.2⟩
  rw [hrx]
  rfl

/-! ## Programming -/

/-- Clocks with EEPROM_DO low, from the end of a frame: zeros are shifted in, and no frame ends. -/
theorem device_held {script : List Access} {j : Nat} {env : ε} (hidle : (dev env).rx = Receiver.idle (dev env).rx.frames)
    (hscript : edgesOf script = (List.replicate (j + 1) holdCell).flatten) :
    (dev (g.after script env)).rx =
        { clock := true, data := false, current := some (List.replicate (j + 1) false), frames := (dev env).rx.frames } ∧
      (dev (g.after script env)).store = (dev env).store := by
  have hrx := rx_after ha script env
  rw [hscript, hidle, decode_holdCells] at hrx
  refine ⟨hrx, ((reaches_after ha script env).idle [] ?_ (by simp)).1⟩
  rw [hrx, List.append_nil]
  rfl

/-- The accesses of a poll before its sample. -/
def beforeSample : List Access := [.write .eepromSK false, .write .eepromCS true, .write .eepromSK true]

/-- A device whose DI is sampled high is not busy any more. -/
theorem device_ready {j : Nat} {env : ε} (hidle : (dev env).rx = Receiver.idle (dev env).rx.frames)
    (hsample : g.sample (g.after (List.replicate j pollScript).flatten env) = true) :
    (dev (g.after (List.replicate (j + 1) pollScript).flatten env)).busy = false := by
  -- the sample is taken behind `j + 1` clocks
  have hlast : g.after (List.replicate (j + 1) pollScript).flatten env =
      (g.readDI (g.after ((List.replicate j pollScript).flatten ++ beforeSample) env)).2.2 := by
    rw [List.replicate_succ', List.flatten_append, g.after_append, g.after_append]
    rfl
  have hclocks : edgesOf ((List.replicate j pollScript).flatten ++ beforeSample) =
      (List.replicate (j + 1) holdCell).flatten := by
    rw [edgesOf_append, edgesOf_polls, List.replicate_succ', List.flatten_append]
    rfl
  have hwaiting : Waiting (dev (g.after ((List.replicate j pollScript).flatten ++ beforeSample) env)) := by
    refine ⟨List.replicate (j + 1) false, ?_, started_zeros (j + 1)⟩
    rw [(device_held ha hidle hclocks).1]
  rw [hlast]
  refine ha.read_ready _ hwaiting ?_
  unfold Gpio.sample at hsample
  rw [g.after_append]
  exact (of_decide_eq_true hsample).2

/-- The polls behind a frame, the last of which finds the device ready, and the release. -/
theorem device_wait {k : Nat} {env : ε} (hidle : (dev env).rx = Receiver.idle (dev env).rx.frames)
    (hsaw : g.SawReady k env) :
    (dev (g.after ((List.replicate k pollScript).flatten ++ releaseScript 2) env)).store = (dev env).store ∧
      AtRest (dev (g.after ((List.replicate k pollScript).flatten ++ releaseScript 2) env)) := by
  obtain ⟨j, rfl, hsample⟩ := hsaw
  have hready := device_ready ha hidle hsample
  obtain ⟨hrx, hsame⟩ := device_held ha hidle (edgesOf_polls (j + 1))
  have hend := rx_after ha (releaseScript 2) (g.after (List.replicate (j + 1) pollScript).flatten env)
  rw [show edgesOf (releaseScript 2) = release 2 from rfl, decode_release, hrx] at hend
  obtain ⟨hstore, hbusy⟩ :=
    (reaches_after ha (releaseScript 2) (g.after (List.replicate (j + 1) pollScript).flatten env)).idle
      [List.replicate (j + 1) false] (by rw [hend, hrx]; rfl) (by
        intro f hf
        rw [List.mem_singleton.mp hf]
        exact idle_zeros (j + 1))
  rw [g.after_append]
  refine ⟨hstore.trans hsame, ?_, free_of_imp hbusy hready⟩
  rw [hend]
  rfl

/-- A frame and the polling behind it: the device carries the frame out, and the call
    answers IOS_ERROR_OK and leaves it at rest. -/
theorem device_polls {m : DrvM ε IosError} {d : Drv ε} {bits : List Bool} (hne : bits ≠ [])
    (hm : Polls g m d (bits.flatMap cellScript)) (hrest : AtRest (dev d.env)) :
    (m d).1 = IOS_ERROR_OK ∧ (dev (m d).2.env).store = (dev d.env).store.execute bits ∧ AtRest (dev (m d).2.env) := by
  obtain ⟨⟨k, ⟨-, henv, -⟩, hsaw⟩, hok⟩ := hm
  obtain ⟨hrx, hstore, -⟩ := device_command ha hne hrest
  have hlow := rx_after ha [.write .eepromDO false] (g.after (bits.flatMap cellScript ++ releaseScript 2) d.env)
  rw [hrx, show edgesOf [.write .eepromDO false] = [(.data, false)] from rfl, decode_idle_low _ _ (by simp)] at hlow
  have hsame := (reaches_after ha [.write .eepromDO false]
    (g.after (bits.flatMap cellScript ++ releaseScript 2) d.env)).idle [] (by rw [hlow, hrx, List.append_nil]) (by simp)
  have hready : g.BecomesReady (bits.flatMap cellScript) d.env := by
    unfold Gpio.BecomesReady
    rw [← List.append_assoc, g.after_append]
    refine ha.ready _ ?_
    rw [hlow]
    rfl
  have hsaw' := hsaw hready
  rw [← List.append_assoc, g.after_append] at hsaw'
  obtain ⟨hstore', hrest'⟩ := device_wait ha (by rw [hlow]; rfl) hsaw'
  have henv' : (m d).2.env = g.after ((List.replicate k pollScript).flatten ++ releaseScript 2)
      (g.after [.write .eepromDO false] (g.after (bits.flatMap cellScript ++ releaseScript 2) d.env)) := by
    rw [henv, ← g.after_append, ← g.after_append, List.append_assoc]
    rfl
  rw [henv']
  exact ⟨hok.mpr hready, (hstore'.trans hsame.1).trans hstore, hrest'⟩

theorem device_write (addr : U8) (data : U16) {d : Drv ε} (h : d.status = .opened) (hrest : AtRest (dev d.env)) :
    (writeWord g addr data d).1 = IOS_ERROR_OK ∧
      (dev (writeWord g addr data d).2.env).store =
        (dev d.env).store.program (Function.update (dev d.env).store.mem addr data) ∧
      AtRest (dev (writeWord g addr data d).2.env) := by
  have hpolls := device_polls ha (by simp) (writeWord_opened (g := g) addr data h) hrest
  unfold Store.execute at hpolls
  rw [instruction_write] at hpolls
  exact hpolls

/-- EWDS and EWEN. -/
theorem device_switch (control : U32) {f : Frame} {d : Drv ε} (h : d.status = .opened)
    (hne : control ≠ EEPROM_WRITE_ERASE) (hf : controlFrame control = some f) (hrest : AtRest (dev d.env)) :
    (setWriteControl g control d).1 = IOS_ERROR_OK ∧
      (dev (setWriteControl g control d).2.env).store =
        { (dev d.env).store with enabled := decide (control = EEPROM_WRITE_ENABLE) } ∧
      AtRest (dev (setWriteControl g control d).2.env) := by
  obtain ⟨⟨-, henv, -⟩, hok⟩ := setWriteControl_switch (g := g) control h hne hf
  have hlen : f ≠ [] := by
    intro he
    have hf' := controlFrame_length hf
    rw [he] at hf'
    cases hf'
  obtain ⟨hrx, hstore, hbusy⟩ := device_command ha hlen hrest
  rw [henv]
  have hswitch : ((dev d.env).store.execute f = { (dev d.env).store with enabled := decide (control = EEPROM_WRITE_ENABLE) }) ∧
      begins (dev d.env).store f = false := by
    unfold controlFrame at hf
    rw [if_neg hne] at hf
    split at hf
    · rename_i hdisable
      cases hf
      subst hdisable
      exact ⟨rfl, rfl⟩
    · split at hf
      · rename_i henable
        cases hf
        subst henable
        exact ⟨rfl, rfl⟩
      · cases hf
  refine ⟨hok, hstore.trans hswitch.1, ?_, ?_⟩
  · rw [hrx]
    rfl
  · cases hb : (dev (g.after (f.flatMap cellScript ++ releaseScript 2) d.env)).busy with
    | false => rfl
    | true =>
      have := hbusy hb
      rw [hswitch.2] at this
      cases this

end Attached

/-! ## A SEEPROM -/

/-- A device that has programmed its array by the next access of EEPROM_DI, and shows 1
    where it puts nothing out. -/
def seeprom : Gpio Device where
  write := fun pin state v => (BSP_RVAL_OK, v.next (pin.line, decide (state ≠ 0)))
  readDI := fun v => (BSP_RVAL_OK, if v.output.getD true then 1 else 0, { v with busy := false })

/-- Nothing driven yet. -/
def Device.fresh (mem : U8 → U16) (enabled : Bool) : Device :=
  { rx := Receiver.idle [], store := { mem := mem, enabled := enabled }, busy := false }

theorem Device.fresh_atRest (mem : U8 → U16) (enabled : Bool) : AtRest (Device.fresh mem enabled) := ⟨rfl, rfl⟩

theorem seeprom_attached : Attached seeprom id where
  write_ok := fun _ _ _ => rfl
  write_dev := by
    intro pin level v
    left
    cases level <;> rfl
  read_ok := fun _ => rfl
  read_dev := fun _ => Or.inr rfl
  read_output := by
    intro v b hb
    show decide ((if v.output.getD true then (1 : U32) else 0) ≠ 0) = b
    rw [show v.output = some b from hb]
    cases b <;> rfl
  read_ready := fun _ _ _ => rfl
  ready := by
    intro v hrx
    have hidle : v.rx = Receiver.idle v.rx.frames := hrx
    have hclocked : (((v.next (.clock, false)).next (.select, true)).next (.clock, true)).rx = decode v.rx holdCell := by
      simp only [Device.next_rx]
      rfl
    rw [hidle, decode_holdCell] at hclocked
    have hout := output_waiting (v := ((v.next (.clock, false)).next (.select, true)).next (.clock, true))
      ⟨[false], by rw [hclocked]; rfl, rfl⟩
    have hfirst : seeprom.sample v = true := by
      show decide (BSP_RVAL_OK = BSP_RVAL_OK ∧ (if (((v.next (.clock, false)).next (.select, true)).next
        (.clock, true)).output.getD true then (1 : U32) else 0) ≠ 0) = true
      rw [hout]
      rfl
    unfold Gpio.readyWithin
    rw [show (1000 : Nat) = 999 + 1 from rfl, seeprom.samples_succ, hfirst]
    rfl

end Iosu.Eeprom
