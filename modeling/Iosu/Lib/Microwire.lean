/-
  Iosu.Lib.Microwire — a serial EEPROM on the three lines: 256 words of 16 bits.

  A frame is an instruction: zeros, a start bit, two bits of opcode, eight of address,
  and for a write sixteen of data. The device carries an instruction out when its frame
  ends, and programs the array only while programming is enabled; while it is busy
  programming, a frame is lost on it. Behind the header of a read it shifts the word out
  on the next sixteen clocks.

  When programming comes to an end is the device's own affair: `Reaches` relates the
  device before and behind some edges, with that end anywhere between them.
-/

import Iosu.Lib.Serial

namespace Iosu.Lib.Microwire

open Iosu.Lib.Serial Iosu.Lib.Serial.Receiver

/-! ## Instructions -/

inductive Instruction where
  | read (addr : BitVec 8)
  | write (addr : BitVec 8) (data : BitVec 16)
  | erase (addr : BitVec 8)
  | eraseAll
  | writeAll (data : BitVec 16)
  | enable
  | disable
  deriving DecidableEq, Repr

/-- A bit shifted in from the right. -/
def shiftIn {w : Nat} (x : BitVec w) (b : Bool) : BitVec w := (x <<< 1) ||| (if b then 1#w else 0#w)

/-- The word with these bits, the first one most significant. -/
def wordOf (w : Nat) (bits : List Bool) : BitVec w := bits.foldl shiftIn 0#w

/-- The frame from its start bit on. -/
def started (f : Frame) : Frame := f.dropWhile fun b => !b

/-- What a frame asks for, if it is an instruction. -/
def instruction (f : Frame) : Option Instruction :=
  match started f with
  | true :: true :: false :: rest => if 8 ≤ rest.length then some (.read (wordOf 8 (rest.take 8))) else none
  | true :: false :: true :: rest =>
    if rest.length = 24 then some (.write (wordOf 8 (rest.take 8)) (wordOf 16 (rest.drop 8))) else none
  | true :: true :: true :: rest => if rest.length = 8 then some (.erase (wordOf 8 rest)) else none
  | true :: false :: false :: true :: true :: rest => if rest.length = 6 then some .enable else none
  | true :: false :: false :: true :: false :: rest => if rest.length = 6 then some .eraseAll else none
  | true :: false :: false :: false :: true :: rest =>
    if rest.length = 22 then some (.writeAll (wordOf 16 (rest.drop 6))) else none
  | true :: false :: false :: false :: false :: rest => if rest.length = 6 then some .disable else none
  | _ => none

/-! ## The array -/

structure Store where
  mem : BitVec 8 → BitVec 16
  /-- Programming is enabled. -/
  enabled : Bool

namespace Store

/-- The array programmed, if that is enabled. -/
def program (s : Store) (mem : BitVec 8 → BitVec 16) : Store := if s.enabled then { s with mem := mem } else s

def carryOut (s : Store) : Instruction → Store
  | .read _ => s
  | .write addr data => s.program (Function.update s.mem addr data)
  | .erase addr => s.program (Function.update s.mem addr (BitVec.allOnes 16))
  | .eraseAll => s.program fun _ => BitVec.allOnes 16
  | .writeAll data => s.program fun _ => data
  | .enable => { s with enabled := true }
  | .disable => { s with enabled := false }

/-- The store behind a frame. -/
def execute (s : Store) (f : Frame) : Store := ((instruction f).map s.carryOut).getD s

@[simp] theorem program_enabled (s : Store) (mem : BitVec 8 → BitVec 16) : (s.program mem).enabled = s.enabled := by
  unfold program
  split <;> rfl

end Store

/-- A frame that changes nothing in the device. -/
def Idle (f : Frame) : Prop := instruction f = none ∨ ∃ addr, instruction f = some (.read addr)

theorem Idle.execute {f : Frame} (h : Idle f) (s : Store) : s.execute f = s := by
  unfold Store.execute
  rcases h with h | ⟨addr, h⟩
  · rw [h]
    rfl
  · rw [h]
    rfl

/-! ## The device -/

structure Device where
  rx : Receiver
  store : Store
  busy : Bool

/-- The frame that an edge ends. -/
def ended (rx : Receiver) : Edge → Option Frame
  | (.select, false) => rx.current
  | _ => none

namespace Device

/-- Programming begins with the frame of an instruction to program, if it is enabled. -/
def begins (s : Store) (f : Frame) : Bool :=
  match instruction f with
  | some (.write _ _) => s.enabled
  | some (.erase _) => s.enabled
  | some .eraseAll => s.enabled
  | some (.writeAll _) => s.enabled
  | _ => false

def next (v : Device) (e : Edge) : Device :=
  match ended v.rx e with
  | none => { v with rx := v.rx.next e }
  | some f =>
    if v.busy then { v with rx := v.rx.next e }
    else { rx := v.rx.next e, store := v.store.execute f, busy := begins v.store f }

/-- Programming may have come to an end. -/
def Settles (v v' : Device) : Prop := v' = v ∨ v' = { v with busy := false }

/-- The bit that the device puts on its output, behind the header of a read. -/
def output (v : Device) : Option Bool :=
  match v.rx.current.map started with
  | some (true :: true :: false :: rest) =>
    if 8 < rest.length ∧ rest.length ≤ 24 then
      some ((v.store.mem (wordOf 8 (rest.take 8))).getLsbD (24 - rest.length))
    else none
  | _ => none

/-- Selected, and no instruction begun. -/
def Waiting (v : Device) : Prop := ∃ f, v.rx.current = some f ∧ started f = []

/-- Nothing selected, all lines low, and not programming. -/
def AtRest (v : Device) : Prop := v.rx = Receiver.idle v.rx.frames ∧ v.busy = false

end Device

open Device

/-- The device behind some edges. -/
inductive Reaches (v : Device) : List Edge → Device → Prop
  | start : Reaches v [] v
  | edge {v' : Device} {es : List Edge} (e : Edge) : Reaches v es v' → Reaches v (es ++ [e]) (v'.next e)
  | settle {v' v'' : Device} {es : List Edge} : Reaches v es v' → Settles v' v'' → Reaches v es v''

theorem Reaches.append {v v' v'' : Device} {es es' : List Edge} (h : Reaches v es v') (h' : Reaches v' es' v'') :
    Reaches v (es ++ es') v'' := by
  induction h' with
  | start =>
    rw [List.append_nil]
    exact h
  | edge e _ ih =>
    rw [← List.append_assoc]
    exact Reaches.edge e ih
  | settle _ hs ih => exact Reaches.settle ih hs

/-! ## Frames of words -/

theorem shiftIn_getLsbD {w : Nat} (x : BitVec w) (b : Bool) (i : Nat) (hi : i < w) :
    (shiftIn x b).getLsbD i = if i = 0 then b else x.getLsbD (i - 1) := by
  unfold shiftIn
  rw [BitVec.getLsbD_or, BitVec.getLsbD_shiftLeft]
  by_cases h0 : i = 0
  · subst h0
    cases b <;> simp [hi]
  · have h1 : ¬ i < 1 := by omega
    cases b <;> simp [hi, h0, h1]

theorem foldl_bitsBelow_getLsbD {w w' : Nat} (acc : BitVec w) (x : BitVec w') (n i : Nat) (hi : i < w) :
    ((bitsBelow x n).foldl shiftIn acc).getLsbD i =
      if i < n then x.getLsbD i else acc.getLsbD (i - n) := by
  induction n generalizing acc with
  | zero => simp [bitsBelow]
  | succ n ih =>
    rw [bitsBelow, List.foldl_cons, ih]
    by_cases hlt : i < n
    · have hlt' : i < n + 1 := by omega
      rw [if_pos hlt, if_pos hlt']
    · rw [if_neg hlt, shiftIn_getLsbD _ _ _ (by omega)]
      by_cases heq : i = n
      · subst heq
        simp
      · have hsub : ¬ i - n = 0 := by omega
        have hlt' : ¬ i < n + 1 := by omega
        rw [if_neg hsub, if_neg hlt', Nat.sub_sub]

@[simp] theorem wordOf_msbFirst {w : Nat} (x : BitVec w) : wordOf w (msbFirst x) = x := by
  apply BitVec.eq_of_getLsbD_eq
  intro i hi
  unfold wordOf msbFirst
  rw [foldl_bitsBelow_getLsbD _ _ _ _ hi, if_pos hi]

theorem msbFirst_length {w : Nat} (x : BitVec w) : (msbFirst x).length = w := bitsBelow_length x w

theorem instruction_write (addr : BitVec 8) (data : BitVec 16) :
    instruction ([true, false, true] ++ msbFirst addr ++ msbFirst data) = some (.write addr data) := by
  have hlen : (msbFirst addr ++ msbFirst data).length = 24 := by
    rw [List.length_append, msbFirst_length, msbFirst_length]
  show (if (msbFirst addr ++ msbFirst data).length = 24 then
    some (Instruction.write (wordOf 8 ((msbFirst addr ++ msbFirst data).take 8))
      (wordOf 16 ((msbFirst addr ++ msbFirst data).drop 8))) else none) = _
  rw [if_pos hlen, List.take_left' (msbFirst_length addr), List.drop_left' (msbFirst_length addr), wordOf_msbFirst,
    wordOf_msbFirst]

/-- The header of a read, and any bits behind it. -/
theorem instruction_read (addr : BitVec 8) (bits : List Bool) :
    instruction ([true, true, false] ++ msbFirst addr ++ bits) = some (.read addr) := by
  have hlen : 8 ≤ (msbFirst addr ++ bits).length := by
    rw [List.length_append, msbFirst_length]
    omega
  show (if 8 ≤ (msbFirst addr ++ bits).length then
    some (Instruction.read (wordOf 8 ((msbFirst addr ++ bits).take 8))) else none) = _
  rw [if_pos hlen, List.take_left' (msbFirst_length addr), wordOf_msbFirst]

theorem started_zeros (n : Nat) : started (List.replicate n false) = [] := by
  unfold started
  induction n with
  | zero => rfl
  | succ n ih =>
    rw [List.replicate_succ, List.dropWhile_cons_of_pos rfl]
    exact ih

theorem idle_zeros (n : Nat) : Idle (List.replicate n false) := by
  left
  unfold instruction
  rw [started_zeros]

/-- The output while `k + 1` of the clocks behind the header of a read have risen. -/
theorem output_read {v : Device} {addr : BitVec 8} {bits : List Bool} (k : Nat) (hk : k < 16)
    (hbits : bits.length = k + 1) (hv : v.rx.current = some ([true, true, false] ++ msbFirst addr ++ bits)) :
    v.output = some ((v.store.mem addr).getLsbD (15 - k)) := by
  have hlen : (msbFirst addr ++ bits).length = 8 + (k + 1) := by
    rw [List.length_append, msbFirst_length, hbits]
  have hrange : 8 < (msbFirst addr ++ bits).length ∧ (msbFirst addr ++ bits).length ≤ 24 := by omega
  unfold Device.output
  rw [hv]
  show (if 8 < (msbFirst addr ++ bits).length ∧ (msbFirst addr ++ bits).length ≤ 24 then
    some ((v.store.mem (wordOf 8 ((msbFirst addr ++ bits).take 8))).getLsbD (24 - (msbFirst addr ++ bits).length))
    else none) = _
  rw [if_pos hrange, List.take_left' (msbFirst_length addr), wordOf_msbFirst, hlen]
  congr 2
  omega

theorem output_waiting {v : Device} (h : Waiting v) : v.output = none := by
  obtain ⟨f, hcur, hstarted⟩ := h
  unfold Device.output
  rw [hcur, Option.map_some, hstarted]

/-! ## What the edges do -/

@[simp] theorem Device.next_rx (v : Device) (e : Edge) : (v.next e).rx = v.rx.next e := by
  unfold Device.next
  split
  · rfl
  · split <;> rfl

theorem Device.Settles.rx {v v' : Device} (h : Settles v v') : v'.rx = v.rx := by
  rcases h with rfl | rfl <;> rfl

theorem Device.Settles.store {v v' : Device} (h : Settles v v') : v'.store = v.store := by
  rcases h with rfl | rfl <;> rfl

theorem Device.Settles.busy {v v' : Device} (h : Settles v v') (hb : v'.busy = true) : v.busy = true := by
  rcases h with rfl | rfl
  · exact hb
  · cases hb

theorem frames_next (rx : Receiver) (e : Edge) : (rx.next e).frames = rx.frames ++ (ended rx e).toList := by
  rcases e with ⟨line, level⟩
  cases line <;> cases level <;> simp [Receiver.next, ended]
  split <;> rfl

/-- The receiver sees the edges, whatever else the device does. -/
theorem Reaches.rx {v v' : Device} {es : List Edge} (h : Reaches v es v') : v'.rx = decode v.rx es := by
  induction h with
  | start => rfl
  | edge e _ ih =>
    rw [Device.next_rx, ih, decode_append]
    rfl
  | settle _ hs ih => rw [hs.rx, ih]

theorem Reaches.frames {v v' : Device} {es : List Edge} (h : Reaches v es v') :
    ∃ fs, v'.rx.frames = v.rx.frames ++ fs := by
  induction h with
  | start => exact ⟨[], (List.append_nil _).symm⟩
  | @edge v' es e _ ih =>
    obtain ⟨fs, hfs⟩ := ih
    refine ⟨fs ++ (ended v'.rx e).toList, ?_⟩
    rw [Device.next_rx, frames_next, hfs, List.append_assoc]
  | settle _ hs ih =>
    rw [hs.rx]
    exact ih

theorem begins_idle {f : Frame} (h : Idle f) (s : Store) : begins s f = false := by
  unfold begins
  rcases h with h | ⟨addr, h⟩ <;> rw [h]

/-- Frames that ask for nothing leave the store, and do not make the device busy. -/
theorem Reaches.idle {v v' : Device} {es : List Edge} (h : Reaches v es v') :
    ∀ fs, v'.rx.frames = v.rx.frames ++ fs → (∀ f ∈ fs, Idle f) →
      v'.store = v.store ∧ (v'.busy = true → v.busy = true) := by
  induction h with
  | start =>
    intro fs _ _
    exact ⟨rfl, id⟩
  | @edge v' es e h ih =>
    intro fs hfs hidle
    obtain ⟨gs, hgs⟩ := h.frames
    rw [Device.next_rx, frames_next, hgs, List.append_assoc, List.append_cancel_left_eq] at hfs
    obtain ⟨hstore, hbusy⟩ := ih gs hgs fun f hf => hidle f (hfs ▸ List.mem_append_left _ hf)
    unfold Device.next
    cases he : ended v'.rx e with
    | none => exact ⟨hstore, hbusy⟩
    | some f =>
      have hf : Idle f := by
        refine hidle f ?_
        rw [← hfs, he]
        exact List.mem_append_right _ List.mem_cons_self
      dsimp only
      by_cases hb : v'.busy = true
      · rw [if_pos hb]
        exact ⟨hstore, hbusy⟩
      · rw [if_neg hb]
        refine ⟨?_, ?_⟩
        · show v'.store.execute f = _
          rw [hf.execute, hstore]
        · intro hbegins
          rw [begins_idle hf] at hbegins
          cases hbegins
  | settle h hs ih =>
    intro fs hfs hidle
    rw [hs.rx] at hfs
    obtain ⟨hstore, hbusy⟩ := ih fs hfs hidle
    exact ⟨hs.store.trans hstore, fun hb => hbusy (hs.busy hb)⟩

theorem free_of_imp {b b' : Bool} (h : b' = true → b = true) (hb : b = false) : b' = false := by
  cases b' with
  | false => rfl
  | true => exact absurd (h rfl) (by simp [hb])

/-- A frame that finds the device free is carried out. -/
theorem Reaches.frame {v v' : Device} {es : List Edge} (h : Reaches v es v') (hfree : v.busy = false) (f : Frame) :
    v'.rx.frames = v.rx.frames ++ [f] →
      v'.store = v.store.execute f ∧ (v'.busy = true → begins v.store f = true) := by
  induction h with
  | start =>
    intro hf
    exact absurd (List.append_right_eq_self.mp hf.symm) (List.cons_ne_nil f [])
  | @edge v' es e h ih =>
    intro hf
    obtain ⟨gs, hgs⟩ := h.frames
    rw [Device.next_rx, frames_next, hgs, List.append_assoc, List.append_cancel_left_eq] at hf
    unfold Device.next
    cases he : ended v'.rx e with
    | none =>
      rw [he, Option.toList_none, List.append_nil] at hf
      rw [hf] at hgs
      exact ih hgs
    | some f' =>
      rw [he, Option.toList_some] at hf
      obtain ⟨rfl, hff⟩ := List.append_eq_singleton_iff.mp hf |>.resolve_right (by simp)
      obtain rfl : f' = f := by simpa using hff
      obtain ⟨hstore, hbusy⟩ := h.idle [] hgs (by simp)
      have hb : ¬ v'.busy = true := by
        intro hb
        rw [hbusy hb] at hfree
        cases hfree
      dsimp only
      rw [if_neg hb, hstore]
      exact ⟨rfl, id⟩
  | settle h hs ih =>
    intro hf
    rw [hs.rx] at hf
    obtain ⟨hstore, hbusy⟩ := ih hf
    exact ⟨hs.store.trans hstore, fun hb => hbusy (hs.busy hb)⟩

end Iosu.Lib.Microwire
