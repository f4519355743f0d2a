/-
  Iosu.Lib.Serial — three-wire serial lines: chip select, clock, data.

  A `Receiver` is what a device on the lines makes of the levels it sees: it samples
  the data line at every rising clock edge while it is selected, and the bits sampled
  from one selection to the next are a frame. A master that bit-bangs the lines
  drives them in cells, one clock edge each, and then lets go of them; the lemmas say
  what the receiver makes of the cells (`decode_sendCells`, `decode_holdCells`), of
  letting go (`decode_release`), and of whole frames.
-/

import Mathlib.Data.List.Basic
import Mathlib.Tactic.Common

namespace Iosu.Lib.Serial

inductive Line where
  | select
  | clock
  | data
  deriving DecidableEq, Repr

/-- A line driven to a level. -/
abbrev Edge := Line × Bool

abbrev Frame := List Bool

structure Receiver where
  clock : Bool
  data : Bool
  /-- The bits sampled since the device was selected. -/
  current : Option Frame
  /-- The frames that have ended. -/
  frames : List Frame
  deriving DecidableEq, Repr

namespace Receiver

def next (r : Receiver) : Edge → Receiver
  | (.select, true) => { r with current := some (r.current.getD []) }
  | (.select, false) => { r with current := none, frames := r.frames ++ r.current.toList }
  | (.clock, true) => if r.clock then r else { r with clock := true, current := r.current.map (· ++ [r.data]) }
  | (.clock, false) => { r with clock := false }
  | (.data, b) => { r with data := b }

def decode (r : Receiver) (es : List Edge) : Receiver := es.foldl next r

/-- All lines low, with the frames received so far. -/
def idle (frames : List Frame) : Receiver := { clock := false, data := false, current := none, frames := frames }

theorem decode_append (r : Receiver) (es es' : List Edge) : decode r (es ++ es') = decode (decode r es) es' := by
  simp [decode]

@[simp] theorem decode_nil (r : Receiver) : decode r [] = r := rfl

/-- Letting lines that are low stay low changes nothing. -/
theorem decode_idle_low (fs : List Frame) (es : List Edge) (h : ∀ e ∈ es, e.2 = false) :
    decode (idle fs) es = idle fs := by
  induction es with
  | nil => rfl
  | cons e es ih =>
    have hnext : next (idle fs) e = idle fs := by
      have hlow := h e List.mem_cons_self
      rcases e with ⟨line, level⟩
      dsimp only at hlow
      subst hlow
      cases line <;> simp [next, idle]
    show decode (next (idle fs) e) es = _
    rw [hnext]
    exact ih fun e' he' => h e' (List.mem_cons_of_mem _ he')

end Receiver

open Receiver

/-! ## A master's cells -/

/-- One bit sent: the clock falls, the bit is put on the line, the clock rises. -/
def sendCell (b : Bool) : List Edge := [(.clock, false), (.select, true), (.data, b), (.clock, true)]

/-- One clock while the data line is left as it is. -/
def holdCell : List Edge := [(.clock, false), (.select, true), (.clock, true)]

/-- The selection ended, and `clocks` more clocks. -/
def release (clocks : Nat) : List Edge :=
  [(.clock, false), (.select, false), (.data, false)] ++
    (List.replicate clocks [(Line.clock, false), (Line.clock, true)]).flatten ++ [(.clock, false)]

theorem decode_sendCell (r : Receiver) (b : Bool) :
    decode r (sendCell b) =
      { clock := true, data := b, current := some (r.current.getD [] ++ [b]), frames := r.frames } := by
  simp [decode, sendCell, next]

theorem decode_holdCell (r : Receiver) :
    decode r holdCell =
      { clock := true, data := r.data, current := some (r.current.getD [] ++ [r.data]), frames := r.frames } := by
  simp [decode, holdCell, next]

theorem decode_sendCells (r : Receiver) (b : Bool) (bits : List Bool) :
    decode r ((b :: bits).flatMap sendCell) =
      { clock := true, data := (b :: bits).getLast (List.cons_ne_nil b bits),
        current := some (r.current.getD [] ++ b :: bits), frames := r.frames } := by
  induction bits generalizing r b with
  | nil => simp [decode_sendCell]
  | cons b' bits ih =>
    rw [List.flatMap_cons, decode_append, decode_sendCell, ih]
    simp

theorem decode_holdCells (r : Receiver) (n : Nat) :
    decode r (List.replicate (n + 1) holdCell).flatten =
      { clock := true, data := r.data, current := some (r.current.getD [] ++ List.replicate (n + 1) r.data),
        frames := r.frames } := by
  induction n generalizing r with
  | zero => simp [decode_holdCell]
  | succ n ih =>
    rw [List.replicate_succ, List.flatten_cons, decode_append, decode_holdCell, ih]
    simp [List.replicate_succ]

/-- Clocks while the device is not selected are not seen. -/
theorem decode_clocks (r : Receiver) (hr : r.current = none) (n : Nat) :
    decode r ((List.replicate n [(Line.clock, false), (Line.clock, true)]).flatten ++ [(.clock, false)]) =
      { r with clock := false } := by
  induction n generalizing r with
  | zero => rfl
  | succ n ih =>
    have hcell : decode r [(Line.clock, false), (Line.clock, true)] = { r with clock := true } := by
      simp [decode, next, hr]
    rw [List.replicate_succ, List.flatten_cons, List.append_assoc, decode_append, hcell]
    exact ih { r with clock := true } hr

theorem decode_release (r : Receiver) (n : Nat) :
    decode r (release n) = idle (r.frames ++ r.current.toList) := by
  have hlow : decode r [(.clock, false), (.select, false), (.data, false)] = idle (r.frames ++ r.current.toList) := by
    simp [decode, next, idle]
  unfold release
  rw [List.append_assoc, decode_append, hlow, decode_clocks _ rfl]
  rfl

/-! ## Whole frames -/

/-- Bits sent and then let go are a frame. -/
theorem decode_sendFrame (fs : List Frame) (bits : List Bool) (hne : bits ≠ []) (n : Nat) :
    decode (idle fs) (bits.flatMap sendCell ++ release n) = idle (fs ++ [bits]) := by
  cases bits with
  | nil => exact absurd rfl hne
  | cons b bits =>
    rw [decode_append, decode_sendCells, decode_release]
    simp [idle]

/-- Bits sent, `k` more clocks and then let go: the device sees the last bit `k` times
    more. -/
theorem decode_sendHoldFrame (fs : List Frame) (bits : List Bool) (hne : bits ≠ []) (k n : Nat) :
    decode (idle fs) (bits.flatMap sendCell ++ (List.replicate (k + 1) holdCell).flatten ++ release n) =
      idle (fs ++ [bits ++ List.replicate (k + 1) (bits.getLast hne)]) := by
  cases bits with
  | nil => exact absurd rfl hne
  | cons b bits =>
    rw [decode_append, decode_append, decode_sendCells, decode_holdCells, decode_release]
    simp [idle]

/-- Clocks alone are a frame of the level the data line was left at. -/
theorem decode_holdFrame (fs : List Frame) (k n : Nat) :
    decode (idle fs) ((.data, false) :: ((List.replicate (k + 1) holdCell).flatten ++ release n)) =
      idle (fs ++ [List.replicate (k + 1) false]) := by
  have hdata : decode (idle fs) [(.data, false)] = idle fs := decode_idle_low fs _ (by simp)
  rw [← List.singleton_append, decode_append, hdata, decode_append, decode_holdCells, decode_release]
  simp [idle]

/-! ## Words on the line -/

/-- The `n` low bits of a word, from bit `n - 1` down to bit 0. -/
def bitsBelow {w : Nat} (x : BitVec w) : Nat → List Bool
  | 0 => []
  | i + 1 => x.getLsbD i :: bitsBelow x i

/-- The bits of a word, most significant first. -/
def msbFirst {w : Nat} (x : BitVec w) : List Bool := bitsBelow x w

@[simp] theorem bitsBelow_length {w : Nat} (x : BitVec w) (n : Nat) : (bitsBelow x n).length = n := by
  induction n with
  | zero => rfl
  | succ n ih => rw [bitsBelow, List.length_cons, ih]

theorem bitsBelow_getD {w : Nat} (x : BitVec w) {n i : Nat} (hi : i < n) :
    (bitsBelow x n).getD (n - 1 - i) false = x.getLsbD i := by
  induction n with
  | zero => omega
  | succ n ih =>
    rw [bitsBelow]
    by_cases heq : i = n
    · subst heq
      simp
    · have hsub : n + 1 - 1 - i = (n - 1 - i) + 1 := by omega
      rw [hsub, List.getD_cons_succ]
      exact ih (by omega)

theorem bitsBelow_congr {w w' : Nat} {x : BitVec w} {y : BitVec w'} {n : Nat}
    (h : ∀ i < n, x.getLsbD i = y.getLsbD i) : bitsBelow x n = bitsBelow y n := by
  induction n with
  | zero => rfl
  | succ n ih =>
    rw [bitsBelow, bitsBelow, h n (by omega), ih fun i hi => h i (by omega)]

/-- The top bits first, then the rest. -/
theorem bitsBelow_add {w : Nat} (x : BitVec w) (m n : Nat) :
    bitsBelow x (m + n) = bitsBelow (x >>> n) m ++ bitsBelow x n := by
  induction m with
  | zero => simp [bitsBelow]
  | succ m ih =>
    have hbit : x.getLsbD (m + n) = (x >>> n).getLsbD m := by
      rw [BitVec.getLsbD_ushiftRight, Nat.add_comm]
    rw [Nat.succ_add, bitsBelow, bitsBelow, ih, hbit, List.cons_append]

end Iosu.Lib.Serial
