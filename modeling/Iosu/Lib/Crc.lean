/-
  Iosu.Lib.Crc — cyclic redundancy checks, a bit at a time.

  The register holds the remainder of the bits fed so far, reflected: a bit is added to
  its lowest place and the register moves down, with the polynomial added where a one
  falls out (`feedBit`). Moving down is linear in exclusive or (`shift_xor`). So a byte
  can be added at once and moved through by eight shifts (`feed_byte`), and of these only
  the low octet needs a table (`shifts_split`). A linear map is known by what it does to
  single bits (`Linear.ext`), which makes it decidable whether shifting fixes anything
  but zero (`Linear.fixed_zero`).
-/

import Mathlib.Data.List.Basic
import Mathlib.Tactic.Common

namespace Iosu.Lib.Crc

variable {w : Nat}

section Register

variable (poly : BitVec w)

def shift (c : BitVec w) : BitVec w := if c.getLsbD 0 then (c >>> 1) ^^^ poly else c >>> 1

def shifts : Nat → BitVec w → BitVec w
  | 0, c => c
  | n + 1, c => shifts n (shift poly c)

/-- A bit at the lowest place. -/
def bit (b : Bool) : BitVec w := (BitVec.ofBool b).setWidth w

def feedBit (c : BitVec w) (b : Bool) : BitVec w := shift poly (c ^^^ bit b)

def feed (c : BitVec w) (bits : List Bool) : BitVec w := bits.foldl (feedBit poly) c

/-- The bits of a byte, least significant first. -/
def lsbFirst (b : BitVec 8) : List Bool := (List.range 8).map b.getLsbD

def feedBytes (c : BitVec w) (bytes : List (BitVec 8)) : BitVec w := feed poly c (bytes.flatMap lsbFirst)

/-- From a register of ones, complemented at the end. -/
def crc (bytes : List (BitVec 8)) : BitVec w := ~~~ feedBytes poly (BitVec.allOnes w) bytes

end Register

/-- The CRC-32 of Ethernet, zip and PNG. -/
def crc32 (bytes : List (BitVec 8)) : BitVec 32 := crc 0xEDB88320 bytes

variable {poly : BitVec w}

/-! ## Shifting -/

theorem xor_cancel (a b p : BitVec w) : (a ^^^ p) ^^^ (b ^^^ p) = a ^^^ b := by
  apply BitVec.eq_of_getLsbD_eq
  intro i hi
  simp only [BitVec.getLsbD_xor]
  cases a.getLsbD i <;> cases b.getLsbD i <;> cases p.getLsbD i <;> rfl

theorem shift_xor (a b : BitVec w) : shift poly (a ^^^ b) = shift poly a ^^^ shift poly b := by
  unfold shift
  rw [BitVec.getLsbD_xor, BitVec.ushiftRight_xor_distrib]
  cases a.getLsbD 0 <;> cases b.getLsbD 0
  · simp
  · simp [BitVec.xor_assoc]
  · simp only [Bool.true_xor, Bool.not_false, if_true, Bool.false_eq_true, if_false]
    ac_rfl
  · simp [xor_cancel]

theorem shifts_xor (n : Nat) (a b : BitVec w) : shifts poly n (a ^^^ b) = shifts poly n a ^^^ shifts poly n b := by
  induction n generalizing a b with
  | zero => rfl
  | succ n ih => simp only [shifts, shift_xor, ih]

theorem shifts_add (m n : Nat) (c : BitVec w) : shifts poly (m + n) c = shifts poly n (shifts poly m c) := by
  induction m generalizing c with
  | zero => simp [shifts]
  | succ m ih =>
    rw [Nat.succ_add]
    exact ih (shift poly c)

theorem shifts_succ (n : Nat) (c : BitVec w) : shifts poly (n + 1) c = shift poly (shifts poly n c) :=
  shifts_add n 1 c

/-- A register whose low places are clear only moves down. -/
theorem shifts_low (n : Nat) {c : BitVec w} (h : ∀ i < n, c.getLsbD i = false) : shifts poly n c = c >>> n := by
  induction n generalizing c with
  | zero => simp [shifts]
  | succ n ih =>
    have hshift : shift poly c = c >>> 1 := by
      unfold shift
      rw [if_neg (by simp [h 0])]
    have hlow : ∀ i < n, (c >>> 1).getLsbD i = false := by
      intro i hi
      rw [BitVec.getLsbD_ushiftRight]
      exact h (1 + i) (by omega)
    rw [shifts, hshift, ih hlow, ← BitVec.shiftRight_add, Nat.add_comm]

/-- The low places need the polynomial, the others only move down. -/
theorem shifts_split {n : Nat} {mask : BitVec w} (hmask : ∀ i < w, mask.getLsbD i = decide (i < n)) (c : BitVec w) :
    shifts poly n c = shifts poly n (c &&& mask) ^^^ (c >>> n) := by
  have hsplit : c = (c &&& mask) ^^^ (c &&& ~~~ mask) := by
    apply BitVec.eq_of_getLsbD_eq
    intro i hi
    simp only [BitVec.getLsbD_xor, BitVec.getLsbD_and, BitVec.getLsbD_not, hi, decide_true, Bool.true_and]
    cases c.getLsbD i <;> cases mask.getLsbD i <;> rfl
  have hhigh : shifts poly n (c &&& ~~~ mask) = (c &&& ~~~ mask) >>> n := by
    refine shifts_low n fun i hi => ?_
    by_cases hw : i < w
    · simp [hw, hmask i hw, hi]
    · simp [hw]
  have hdown : (c &&& ~~~ mask) >>> n = c >>> n := by
    apply BitVec.eq_of_getLsbD_eq
    intro i _
    simp only [BitVec.getLsbD_ushiftRight, BitVec.getLsbD_and, BitVec.getLsbD_not]
    by_cases hw : n + i < w
    · have hout : mask.getLsbD (n + i) = false := by
        rw [hmask (n + i) hw]
        simp
      rw [hout]
      simp [hw]
    · simp [BitVec.getLsbD_of_ge c (n + i) (by omega)]
  calc shifts poly n c = shifts poly n ((c &&& mask) ^^^ (c &&& ~~~ mask)) := by rw [← hsplit]
    _ = shifts poly n (c &&& mask) ^^^ (c >>> n) := by rw [shifts_xor, hhigh, hdown]

/-! ## Feeding -/

theorem feed_append (c : BitVec w) (s t : List Bool) : feed poly c (s ++ t) = feed poly (feed poly c s) t :=
  List.foldl_append

theorem feedBytes_append (c : BitVec w) (s t : List (BitVec 8)) :
    feedBytes poly c (s ++ t) = feedBytes poly (feedBytes poly c s) t := by
  unfold feedBytes
  rw [List.flatMap_append, feed_append]

theorem feedBytes_cons (c : BitVec w) (b : BitVec 8) (bytes : List (BitVec 8)) :
    feedBytes poly c (b :: bytes) = feedBytes poly (feed poly c (lsbFirst b)) bytes := by
  unfold feedBytes
  rw [List.flatMap_cons, feed_append]

/-- The first `n` bits of `f`, from the lowest place up. -/
def ofBits (f : Nat → Bool) : Nat → BitVec w
  | 0 => 0
  | n + 1 => ofBits f n ^^^ (bit (f n) <<< n)

theorem getLsbD_bit (b : Bool) (i : Nat) : (bit b : BitVec w).getLsbD i = (decide (i < w) && (decide (i = 0) && b)) := by
  unfold bit
  rw [BitVec.getLsbD_setWidth, BitVec.getLsbD_ofBool]

theorem getLsbD_ofBits (f : Nat → Bool) (n i : Nat) :
    (ofBits f n : BitVec w).getLsbD i = (decide (i < n) && decide (i < w) && f i) := by
  induction n with
  | zero => simp [ofBits]
  | succ n ih =>
    rw [ofBits, BitVec.getLsbD_xor, ih, BitVec.getLsbD_shiftLeft, getLsbD_bit]
    rcases Nat.lt_trichotomy i n with h | h | h
    · simp [h, Nat.lt_succ_of_lt h]
    · subst h
      by_cases hw : i < w
      · simp [hw]
        omega
      · simp [hw]
    · simp [show ¬ i < n by omega, show ¬ i < n + 1 by omega, show ¬ i - n = 0 by omega]

/-- Bits fed one by one are bits added at once and moved through. -/
theorem feed_range (c : BitVec w) (f : Nat → Bool) {n : Nat} (hn : n ≤ w) :
    feed poly c ((List.range n).map f) = shifts poly n (c ^^^ ofBits f n) := by
  induction n with
  | zero => simp [feed, shifts, ofBits]
  | succ n ih =>
    have hbit : shifts poly n (bit (f n) <<< n : BitVec w) = bit (f n) := by
      rw [shifts_low n fun i hi => by rw [BitVec.getLsbD_shiftLeft]; simp [hi]]
      apply BitVec.eq_of_getLsbD_eq
      intro i hi
      rw [BitVec.getLsbD_ushiftRight, BitVec.getLsbD_shiftLeft, getLsbD_bit, getLsbD_bit]
      by_cases h0 : i = 0
      · simp [h0]
        omega
      · simp [h0]
    rw [List.range_succ, List.map_append, feed_append, ih (by omega), shifts_succ, ofBits, ← BitVec.xor_assoc,
      shifts_xor n (c ^^^ ofBits f n), hbit]
    rfl

theorem ofBits_getLsbD {v : Nat} (x : BitVec v) : (ofBits x.getLsbD v : BitVec w) = x.setWidth w := by
  apply BitVec.eq_of_getLsbD_eq
  intro i hi
  rw [getLsbD_ofBits, BitVec.getLsbD_setWidth]
  by_cases hv : i < v
  · simp [hi, hv]
  · simp [hv, BitVec.getLsbD_of_ge x i (by omega)]

theorem feed_byte (hw : 8 ≤ w) (c : BitVec w) (b : BitVec 8) :
    feed poly c (lsbFirst b) = shifts poly 8 (c ^^^ b.setWidth w) := by
  unfold lsbFirst
  rw [feed_range c _ hw, ofBits_getLsbD]

theorem feedBytes_zeros (hw : 8 ≤ w) (c : BitVec w) (n : Nat) :
    feedBytes poly c (List.replicate n 0) = shifts poly (8 * n) c := by
  induction n generalizing c with
  | zero => rfl
  | succ n ih =>
    rw [List.replicate_succ, feedBytes_cons, feed_byte hw, ih, ← shifts_add]
    simp [Nat.mul_succ, Nat.add_comm]

/-- What is added to the register before is moved through beside the bits. -/
theorem feed_xor (bits : List Bool) (c d : BitVec w) :
    feed poly (c ^^^ d) bits = feed poly c bits ^^^ shifts poly bits.length d := by
  induction bits generalizing c d with
  | nil => rfl
  | cons x bits ih =>
    have hstep : feedBit poly (c ^^^ d) x = feedBit poly c x ^^^ shift poly d := by
      unfold feedBit
      rw [← shift_xor]
      congr 1
      ac_rfl
    show feed poly (feedBit poly (c ^^^ d) x) bits = feed poly (feedBit poly c x) bits ^^^ shifts poly bits.length (shift poly d)
    rw [hstep, ih]

theorem lsbFirst_length (bytes : List (BitVec 8)) : (bytes.flatMap lsbFirst).length = 8 * bytes.length := by
  induction bytes with
  | nil => rfl
  | cons b bytes ih =>
    rw [List.flatMap_cons, List.length_append, ih]
    simp [lsbFirst]
    omega

theorem feedBytes_xor (bytes : List (BitVec 8)) (c d : BitVec w) :
    feedBytes poly (c ^^^ d) bytes = feedBytes poly c bytes ^^^ shifts poly (8 * bytes.length) d := by
  unfold feedBytes
  rw [feed_xor, lsbFirst_length]

/-! ## Injectivity -/

section Injective

variable (hpoly : poly.getLsbD (w - 1) = true)
include hpoly

/-- What falls out of a register is seen at its top. -/
theorem shift_top (c : BitVec w) : (shift poly c).getLsbD (w - 1) = c.getLsbD 0 := by
  have hw : 0 < w := by
    apply Nat.pos_of_ne_zero
    intro h
    subst h
    simp at hpoly
  have hdown : (c >>> 1).getLsbD (w - 1) = false := by
    rw [BitVec.getLsbD_ushiftRight]
    exact BitVec.getLsbD_of_ge c _ (by omega)
  unfold shift
  cases c.getLsbD 0 with
  | false => simp [hdown]
  | true => simp [hdown, hpoly]

theorem shift_injective {a b : BitVec w} (h : shift poly a = shift poly b) : a = b := by
  have h0 : a.getLsbD 0 = b.getLsbD 0 := by
    rw [← shift_top hpoly a, ← shift_top hpoly b, h]
  have hdown : a >>> 1 = b >>> 1 := by
    unfold shift at h
    rw [h0] at h
    cases hb : b.getLsbD 0 with
    | false => simpa [hb] using h
    | true => simpa [hb] using h
  apply BitVec.eq_of_getLsbD_eq
  intro i hi
  cases i with
  | zero => exact h0
  | succ i =>
    have hbit := congrArg (fun c => BitVec.getLsbD c i) hdown
    simp only [BitVec.getLsbD_ushiftRight] at hbit
    rwa [Nat.add_comm] at hbit

theorem shifts_injective (n : Nat) {a b : BitVec w} (h : shifts poly n a = shifts poly n b) : a = b := by
  induction n generalizing a b with
  | zero => exact h
  | succ n ih => exact shift_injective hpoly (ih h)

/-- The same bits behind two registers leave them apart. -/
theorem feed_injective (bits : List Bool) {a b : BitVec w} (h : feed poly a bits = feed poly b bits) : a = b := by
  induction bits generalizing a b with
  | nil => exact h
  | cons x bits ih =>
    have hx := congrArg (fun c => c ^^^ bit x) (shift_injective hpoly (ih h))
    simpa [BitVec.xor_assoc] using hx

/-- Of the words that fit the register, no two leave the same behind. -/
theorem feed_bits_injective {s t : List Bool} (hlen : s.length = t.length) (hw : s.length ≤ w) {c : BitVec w}
    (h : feed poly c s = feed poly c t) : s = t := by
  have hrange : ∀ u : List Bool, u = (List.range u.length).map fun i => u.getD i false := by
    intro u
    apply List.ext_getElem
    · simp
    · intro i h₁ h₂
      simp [h₁]
  rw [hrange s, hrange t, ← hlen, feed_range c _ hw, feed_range c _ hw] at h
  have hxor := shifts_injective hpoly _ h
  have hbits : (ofBits (fun i => s.getD i false) s.length : BitVec w) = ofBits (fun i => t.getD i false) s.length := by
    have hx := congrArg (fun d => c ^^^ d) hxor
    simpa [← BitVec.xor_assoc] using hx
  apply List.ext_getElem hlen
  intro i h₁ h₂
  have hi := congrArg (fun d => BitVec.getLsbD d i) hbits
  simp only [getLsbD_ofBits] at hi
  simpa [h₁, h₂, Nat.lt_of_lt_of_le h₁ hw] using hi

end Injective

theorem lsbFirst_injective {a b : BitVec 8} (h : lsbFirst a = lsbFirst b) : a = b := by
  apply BitVec.eq_of_getLsbD_eq
  intro i hi
  have hall := List.map_inj_left.mp h
  exact hall i (List.mem_range.mpr hi)

/-- Words in a code of one length are known by what they come to together. -/
theorem flatMap_injective {α β : Type} (code : α → List β) (n : Nat) (hlength : ∀ a, (code a).length = n)
    (hcode : ∀ a b, code a = code b → a = b) {u v : List α} (hlen : u.length = v.length)
    (h : u.flatMap code = v.flatMap code) : u = v := by
  induction u generalizing v with
  | nil => exact (List.length_eq_zero_iff.mp hlen.symm).symm
  | cons a u ih =>
    cases v with
    | nil => cases hlen
    | cons b v =>
      obtain ⟨hhead, htail⟩ := List.append_inj h ((hlength a).trans (hlength b).symm)
      rw [hcode a b hhead, ih (Nat.succ.inj hlen) htail]

/-- Two messages that differ within a span as long as the register have two CRCs. -/
theorem crc_burst (hpoly : poly.getLsbD (w - 1) = true) (p s : List (BitVec 8)) {u v : List (BitVec 8)}
    (hlen : u.length = v.length) (hw : 8 * u.length ≤ w) (hne : u ≠ v) :
    crc poly (p ++ u ++ s) ≠ crc poly (p ++ v ++ s) := by
  intro h
  unfold crc at h
  rw [BitVec.not_inj, feedBytes_append, feedBytes_append, feedBytes_append, feedBytes_append] at h
  have hbits := feed_bits_injective hpoly (by rw [lsbFirst_length, lsbFirst_length, hlen]) (by rw [lsbFirst_length]; exact hw)
    (feed_injective hpoly _ h)
  exact hne (flatMap_injective lsbFirst 8 (fun _ => rfl) (fun _ _ => lsbFirst_injective) hlen hbits)

/-! ## Linear maps -/

def Linear (f : BitVec w → BitVec w) : Prop := ∀ a b, f (a ^^^ b) = f a ^^^ f b

namespace Linear

theorem shifts (poly : BitVec w) (n : Nat) : Linear (shifts poly n) := shifts_xor n

theorem id : Linear (fun c : BitVec w => c) := fun _ _ => rfl

theorem zero {f : BitVec w → BitVec w} (hf : Linear f) : f 0 = 0 := by
  have h := hf 0 0
  rw [BitVec.xor_self, BitVec.xor_self] at h
  exact h

theorem xor {f g : BitVec w → BitVec w} (hf : Linear f) (hg : Linear g) : Linear fun c => f c ^^^ g c := by
  intro a b
  dsimp only
  rw [hf, hg]
  ac_rfl

theorem comp {f g : BitVec w → BitVec w} (hf : Linear f) (hg : Linear g) : Linear fun c => f (g c) := by
  intro a b
  dsimp only
  rw [hg, hf]

/-- Maps that agree on single bits are equal. -/
theorem ext {f g : BitVec w → BitVec w} (hf : Linear f) (hg : Linear g)
    (h : ∀ i < w, f (BitVec.twoPow w i) = g (BitVec.twoPow w i)) (c : BitVec w) : f c = g c := by
  have hbits : ∀ n ≤ w, f (ofBits c.getLsbD n) = g (ofBits c.getLsbD n) := by
    intro n
    induction n with
    | zero =>
      intro _
      exact hf.zero.trans hg.zero.symm
    | succ n ih =>
      intro hn
      rw [ofBits, hf, hg, ih (by omega)]
      congr 1
      cases c.getLsbD n with
      | false =>
        have hbit : (bit false : BitVec w) <<< n = 0 := by simp [bit]
        rw [hbit, hf.zero, hg.zero]
      | true =>
        have hbit : (bit true : BitVec w) <<< n = BitVec.twoPow w n := by
          apply BitVec.eq_of_getLsbD_eq
          intro i hi
          rw [BitVec.getLsbD_shiftLeft, getLsbD_bit, BitVec.getLsbD_twoPow]
          by_cases hin : n = i
          · subst hin
            simp [hi]
            omega
          · simp [hin]
            omega
        rw [hbit, h n (by omega)]
  have hall := hbits w (Nat.le_refl w)
  rw [ofBits_getLsbD, BitVec.setWidth_eq] at hall
  exact hall

end Linear

/-- The exclusive or of some shifts. -/
def combine (poly : BitVec w) (ks : List Nat) (c : BitVec w) : BitVec w :=
  ks.foldr (fun k acc => shifts poly k c ^^^ acc) 0

theorem Linear.combine (poly : BitVec w) (ks : List Nat) : Linear (combine poly ks) := by
  induction ks with
  | nil =>
    intro a b
    exact (BitVec.xor_zero (x := 0)).symm
  | cons k ks ih => exact (Linear.shifts poly k).xor ih

/-- Shifting `n` times leaves nothing but zero as it was, where some combination of
    shifts undoes, on every single bit, what it adds. -/
theorem Linear.fixed_zero {n : Nat} {ks : List Nat}
    (hundo : ∀ i < w, Crc.combine poly ks (Crc.shifts poly n (BitVec.twoPow w i) ^^^ BitVec.twoPow w i) = BitVec.twoPow w i)
    (c : BitVec w) : Crc.shifts poly n c = c ↔ c = 0 := by
  refine ⟨fun hfix => ?_, fun h => by rw [h]; exact (Linear.shifts poly n).zero⟩
  have hundo' := Linear.ext ((Linear.combine poly ks).comp ((Linear.shifts poly n).xor Linear.id)) Linear.id hundo c
  rw [hfix, BitVec.xor_self] at hundo'
  exact hundo'.symm.trans (Linear.combine poly ks).zero

end Iosu.Lib.Crc
