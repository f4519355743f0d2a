/-
  Iosu.Lib.Bytes — machine words and the bytes behind a pointer, on a big-endian
  machine.

  `Buf` is what a pointer designates: the bytes from the one it points to on, without
  an end, so that code reading or writing past an object can be written down. `Mem` is
  a 32-bit address space; `view` is the buffer at an address and `put` stores one back.
  `AgreeBelow n` relates buffers with the same first `n` bytes: code whose outcome is
  the same on both reads nothing further on. The last bytes of a word spell its value
  modulo a power of 256 (`Buf.value_drop`).
-/

import Mathlib.Algebra.Group.Nat.Defs
import Mathlib.Data.List.Basic
import Mathlib.Data.List.Induction
import Mathlib.Logic.Basic
import Mathlib.Tactic.Common

namespace Iosu.Lib

abbrev U8 := BitVec 8
abbrev U16 := BitVec 16
abbrev U32 := BitVec 32

/-- `__builtin_bswap32`. -/
def bswap32 (x : U32) : U32 :=
  x.extractLsb' 0 8 ++ x.extractLsb' 8 8 ++ x.extractLsb' 16 8 ++ x.extractLsb' 24 8

abbrev Buf := Nat → U8

abbrev Mem := U32 → U8

namespace Buf

/-- The bytes `off`, …, `off + n - 1`. -/
def bytes (b : Buf) (off n : Nat) : List U8 := (List.range n).map fun i => b (off + i)

/-- A 16-bit word, most significant byte first. -/
def load16 (b : Buf) (off : Nat) : U16 := b off ++ b (off + 1)

/-- A 32-bit word, most significant byte first. -/
def load32 (b : Buf) (off : Nat) : U32 := b off ++ b (off + 1) ++ b (off + 2) ++ b (off + 3)

def drop (b : Buf) (n : Nat) : Buf := fun i => b (n + i)

/-- The first bytes replaced by `xs`. -/
def store (b : Buf) (xs : List U8) : Buf := fun i => xs.getD i (b i)

/-- A word as its four bytes, most significant first. -/
def ofU32 (x : U32) : List U8 :=
  [x.extractLsb' 24 8, x.extractLsb' 16 8, x.extractLsb' 8 8, x.extractLsb' 0 8]

/-- A halfword as its two bytes, most significant first. -/
def ofU16 (x : U16) : List U8 := [x.extractLsb' 8 8, x.extractLsb' 0 8]

@[simp] theorem ofU32_length (x : U32) : (ofU32 x).length = 4 := rfl

@[simp] theorem bytes_length (b : Buf) (off n : Nat) : (b.bytes off n).length = n := by simp [bytes]

theorem store_ge (b : Buf) (xs : List U8) {i : Nat} (h : xs.length ≤ i) : b.store xs i = b i := by
  simp [store, List.getD_eq_getElem?_getD, h]

theorem store_lt (b b' : Buf) (xs : List U8) {i : Nat} (h : i < xs.length) : b.store xs i = b'.store xs i := by
  simp [store, List.getD_eq_getElem?_getD, h]

/-- What is stored reads back. -/
theorem bytes_store (b : Buf) (xs : List U8) : (b.store xs).bytes 0 xs.length = xs := by
  refine List.ext_getElem (by simp) fun i h _ => ?_
  rw [bytes_length] at h
  simp [bytes, store, h]

/-- A word that is stored loads again. -/
@[simp] theorem load32_store (b : Buf) (x : U32) : (b.store (ofU32 x)).load32 0 = x := by
  have h₁ : x.extractLsb' 24 8 ++ x.extractLsb' 16 8 = x.extractLsb' 16 16 :=
    BitVec.extractLsb'_append_extractLsb'_eq_extractLsb' rfl
  have h₂ : x.extractLsb' 16 16 ++ x.extractLsb' 8 8 = x.extractLsb' 8 24 :=
    BitVec.extractLsb'_append_extractLsb'_eq_extractLsb' rfl
  have h₃ : x.extractLsb' 8 24 ++ x.extractLsb' 0 8 = x.extractLsb' 0 32 :=
    BitVec.extractLsb'_append_extractLsb'_eq_extractLsb' rfl
  show x.extractLsb' 24 8 ++ x.extractLsb' 16 8 ++ x.extractLsb' 8 8 ++ x.extractLsb' 0 8 = x
  rw [h₁, h₂, h₃]
  exact BitVec.extractLsb'_eq_self

/-- What is read stores back. -/
theorem store_bytes (b : Buf) (n : Nat) : b.store (b.bytes 0 n) = b := by
  funext i
  by_cases hi : i < n
  · simp [store, bytes, hi]
  · exact store_ge b _ (by rw [bytes_length]; omega)

@[simp] theorem ofU16_load16 (b : Buf) (off : Nat) : ofU16 (b.load16 off) = [b off, b (off + 1)] := by
  have hhigh : (b off ++ b (off + 1)).extractLsb' 8 8 = b off := BitVec.extractLsb'_append_eq_left
  have hlow : (b off ++ b (off + 1)).extractLsb' 0 8 = b (off + 1) := BitVec.extractLsb'_append_eq_right
  show [(b off ++ b (off + 1)).extractLsb' 8 8, (b off ++ b (off + 1)).extractLsb' 0 8] = _
  rw [hhigh, hlow]

/-- The first halfwords are the first bytes. -/
theorem halfwords_bytes (b : Buf) (n : Nat) :
    ((List.range n).map fun i => b.load16 (2 * i)).flatMap ofU16 = b.bytes 0 (2 * n) := by
  induction n with
  | zero => rfl
  | succ n ih =>
    have hlast : b.bytes 0 (2 * (n + 1)) = b.bytes 0 (2 * n) ++ [b (2 * n), b (2 * n + 1)] := by
      simp [bytes, Nat.mul_add, List.range_succ]
    rw [List.range_succ, List.map_append, List.flatMap_append, ih, hlast]
    simp

/-- A halfword of those that are stored. -/
theorem load16_store (b : Buf) (xs : List U16) {i : Nat} (hi : i < xs.length) :
    (b.store (xs.flatMap ofU16)).load16 (2 * i) = xs[i] := by
  induction xs generalizing b i with
  | nil => exact absurd hi (Nat.not_lt_zero i)
  | cons x xs ih =>
    cases i with
    | zero =>
      show x.extractLsb' 8 8 ++ x.extractLsb' 0 8 = x
      rw [BitVec.extractLsb'_append_extractLsb'_eq_extractLsb' (by rfl)]
      exact BitVec.extractLsb'_eq_self
    | succ i =>
      have htail : (b.store ((x :: xs).flatMap ofU16)).load16 (2 * (i + 1)) =
          ((b.drop 2).store (xs.flatMap ofU16)).load16 (2 * i) := by
        have hget : ∀ k, b.store ((x :: xs).flatMap ofU16) (k + 2) = (b.drop 2).store (xs.flatMap ofU16) k := by
          intro k
          show _ = (xs.flatMap ofU16).getD k (b (2 + k))
          rw [Nat.add_comm 2 k]
          rfl
        unfold load16
        rw [show 2 * (i + 1) = 2 * i + 2 by omega, hget, show 2 * i + 2 + 1 = 2 * i + 1 + 2 by omega, hget]
      rw [htail]
      exact ih (b.drop 2) (by simpa using hi)

/-- The same first `n` bytes. -/
def AgreeBelow (n : Nat) (b b' : Buf) : Prop := ∀ i < n, b i = b' i

namespace AgreeBelow

variable {n m : Nat} {b b' : Buf}

theorem bytes (h : AgreeBelow n b b') {off k : Nat} (hk : off + k ≤ n) : b.bytes off k = b'.bytes off k := by
  simp only [Buf.bytes]
  refine List.map_congr_left fun i hi => h _ ?_
  have := List.mem_range.mp hi
  omega

theorem load16 (h : AgreeBelow n b b') {off : Nat} (hk : off + 2 ≤ n) : b.load16 off = b'.load16 off := by
  simp only [Buf.load16]
  rw [h off (by omega), h (off + 1) (by omega)]

theorem load32 (h : AgreeBelow n b b') {off : Nat} (hk : off + 4 ≤ n) : b.load32 off = b'.load32 off := by
  simp only [Buf.load32]
  rw [h off (by omega), h (off + 1) (by omega), h (off + 2) (by omega), h (off + 3) (by omega)]

theorem drop (h : AgreeBelow n b b') {k : Nat} (hk : k + m ≤ n) : AgreeBelow m (b.drop k) (b'.drop k) :=
  fun i hi => h (k + i) (by omega)

end AgreeBelow

/-! ## Numbers -/

/-- The number that bytes spell, most significant first. -/
def value (xs : List U8) : Nat := xs.foldl (fun v b => v * 256 + b.toNat) 0

theorem value_snoc (xs : List U8) (b : U8) : value (xs ++ [b]) = value xs * 256 + b.toNat := by
  unfold value
  rw [List.foldl_append]
  rfl

theorem value_append (xs ys : List U8) : value (xs ++ ys) = value xs * 256 ^ ys.length + value ys := by
  induction ys using List.reverseRecOn with
  | nil => simp [value]
  | append_singleton ys b ih =>
    rw [← List.append_assoc, value_snoc, ih, value_snoc, List.length_append, List.length_singleton,
      Nat.pow_succ, Nat.add_mul, Nat.mul_assoc, Nat.add_assoc]

theorem value_lt (xs : List U8) : value xs < 256 ^ xs.length := by
  induction xs using List.reverseRecOn with
  | nil => decide
  | append_singleton xs b ih =>
    rw [value_snoc, List.length_append, List.length_singleton, Nat.pow_succ]
    have hb := b.isLt
    omega

/-- The last bytes spell what is left of the number. -/
theorem value_drop (xs : List U8) (k : Nat) : value (xs.drop k) = value xs % 256 ^ (xs.length - k) := by
  have hsplit : value xs = value (xs.take k) * 256 ^ (xs.drop k).length + value (xs.drop k) := by
    rw [← value_append, List.take_append_drop]
  rw [hsplit, ← List.length_drop, Nat.mul_add_mod_self_right, Nat.mod_eq_of_lt (value_lt _)]

theorem value_ofU32 (x : U32) : value (ofU32 x) = x.toNat := by
  have hx := x.isLt
  simp only [value, ofU32, List.foldl_cons, List.foldl_nil, BitVec.extractLsb'_toNat, Nat.shiftRight_eq_div_pow]
  omega

end Buf

namespace Mem

/-- The bytes at an address. -/
def view (m : Mem) (p : U32) : Buf := fun i => m (p + BitVec.ofNat 32 i)

/-- The address space whose bytes from `p` on are `b`: every address lies at some
    distance past `p`. -/
def put (p : U32) (b : Buf) : Mem := fun a => b (a - p).toNat

/-- The bytes at `p` replaced by `xs`. -/
def store (m : Mem) (p : U32) (xs : List U8) : Mem := put p ((m.view p).store xs)

/-- The `n` addresses from `p` on. -/
def InWindow (p : U32) (n : Nat) (a : U32) : Prop := (a - p).toNat < n

instance (p : U32) (n : Nat) (a : U32) : Decidable (InWindow p n a) := Nat.decLt _ _

theorem inWindow_mono {p a : U32} {n k : Nat} (h : InWindow p n a) (hk : n ≤ k) : InWindow p k a :=
  Nat.lt_of_lt_of_le h hk

/-- Memories that agree on a window look the same from its start, as far as it goes. -/
theorem view_agree {m m' : Mem} {p : U32} {n : Nat} (h : ∀ a, InWindow p n a → m a = m' a) :
    Buf.AgreeBelow n (m.view p) (m'.view p) := by
  intro i hi
  refine h _ ?_
  have hsub : p + BitVec.ofNat 32 i - p = BitVec.ofNat 32 i := by
    rw [BitVec.add_comm, BitVec.add_sub_cancel]
  have hle : (BitVec.ofNat 32 i).toNat ≤ i := by
    rw [BitVec.toNat_ofNat]
    exact Nat.mod_le _ _
  unfold InWindow
  rw [hsub]
  omega

/-- The byte at an address, seen from `p`. -/
theorem view_sub (m : Mem) (p a : U32) : m.view p (a - p).toNat = m a := by
  have hofNat : BitVec.ofNat 32 (a - p).toNat = a - p := by
    rw [BitVec.ofNat_toNat, BitVec.setWidth_eq]
  unfold view
  rw [hofNat, BitVec.add_comm, BitVec.sub_add_cancel]

theorem put_view (m : Mem) (p : U32) : put p (m.view p) = m := by
  funext a
  exact view_sub m p a

theorem put_agree {b b' : Buf} {p : U32} {n : Nat} (h : Buf.AgreeBelow n b b') {a : U32} (ha : InWindow p n a) :
    put p b a = put p b' a := h _ ha

/-- A buffer that is the memory's own from `n` bytes on changes `n` addresses at most. -/
theorem put_frame {m : Mem} {b : Buf} {p : U32} {n : Nat} (h : ∀ i, n ≤ i → b i = m.view p i) {a : U32}
    (ha : ¬ InWindow p n a) : put p b a = m a := by
  have hi : b (a - p).toNat = m.view p (a - p).toNat := h _ (Nat.le_of_not_lt ha)
  rw [view_sub] at hi
  exact hi

end Mem

end Iosu.Lib
