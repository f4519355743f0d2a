/-
  Iosu.Libc.Memory — `memset`, `memcpy` and `memcmp` (`libraries/libc/lib/string.c`).

  `memcpy` goes from the first byte to the last and reads the source as it finds it. Where
  the destination begins inside the source, it therefore repeats what is in front of the
  destination: `memcpy_view` says what is behind every copy, from the distance of the two. So
  it moves the source unchanged exactly where this has that period, or lies behind the
  destination (`memcpy_moves_iff`). `memcmp` is the difference of the first bytes that
  differ (`memcmp_spec`).
-/

import Iosu.Lib.CString

namespace Iosu.Libc.OnMem

open Iosu.Lib

def memset (b : U32) (c : U32) (len : U32) (mem : Mem) : Mem :=
  (List.range len.toNat).foldl (fun mem i => Function.update mem (b + BitVec.ofNat 32 i) (c.setWidth 8)) mem

/-- The copy of `((unsigned char *)src)[i]`. -/
def copyByte (dst src : U32) (mem : Mem) (i : Nat) : Mem :=
  Function.update mem (dst + BitVec.ofNat 32 i) (mem.view src i)

def memcpy (dst src len : U32) (mem : Mem) : Mem := (List.range len.toNat).foldl (copyByte dst src) mem

def memcmp (mem : Mem) (s1 s2 : U32) (len : U32) : Int :=
  let i := firstBelow (fun i => mem.view s1 i ≠ mem.view s2 i) len.toNat 0
  if i < len.toNat then (mem.view s1 i).toNat - (mem.view s2 i).toNat else 0

/-- "abcdef" copied two bytes on. -/
example : ((memcpy 2 0 4 fun a => 0x61 + a.setWidth 8).view 0 |>.bytes 0 6) = [0x61, 0x62, 0x61, 0x62, 0x61, 0x62] := by
  decide

/-! ## `memset` -/

theorem memset_view (b c len : U32) (mem : Mem) {i : Nat} (hi : i < 2 ^ 32) :
    (memset b c len mem).view b i = if i < len.toNat then c.setWidth 8 else mem.view b i := by
  have hlen := len.isLt
  have hloop : ∀ n ≤ len.toNat, ((List.range n).foldl (fun mem i => Function.update mem (b + BitVec.ofNat 32 i) (c.setWidth 8))
      mem : Mem).view b i = if i < n then c.setWidth 8 else mem.view b i := by
    intro n hn
    induction n with
    | zero => simp
    | succ n ih =>
      rw [List.range_succ, List.foldl_append, List.foldl_cons, List.foldl_nil, Mem.view_update _ _ _ (by omega) hi,
        ih (by omega)]
      rcases Nat.lt_trichotomy i n with hlt | rfl | hlt
      · rw [if_neg (by omega), if_pos hlt, if_pos (by omega)]
      · rw [if_pos rfl, if_pos (by omega)]
      · rw [if_neg (by omega), if_neg (by omega), if_neg (by omega)]
  exact hloop len.toNat (Nat.le_refl _)

/-! ## `memcpy` -/

section Memcpy

variable (dst src : U32)

/-- How far the destination is past the source. -/
def distance : Nat := (dst - src).toNat

/-- Where the source's byte `i` is found again, when the destination is filled. -/
def repeated (i : Nat) : Nat := if distance dst src = 0 then i else i % distance dst src

theorem src_view (mem : Mem) (j : Nat) : mem.view src (distance dst src + j) = mem.view dst j := by
  have hdst : src + BitVec.ofNat 32 (distance dst src) = dst := by
    unfold distance
    rw [BitVec.ofNat_toNat, BitVec.setWidth_eq, BitVec.add_comm, BitVec.sub_add_cancel]
  rw [← Mem.view_add, hdst]

theorem copies_view (mem : Mem) {n : Nat} (hn : n ≤ 2 ^ 32) {i : Nat} (hi : i < 2 ^ 32) :
    ((List.range n).foldl (copyByte dst src) mem).view dst i =
      if i < n then mem.view src (repeated dst src i) else mem.view dst i := by
  have hdistance : distance dst src < 2 ^ 32 := (dst - src).isLt
  induction n generalizing i with
  | zero => simp
  | succ n ih =>
    -- what the last copy finds at the source
    have hread : ((List.range n).foldl (copyByte dst src) mem).view src n = mem.view src (repeated dst src n) := by
      unfold repeated
      by_cases h0 : distance dst src = 0
      · have hsame := fun m => src_view dst src m n
        rw [h0, Nat.zero_add] at hsame
        rw [if_pos h0, hsame, hsame, ih (by omega) (by omega), if_neg (Nat.lt_irrefl n)]
      rw [if_neg h0]
      by_cases hle : distance dst src ≤ n
      · -- a byte that was copied before
        obtain ⟨k, rfl⟩ := Nat.exists_eq_add_of_le hle
        rw [src_view, ih (by omega) (by omega), if_pos (by omega), Nat.add_mod_left]
        unfold repeated
        rw [if_neg h0]
      · -- a byte in front of the destination, which is so far on when the addresses run around
        have haround := src_view dst src ((List.range n).foldl (copyByte dst src) mem) (n + 2 ^ 32 - distance dst src)
        have haround' := src_view dst src mem (n + 2 ^ 32 - distance dst src)
        rw [Nat.mod_eq_of_lt (by omega), ← Mem.view_mod _ src n, ← Mem.view_mod _ src n,
          show n % 2 ^ 32 = (distance dst src + (n + 2 ^ 32 - distance dst src)) % 2 ^ 32 by omega, Mem.view_mod,
          Mem.view_mod, haround, haround', ih (by omega) (by omega), if_neg (by omega)]
    rw [List.range_succ, List.foldl_append, List.foldl_cons, List.foldl_nil]
    unfold copyByte
    rw [Mem.view_update _ _ _ (by omega) hi]
    unfold copyByte at hread ih
    rcases Nat.lt_trichotomy i n with hlt | rfl | hlt
    · rw [if_neg (by omega), ih (by omega) hi, if_pos hlt, if_pos (by omega)]
    · rw [if_pos rfl, if_pos (by omega), hread]
    · rw [if_neg (by omega), ih (by omega) hi, if_neg (by omega), if_neg (by omega)]

/-- What is behind a copy, also where the two overlap. -/
theorem memcpy_view (len : U32) (mem : Mem) {i : Nat} (hi : i < 2 ^ 32) :
    (memcpy dst src len mem).view dst i = if i < len.toNat then mem.view src (repeated dst src i) else mem.view dst i :=
  copies_view dst src mem (Nat.le_of_lt len.isLt) hi

theorem memcpy_frame (len : U32) (mem : Mem) {a : U32} (ha : ¬ Mem.InWindow dst len.toNat a) :
    memcpy dst src len mem a = mem a := by
  rw [← Mem.view_sub (memcpy dst src len mem) dst a, memcpy_view dst src len mem (a - dst).isLt,
    if_neg (show ¬ (a - dst).toNat < len.toNat from ha), Mem.view_sub]

theorem distance_eq_zero : distance dst src = 0 ↔ dst = src := by
  unfold distance
  constructor
  · intro h
    have hsub : dst - src = 0 := BitVec.eq_of_toNat_eq h
    calc dst = dst - src + src := (BitVec.sub_add_cancel dst src).symm
      _ = src := by simp [hsub]
  · rintro rfl
    rw [BitVec.sub_self]
    rfl

/-- With the distance for a period, a source repeated is the source. -/
theorem view_repeated {len : Nat} {mem : Mem}
    (hperiod : ∀ i, distance dst src + i < len → mem.view src (distance dst src + i) = mem.view src i) {i : Nat} (hi : i < len) :
    mem.view src (repeated dst src i) = mem.view src i := by
  unfold repeated
  split
  · rfl
  · rename_i h0
    -- from one period to the one behind it
    induction i using Nat.strong_induction_on with
    | h i ih =>
      by_cases hle : distance dst src ≤ i
      · obtain ⟨k, rfl⟩ := Nat.exists_eq_add_of_le hle
        rw [Nat.add_mod_left, ih k (by omega) (by omega)]
        exact (hperiod k hi).symm
      · rw [Nat.mod_eq_of_lt (by omega)]

/-- The source arrives unchanged exactly where, as far as it goes, it has the distance to the
    destination for a period: whatever it holds, where the destination does not begin
    inside it. -/
theorem memcpy_moves_iff (len : U32) (mem : Mem) :
    (∀ i < len.toNat, (memcpy dst src len mem).view dst i = mem.view src i) ↔
      dst = src ∨ ∀ i, (dst - src).toNat + i < len.toNat → mem.view src ((dst - src).toNat + i) = mem.view src i := by
  have hlen := len.isLt
  have hbehind : ∀ i < len.toNat, (memcpy dst src len mem).view dst i = mem.view src (repeated dst src i) := by
    intro i hi
    rw [memcpy_view dst src len mem (by omega), if_pos hi]
  constructor
  · intro h
    by_cases h0 : distance dst src = 0
    · exact Or.inl ((distance_eq_zero dst src).mp h0)
    refine Or.inr fun i hi => ?_
    have hfar := h _ hi
    have hnear := h i (by omega)
    rw [hbehind _ hi] at hfar
    rw [hbehind i (by omega)] at hnear
    unfold repeated at hfar hnear
    rw [if_neg h0] at hfar hnear
    rw [← hfar, ← hnear]
    exact congrArg (mem.view src) (Nat.add_mod_left _ i)
  · rintro (heq | hperiod) i hi
    · rw [hbehind i hi]
      unfold repeated
      rw [if_pos ((distance_eq_zero dst src).mpr heq)]
    · rw [hbehind i hi]
      exact view_repeated dst src hperiod hi

/-- A source that does not run into the destination arrives unchanged. -/
theorem memcpy_apart {len : U32} {mem : Mem} (h : ∀ i < len.toNat, ¬ Mem.InWindow dst len.toNat (src + BitVec.ofNat 32 i))
    {i : Nat} (hi : i < len.toNat) : (memcpy dst src len mem).view dst i = mem.view src i := by
  have hlen := len.isLt
  rw [memcpy_view dst src len mem (by omega), if_pos hi]
  refine view_repeated dst src (fun j hj => ?_) hi
  refine absurd ?_ (h ((dst - src).toNat + j) hj)
  have haddr : src + BitVec.ofNat 32 ((dst - src).toNat + j) = dst + BitVec.ofNat 32 j := by
    rw [BitVec.ofNat_add, BitVec.ofNat_toNat, BitVec.setWidth_eq, ← BitVec.add_assoc, BitVec.add_comm src,
      BitVec.sub_add_cancel]
  rw [haddr]
  exact Mem.inWindow_add (by omega) (Nat.le_of_lt len.isLt)

end Memcpy

/-! ## `memcmp` -/

/-- The sign of the first difference. -/
theorem memcmp_spec (mem : Mem) (s1 s2 len : U32) :
    (memcmp mem s1 s2 len = 0 ↔ ∀ i < len.toNat, mem.view s1 i = mem.view s2 i) ∧
    (memcmp mem s1 s2 len < 0 ↔ ∃ i < len.toNat, (mem.view s1 i).toNat < (mem.view s2 i).toNat ∧
      ∀ j < i, mem.view s1 j = mem.view s2 j) := by
  obtain ⟨-, hend, hnone⟩ := isFirst_firstBelow (fun i => mem.view s1 i ≠ mem.view s2 i) len.toNat 0
  rw [Nat.zero_add] at hend
  have hsame : ∀ j < firstBelow (fun i => mem.view s1 i ≠ mem.view s2 i) len.toNat 0, mem.view s1 j = mem.view s2 j := by
    intro j hj
    by_contra hne
    exact hnone j (Nat.zero_le j) hj (Or.inl hne)
  unfold memcmp
  generalize firstBelow (fun i => mem.view s1 i ≠ mem.view s2 i) len.toNat 0 = n at hend hsame
  dsimp only
  by_cases hn : n < len.toNat
  · have hne : mem.view s1 n ≠ mem.view s2 n := hend.resolve_right (by omega)
    have hdiffer : (mem.view s1 n).toNat ≠ (mem.view s2 n).toNat := fun h => hne (BitVec.eq_of_toNat_eq h)
    rw [if_pos hn]
    refine ⟨⟨fun h => ?_, fun h => absurd (h n hn) hne⟩, fun h => ⟨n, hn, by omega, hsame⟩, ?_⟩
    · omega
    · rintro ⟨i, hi, hlt, hbefore⟩
      have hin : i = n := by
        rcases Nat.lt_trichotomy i n with h | h | h
        · rw [hsame i h] at hlt
          exact absurd hlt (Nat.lt_irrefl _)
        · exact h
        · exact absurd (hbefore n h) hne
      rw [hin] at hlt
      omega
  · rw [if_neg hn]
    refine ⟨⟨fun _ i hi => hsame i (by omega), fun _ => rfl⟩, fun h => absurd h (by omega), ?_⟩
    rintro ⟨i, hi, hlt, -⟩
    rw [hsame i (by omega)] at hlt
    exact absurd hlt (Nat.lt_irrefl _)

end Iosu.Libc.OnMem
