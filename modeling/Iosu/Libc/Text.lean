/-
  Iosu.Libc.Text — the functions of `libraries/libc/lib/string.c` that read strings in memory.

  Each is the source's loop over the bytes at an address, and what it comes to is said of the
  string that is there: `strlen` ends exactly where there is one (`strlen_ends_iff`);
  `strcmp` and `strncmp` order strings as their bytes are ordered, and `strncmp` is the one
  that the search for an entity is modelled with (`compare_spec`); `strchr`, `strspn` and
  `strcspn` look for the first byte of a kind (`scan_spec`). Other than in C's own library,
  `strchr` does not find the terminator.
-/

import Iosu.Libc.StringOrder
import Iosu.Lib.CString

namespace Iosu.Libc.OnMem

open Iosu.Lib Iosu.Lib.Mem

variable {φ : Type}

/-! ## The functions -/

section Functions

variable (mem : Mem)

def strlen (s : U32) (fuel : Nat) : Res φ U32 := do
  let len ← firstFrom (fun len => mem.view s len = 0) fuel 0
  return BitVec.ofNat 32 len

def strnlen (s count : U32) : U32 := BitVec.ofNat 32 (firstBelow (fun len => mem.view s len = 0) count.toNat 0)

/-- Where a comparison stops. -/
def Differ (s1 s2 : U32) (i : Nat) : Prop := ¬ (mem.view s1 i ≠ 0 ∧ mem.view s1 i = mem.view s2 i)

instance (s1 s2 : U32) : DecidablePred (Differ mem s1 s2) := fun _ => inferInstanceAs (Decidable (¬ _))

def difference (s1 s2 : U32) (i : Nat) : Int := (mem.view s1 i).toNat - (mem.view s2 i).toNat

def strcmp (s1 s2 : U32) (fuel : Nat) : Res φ Int := do
  let i ← firstFrom (Differ mem s1 s2) fuel 0
  return difference mem s1 s2 i

def strncmp (s1 s2 n : U32) : Int :=
  let i := firstBelow (Differ mem s1 s2) n.toNat 0
  if i = n.toNat then 0 else difference mem s1 s2 i

/-- A pointer to the byte, or NULL. -/
def strchr (s c : U32) (fuel : Nat) : Res φ (Option U32) := do
  let i ← firstFrom (fun i => mem.view s i = 0 ∨ mem.view s i = c.setWidth 8) fuel 0
  return if mem.view s i = 0 then none else some (s + BitVec.ofNat 32 i)

/-- The inner loops: whether `c` comes in `s2`. -/
def comesIn (s2 : U32) (c : U8) (fuel : Nat) : Res φ Bool := do
  let p ← firstFrom (fun p => mem.view s2 p = 0 ∨ mem.view s2 p = c) fuel 0
  return decide (mem.view s2 p ≠ 0)

/-- The outer loops of `strspn` and of `strcspn`, which leave at a byte that does not come in
    `s2`, or at one that does. -/
def spanFrom (leaveAt : Bool) (s1 s2 : U32) (fuel : Nat) : Nat → Nat → Res φ U32
  | 0, _ => .spin
  | n + 1, len =>
    if mem.view s1 len = 0 then pure (BitVec.ofNat 32 len)
    else do
      let found ← comesIn mem s2 (mem.view s1 len) fuel
      if found = leaveAt then pure (BitVec.ofNat 32 len) else spanFrom leaveAt s1 s2 fuel n (len + 1)

def strspn (s1 s2 : U32) (fuel : Nat) : Res φ U32 := spanFrom mem false s1 s2 fuel fuel 0

def strcspn (s1 s2 : U32) (fuel : Nat) : Res φ U32 := spanFrom mem true s1 s2 fuel fuel 0

end Functions

variable {mem : Mem} {p q : U32} {s t : List U8}

/-! ## Length -/

/-- `strlen` ends exactly where there is a string, and then with its length. -/
theorem strlen_ends_iff {n : U32} :
    (∃ fuel, (strlen mem p fuel : Res φ U32) = .ok n) ↔ ∃ s, HoldsStr mem p s ∧ s.length = n.toNat := by
  constructor
  · rintro ⟨fuel, h⟩
    obtain ⟨len, hlen, heq⟩ := Res.bind_eq_ok.mp h
    cases heq
    obtain ⟨-, -, hzero, hnone⟩ := firstFrom_ok_iff.mp hlen
    have hstr : HoldsStr mem p ((List.range len).map (mem.view p)) := by
      refine ⟨fun i hi => by simp, by simpa using hzero, fun c hc => ?_⟩
      obtain ⟨i, hi, rfl⟩ := List.mem_map.mp hc
      exact hnone i (Nat.zero_le i) (List.mem_range.mp hi)
    have hlt := hstr.length_lt
    rw [List.length_map, List.length_range] at hlt
    refine ⟨_, hstr, ?_⟩
    rw [List.length_map, List.length_range, BitVec.toNat_ofNat, Nat.mod_eq_of_lt hlt]
  · rintro ⟨s, hs, hlen⟩
    obtain ⟨fuel, hfuel⟩ := (firstFrom_ends_iff (φ := φ)).mpr hs.isFirst_end
    refine ⟨fuel, ?_⟩
    unfold strlen
    rw [hfuel, hlen, Res.ok_bind, BitVec.ofNat_toNat, BitVec.setWidth_eq]
    rfl

theorem strnlen_le (mem : Mem) (s count : U32) : (strnlen mem s count).toNat ≤ count.toNat := by
  have hend := (isFirst_firstBelow (fun len => mem.view s len = 0) count.toNat 0).2.2 count.toNat (Nat.zero_le _)
  have hle : firstBelow (fun len => mem.view s len = 0) count.toNat 0 ≤ count.toNat := by
    by_contra hlt
    exact hend (by omega) (Or.inr (by omega))
  unfold strnlen
  rw [BitVec.toNat_ofNat]
  exact Nat.le_trans (Nat.mod_le _ _) hle

theorem strnlen_toNat (h : HoldsStr mem p s) (count : U32) : (strnlen mem p count).toNat = min s.length count.toNat := by
  have hcount := count.isLt
  unfold strnlen
  rw [firstBelow_eq_min _ h.isFirst_end, BitVec.toNat_ofNat, Nat.mod_eq_of_lt (by omega)]

/-! ## Comparison -/

theorem first_eq (h : HoldsStr mem p s) : mem.view p 0 = first s := by
  rw [h.getD (Nat.zero_le _)]
  cases s <;> rfl

/-- A comparison of so many bytes, from the next on. -/
theorem differ_succ (i : Nat) : Differ mem p q (i + 1) ↔ Differ mem (p + BitVec.ofNat 32 1) (q + BitVec.ofNat 32 1) i := by
  unfold Differ
  rw [view_add, view_add, Nat.add_comm]

theorem difference_succ (i : Nat) :
    difference mem p q (i + 1) = difference mem (p + BitVec.ofNat 32 1) (q + BitVec.ofNat 32 1) i := by
  unfold difference
  rw [view_add, view_add, Nat.add_comm]

/-- The comparison in memory is the one of the strings. -/
theorem difference_eq (hs : HoldsStr mem p s) (ht : HoldsStr mem q t) {i n : Nat} (h : IsFirst (Differ mem p q) 0 i) :
    Libc.strncmp s t n = if i < n then difference mem p q i else 0 := by
  induction n generalizing p q s t i with
  | zero => rfl
  | succ n ih =>
    rw [strncmp_succ, ← first_eq hs, ← first_eq ht]
    by_cases hdiffer : Differ mem p q 0
    · rw [isFirst_self hdiffer] at h
      rw [if_neg hdiffer, h, if_pos (Nat.succ_pos n)]
      rfl
    · have hsame : mem.view p 0 ≠ 0 ∧ mem.view p 0 = mem.view q 0 := not_not.mp hdiffer
      obtain ⟨-, hi, hnone⟩ := h
      cases i with
      | zero => exact absurd hi hdiffer
      | succ i =>
        have hnext : IsFirst (Differ mem (p + BitVec.ofNat 32 1) (q + BitVec.ofNat 32 1)) 0 i := by
          refine ⟨Nat.zero_le i, differ_succ i |>.mp hi, fun j _ hlt hj => ?_⟩
          exact hnone (j + 1) (Nat.zero_le _) (by omega) ((differ_succ j).mpr hj)
        rw [if_pos hsame, ih (hs.tail hsame.1) (ht.tail (hsame.2 ▸ hsame.1)) hnext, difference_succ]
        simp only [Nat.add_lt_add_iff_right]

/-- How the comparison of the strings orders them. -/
theorem strncmp_zero_iff (hs : ∀ c ∈ s, c ≠ 0) (ht : ∀ c ∈ t, c ≠ 0) (n : Nat) :
    Libc.strncmp s t n = 0 ↔ s.take n = t.take n := by
  induction n generalizing s t with
  | zero => simp [Libc.strncmp]
  | succ n ih =>
    have hnat : ∀ c : U8, c.toNat = 0 ↔ c = 0 := fun c => ⟨fun h => BitVec.eq_of_toNat_eq h, fun h => by rw [h]; rfl⟩
    rw [strncmp_succ]
    cases s with
    | nil =>
      cases t with
      | nil => simp [first]
      | cons d t =>
        have hd : d.toNat ≠ 0 := fun h => ht d List.mem_cons_self ((hnat d).mp h)
        simp [first]
        omega
    | cons c s =>
      have hc : c ≠ 0 := hs c List.mem_cons_self
      cases t with
      | nil =>
        have hpos : c.toNat ≠ 0 := fun h => hc ((hnat c).mp h)
        rw [if_neg fun h => hc h.2]
        simp [first]
        omega
      | cons d t =>
        have htail := ih (fun x hx => hs x (List.mem_cons_of_mem c hx)) fun x hx => ht x (List.mem_cons_of_mem d hx)
        by_cases hcd : c = d
        · rw [if_pos ⟨hc, hcd⟩, hcd]
          simpa using htail
        · have hne : c.toNat ≠ d.toNat := fun h => hcd (BitVec.eq_of_toNat_eq h)
          rw [if_neg fun h => hcd h.2]
          simp [first, hcd]
          omega

theorem strncmp_neg_iff (hs : ∀ c ∈ s, c ≠ 0) (ht : ∀ c ∈ t, c ≠ 0) (n : Nat) :
    Libc.strncmp s t n < 0 ↔ s.take n < t.take n := by
  induction n generalizing s t with
  | zero => simp [Libc.strncmp]
  | succ n ih =>
    have hpos : ∀ c : U8, c ≠ 0 → 0 < c.toNat := by
      intro c hc
      exact Nat.pos_of_ne_zero fun h => hc (BitVec.eq_of_toNat_eq h)
    rw [strncmp_lt_iff]
    cases s with
    | nil =>
      cases t with
      | nil => simp [first]
      | cons d t => simpa [first] using hpos d (ht d List.mem_cons_self)
    | cons c s =>
      have hc : c ≠ 0 := hs c List.mem_cons_self
      cases t with
      | nil =>
        refine iff_of_false ?_ (List.not_lt_nil _)
        rintro (hlt | ⟨-, h0, -⟩)
        · exact Nat.not_lt_zero _ hlt
        · exact hc h0
      | cons d t =>
        have htail := ih (fun x hx => hs x (List.mem_cons_of_mem c hx)) fun x hx => ht x (List.mem_cons_of_mem d hx)
        rw [List.take_succ_cons, List.take_succ_cons, List.cons_lt_cons_iff, ← htail]
        exact or_congr Iff.rfl (and_iff_right hc)

/-- `strncmp` in memory is the one of the strings, and orders their first bytes; `strcmp` ends,
    and orders the strings. -/
theorem compare_spec (hs : HoldsStr mem p s) (ht : HoldsStr mem q t) :
    (∀ n : U32, OnMem.strncmp mem p q n = Libc.strncmp s t n.toNat ∧
      (OnMem.strncmp mem p q n = 0 ↔ s.take n.toNat = t.take n.toNat) ∧
      (OnMem.strncmp mem p q n < 0 ↔ s.take n.toNat < t.take n.toNat)) ∧
    ∃ r, (∀ fuel > s.length, (strcmp mem p q fuel : Res φ Int) = .ok r) ∧ (r = 0 ↔ s = t) ∧ (r < 0 ↔ s < t) := by
  have hend : Differ mem p q s.length := fun h => h.1 hs.terminated
  obtain ⟨i, hi, hfirst⟩ := exists_isFirst hend
  have hstrncmp : ∀ n : U32, OnMem.strncmp mem p q n = Libc.strncmp s t n.toNat := by
    intro n
    unfold OnMem.strncmp
    rw [firstBelow_eq_min _ hfirst, difference_eq hs ht hfirst]
    dsimp only
    rcases Nat.lt_or_ge i n.toNat with hlt | hge
    · rw [if_pos hlt, Nat.min_eq_left (Nat.le_of_lt hlt), if_neg (Nat.ne_of_lt hlt)]
    · rw [if_neg (Nat.not_lt.mpr hge), if_pos (Nat.min_eq_right hge)]
  refine ⟨fun n => ⟨hstrncmp n, ?_, ?_⟩, difference mem p q i, fun fuel hfuel => ?_, ?_⟩
  · rw [hstrncmp n]
    exact strncmp_zero_iff hs.nonzero ht.nonzero n.toNat
  · rw [hstrncmp n]
    exact strncmp_neg_iff hs.nonzero ht.nonzero n.toNat
  · unfold strcmp
    rw [firstFrom_ok_iff.mpr ⟨by omega, hfirst⟩]
    rfl
  · -- a comparison that goes over the whole of both
    have hwhole : difference mem p q i = Libc.strncmp s t (s.length + t.length + 1) := by
      rw [difference_eq hs ht hfirst, if_pos (by omega)]
    have hs' : s.take (s.length + t.length + 1) = s := List.take_of_length_le (by omega)
    have ht' : t.take (s.length + t.length + 1) = t := List.take_of_length_le (by omega)
    rw [hwhole, strncmp_zero_iff hs.nonzero ht.nonzero, strncmp_neg_iff hs.nonzero ht.nonzero, hs', ht']
    exact ⟨Iff.rfl, Iff.rfl⟩

/-- "ab" comes before "ad". -/
theorem ab_ad_compared :
    let mem : Mem := fun a => [0x61, 0x62, 0, 0x61, 0x64].getD a.toNat 0
    OnMem.strncmp mem 0 3 1 = 0 ∧ OnMem.strncmp mem 0 3 2 < 0 ∧
      ∃ r, (∀ fuel > 2, (strcmp mem 0 3 fuel : Res Empty Int) = .ok r) ∧ r < 0 := by
  intro mem
  have hab : HoldsStr mem 0 [0x61, 0x62] := ⟨by unfold Holds; decide, rfl, by decide⟩
  have had : HoldsStr mem 3 [0x61, 0x64] := ⟨by unfold Holds; decide, rfl, by decide⟩
  obtain ⟨hn, r, hends, -, hlt⟩ := compare_spec (φ := Empty) hab had
  exact ⟨(hn 1).2.1.mpr (by decide), (hn 2).2.2.mpr (by decide), r, hends, hlt.mpr (by decide)⟩

/-! ## Search -/

theorem comesIn_eq (ht : HoldsStr mem q t) (c : U8) {fuel : Nat} (hfuel : t.length < fuel) :
    (comesIn mem q c fuel : Res φ Bool) = .ok (decide (c ∈ t)) := by
  have hfirst : IsFirst (fun p => mem.view q p = 0 ∨ mem.view q p = c) 0 (t.findIdx (· == c)) := by
    simpa using ht.isFirst (· == c)
  have hle : t.findIdx (· == c) ≤ t.length := List.findIdx_le_length
  unfold comesIn
  rw [firstFrom_ok_iff.mpr ⟨by omega, hfirst⟩, Res.ok_bind, Res.pure_eq]
  congr 1
  rw [decide_eq_decide]
  constructor
  · intro hne
    have hlt : t.findIdx (· == c) < t.length := by
      refine Nat.lt_of_le_of_ne hle fun heq => hne ?_
      rw [heq]
      exact ht.terminated
    obtain ⟨d, hd, hdc⟩ := List.findIdx_lt_length.mp hlt
    rwa [← eq_of_beq hdc]
  · intro hc
    exact ht.ne_zero (List.findIdx_lt_length.mpr ⟨c, hc, beq_self_eq_true c⟩)

/-- The two loops, as one over the string. -/
theorem spanFrom_eq (ht : HoldsStr mem q t) (leaveAt : Bool) {fuel : Nat} (hfuel : t.length < fuel) (n len : Nat) :
    (spanFrom mem leaveAt p q fuel n len : Res φ U32) =
      (firstFrom (fun i => mem.view p i = 0 ∨ (decide (mem.view p i ∈ t) == leaveAt) = true) n len >>= fun len =>
        pure (BitVec.ofNat 32 len)) := by
  induction n generalizing len with
  | zero => rfl
  | succ n ih =>
    unfold spanFrom firstFrom
    rw [comesIn_eq ht _ hfuel, Res.ok_bind]
    by_cases h0 : mem.view p len = 0
    · rw [if_pos h0, if_pos (Or.inl h0)]
      rfl
    by_cases hleave : decide (mem.view p len ∈ t) = leaveAt
    · rw [if_neg h0, if_pos hleave, if_pos (Or.inr (by simp [hleave]))]
      rfl
    · rw [if_neg h0, if_neg hleave, if_neg (not_or.mpr ⟨h0, by simpa using hleave⟩), ih]

theorem span_eq (hs : HoldsStr mem p s) (ht : HoldsStr mem q t) (leaveAt : Bool) {fuel : Nat} (hfuel : s.length < fuel)
    (hfuel' : t.length < fuel) : (spanFrom mem leaveAt p q fuel fuel 0 : Res φ U32) =
      .ok (BitVec.ofNat 32 (s.findIdx fun c => decide (c ∈ t) == leaveAt)) := by
  have hle : (s.findIdx fun c => decide (c ∈ t) == leaveAt) ≤ s.length := List.findIdx_le_length
  rw [spanFrom_eq ht leaveAt hfuel',
    firstFrom_ok_iff.mpr ⟨by omega, hs.isFirst fun c => decide (c ∈ t) == leaveAt⟩]
  rfl

/-- The searches end, and find what the string has first: the terminator never. -/
theorem scan_spec (hs : HoldsStr mem p s) (ht : HoldsStr mem q t) (c : U32) {fuel : Nat} (hfuel : s.length < fuel)
    (hfuel' : t.length < fuel) :
    (strchr mem p c fuel : Res φ (Option U32)) =
      .ok (if c.setWidth 8 ∈ s then some (p + BitVec.ofNat 32 (s.idxOf (c.setWidth 8))) else none) ∧
    (strspn mem p q fuel : Res φ U32) = .ok (BitVec.ofNat 32 (s.takeWhile (· ∈ t)).length) ∧
    (strcspn mem p q fuel : Res φ U32) = .ok (BitVec.ofNat 32 (s.takeWhile (· ∉ t)).length) := by
  have hlength : ∀ f : U8 → Bool, (s.takeWhile f).length = s.findIdx fun c => !f c := by
    intro f
    rw [List.takeWhile_eq_take_findIdx_not, List.length_take]
    exact Nat.min_eq_left List.findIdx_le_length
  refine ⟨?_, ?_, ?_⟩
  · have hfirst : IsFirst (fun i => mem.view p i = 0 ∨ mem.view p i = c.setWidth 8) 0 (s.idxOf (c.setWidth 8)) := by
      simpa [List.idxOf] using hs.isFirst (· == c.setWidth 8)
    have hle : s.idxOf (c.setWidth 8) ≤ s.length := List.idxOf_le_length
    unfold strchr
    rw [firstFrom_ok_iff.mpr ⟨by omega, hfirst⟩, Res.ok_bind, Res.pure_eq]
    by_cases hc : c.setWidth 8 ∈ s
    · rw [if_neg (hs.ne_zero (List.idxOf_lt_length_iff.mpr hc)), if_pos hc]
    · rw [List.idxOf_eq_length hc, if_pos hs.terminated, if_neg hc]
  · unfold strspn
    rw [span_eq hs ht false hfuel hfuel', hlength]
    simp
  · unfold strcspn
    rw [span_eq hs ht true hfuel hfuel', hlength]
    simp

/-- In "abc", with the bytes of "ba": the third one does not come in it. -/
theorem abc_scanned :
    let mem : Mem := fun a => [0x61, 0x62, 0x63, 0, 0x62, 0x61].getD a.toNat 0
    (strchr mem 0 0x63 4 : Res Empty (Option U32)) = .ok (some 2) ∧ (strchr mem 0 0 4 : Res Empty (Option U32)) = .ok none ∧
      (strspn mem 0 4 4 : Res Empty U32) = .ok 2 ∧ (strcspn mem 0 4 4 : Res Empty U32) = .ok 0 := by
  intro mem
  have habc : HoldsStr mem 0 [0x61, 0x62, 0x63] := ⟨by unfold Holds; decide, rfl, by decide⟩
  have hba : HoldsStr mem 4 [0x62, 0x61] := ⟨by unfold Holds; decide, rfl, by decide⟩
  have hc := scan_spec (φ := Empty) habc hba 0x63 (show 3 < 4 by decide) (by decide)
  have hend := scan_spec (φ := Empty) habc hba 0 (show 3 < 4 by decide) (by decide)
  exact ⟨hc.1, hend.1, hc.2.1, hc.2.2⟩

end Iosu.Libc.OnMem
