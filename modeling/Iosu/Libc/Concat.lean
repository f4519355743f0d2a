/-
  Iosu.Libc.Concat — `strlcpy` and `strlcat` (`libraries/libc/lib/string.c`).

  Both are bounded by the size of the buffer: behind a `strlcpy` and any number of
  `strlcat`s it holds what was put together, as far as there is room for it and a terminator,
  and nothing outside is touched (`built_text`). The lengths they return are those of the
  text that is in the buffer, so that they tell nothing about what was cut off. The bound is
  counted down without a look at it: of a buffer of no size, `strlcpy` fills the address space
  (`strlcpy_within_iff`).
-/

import Iosu.Libc.Memory
import Iosu.Libc.Text
import Mathlib.Data.List.Forall2

namespace Iosu.Libc.OnMem

open Iosu.Lib Iosu.Lib.Mem

def strlcpy (dest src maxlen : U32) (mem : Mem) : U32 × Mem :=
  let needed := strnlen mem src (maxlen - 1) + 1
  let len := if maxlen ≤ needed then maxlen - 1 else needed
  let mem := memcpy dest src len mem
  let mem := Function.update mem (dest + len) 0
  (needed - 1, mem)

def strlcat (dest src maxlen : U32) (mem : Mem) : U32 × Mem :=
  let used := strnlen mem dest (maxlen - 1)
  let (ret, mem) := strlcpy (dest + used) src (maxlen - used) mem
  (used + ret, mem)

/-- One after the other, behind what is in the buffer. -/
def strlcats (dest maxlen : U32) (srcs : List U32) (mem : Mem) : Mem :=
  srcs.foldl (fun mem src => (strlcat dest src maxlen mem).2) mem

variable {mem : Mem} {dest src maxlen : U32} {s d : List U8}

/-! ## What is touched -/

theorem pred_toNat (h : maxlen ≠ 0) : (maxlen - 1).toNat = maxlen.toNat - 1 := by
  have hpos : maxlen.toNat ≠ 0 := fun h0 => h (BitVec.eq_of_toNat_eq h0)
  have hlt := maxlen.isLt
  have hone : (1 : U32).toNat = 1 := rfl
  rw [BitVec.toNat_sub, hone]
  omega

/-- How many bytes `strlcpy` copies, one less than there is room for at most. -/
def copied (mem : Mem) (src maxlen : U32) : U32 :=
  if maxlen ≤ strnlen mem src (maxlen - 1) + 1 then maxlen - 1 else strnlen mem src (maxlen - 1) + 1

theorem strlcpy_mem (dest src maxlen : U32) (mem : Mem) : (strlcpy dest src maxlen mem).2 =
    Function.update (memcpy dest src (copied mem src maxlen) mem) (dest + copied mem src maxlen) 0 := rfl

theorem strlcpy_returns (dest src maxlen : U32) (mem : Mem) :
    (strlcpy dest src maxlen mem).1 = strnlen mem src (maxlen - 1) + 1 - 1 := rfl

theorem copied_lt (h : maxlen ≠ 0) : (copied mem src maxlen).toNat < maxlen.toNat := by
  have hpos : maxlen.toNat ≠ 0 := fun h0 => h (BitVec.eq_of_toNat_eq h0)
  unfold copied
  split
  · rw [pred_toNat h]
    omega
  · rename_i hlt
    exact Nat.lt_of_not_le hlt

theorem strlcpy_frame (h : maxlen ≠ 0) {a : U32} (ha : ¬ InWindow dest maxlen.toNat a) :
    (strlcpy dest src maxlen mem).2 a = mem a := by
  have hlt : (copied mem src maxlen).toNat < maxlen.toNat := copied_lt h
  have hend : a ≠ dest + copied mem src maxlen := by
    rintro rfl
    refine ha ?_
    have hin := inWindow_add (p := dest) hlt (Nat.le_of_lt maxlen.isLt)
    rwa [BitVec.ofNat_toNat, BitVec.setWidth_eq] at hin
  rw [strlcpy_mem, Function.update_of_ne hend, memcpy_frame]
  exact fun hin => ha (inWindow_mono hin (Nat.le_of_lt hlt))

/-- `strlcpy` keeps to its buffer, whatever is in the memory, unless the buffer has no size. -/
theorem strlcpy_within_iff (dest src maxlen : U32) :
    (∀ (mem : Mem) (a : U32), ¬ InWindow dest maxlen.toNat a → (strlcpy dest src maxlen mem).2 a = mem a) ↔ maxlen ≠ 0 := by
  refine ⟨?_, fun h mem a ha => strlcpy_frame h ha⟩
  rintro h rfl
  -- where the byte in front of the buffer is not zero, it becomes so
  have houtside := h (fun _ => 1) (dest + (0 - 1)) (Nat.not_lt_zero _)
  have hlen : copied (fun _ => 1) src 0 = 0 - 1 := if_pos (Nat.zero_le _)
  have hzero : (strlcpy dest src 0 fun _ => 1).2 (dest + (0 - 1)) = 0 := by
    rw [strlcpy_mem, hlen, Function.update_self]
  rw [hzero] at houtside
  cases houtside

/-! ## What is in the buffer -/

/-- The string at `src` lies outside the buffer. -/
def Outside (dest maxlen src : U32) (s : List U8) : Prop :=
  ∀ i ≤ s.length, ¬ InWindow dest maxlen.toNat (src + BitVec.ofNat 32 i)

theorem copied_toNat (h : maxlen ≠ 0) (hs : HoldsStr mem src s) :
    (copied mem src maxlen).toNat = min (s.length + 1) (maxlen.toNat - 1) := by
  have hpos : maxlen.toNat ≠ 0 := fun h0 => h (BitVec.eq_of_toNat_eq h0)
  have hlt := maxlen.isLt
  have hone : (1 : U32).toNat = 1 := rfl
  have hneeded : (strnlen mem src (maxlen - 1) + 1).toNat = min s.length (maxlen.toNat - 1) + 1 := by
    rw [BitVec.toNat_add, strnlen_toNat hs, pred_toNat h, hone]
    omega
  unfold copied
  simp only [BitVec.le_def, hneeded]
  split
  · rw [pred_toNat h]
    omega
  · rw [hneeded]
    omega

/-- What `strlcpy` leaves at the destination. -/
theorem strlcpy_view (h : maxlen ≠ 0) (hs : HoldsStr mem src s) (hout : Outside dest maxlen src s) {i : Nat}
    (hi : i < maxlen.toNat) :
    (strlcpy dest src maxlen mem).2.view dest i =
      if i < min (s.length + 1) (maxlen.toNat - 1) then s.getD i 0
      else if i = min (s.length + 1) (maxlen.toNat - 1) then 0 else mem.view dest i := by
  have hlt := maxlen.isLt
  have hcopied := copied_toNat h hs
  have haddr : dest + copied mem src maxlen = dest + BitVec.ofNat 32 (min (s.length + 1) (maxlen.toNat - 1)) := by
    rw [← hcopied, BitVec.ofNat_toNat, BitVec.setWidth_eq]
  rw [strlcpy_mem, haddr, view_update _ _ _ (by omega) (by omega)]
  by_cases hin : i < min (s.length + 1) (maxlen.toNat - 1)
  · have hapart : ∀ j < (copied mem src maxlen).toNat,
        ¬ InWindow dest (copied mem src maxlen).toNat (src + BitVec.ofNat 32 j) := by
      intro j hj hwindow
      exact hout j (by omega) (inWindow_mono hwindow (by omega))
    rw [if_neg (by omega), if_pos hin, memcpy_apart dest src hapart (by omega), hs.getD (by omega)]
  · rw [if_neg hin, memcpy_view dest src _ mem (by omega), if_neg (show ¬ i < (copied mem src maxlen).toNat by omega)]

theorem strlcpy_spec (h : maxlen ≠ 0) (hs : HoldsStr mem src s) (hout : Outside dest maxlen src s) :
    HoldsStr (strlcpy dest src maxlen mem).2 dest (s.take (maxlen.toNat - 1)) ∧
      (strlcpy dest src maxlen mem).1.toNat = (s.take (maxlen.toNat - 1)).length := by
  have hpos : maxlen.toNat ≠ 0 := fun h0 => h (BitVec.eq_of_toNat_eq h0)
  refine ⟨⟨fun i hi => ?_, ?_, fun c hc => hs.nonzero c (List.mem_of_mem_take hc)⟩, ?_⟩
  · rw [List.length_take] at hi
    rw [strlcpy_view h hs hout (by omega), if_pos (by omega), List.getElem_take, List.getD_eq_getElem _ _ (by omega)]
  · rw [List.length_take, strlcpy_view h hs hout (by omega)]
    rcases Nat.lt_or_ge s.length (maxlen.toNat - 1) with hlt | hge
    · -- the copied terminator, and one more behind it
      rw [if_pos (by omega), List.getD_eq_default _ _ (by omega)]
    · rw [if_neg (by omega), if_pos (by omega)]
  · rw [strlcpy_returns, BitVec.add_sub_cancel, strnlen_toNat hs, pred_toNat h, List.length_take, Nat.min_comm]

/-! ## Behind what is there -/

/-- Where `strlcat` goes on, and how much room there is from there. -/
theorem room (h : maxlen ≠ 0) (mem : Mem) (dest : U32) :
    (maxlen - strnlen mem dest (maxlen - 1)).toNat = maxlen.toNat - (strnlen mem dest (maxlen - 1)).toNat ∧
      (strnlen mem dest (maxlen - 1)).toNat < maxlen.toNat := by
  have hpos : maxlen.toNat ≠ 0 := fun h0 => h (BitVec.eq_of_toNat_eq h0)
  have hle := strnlen_le mem dest (maxlen - 1)
  rw [pred_toNat h] at hle
  have hlt := maxlen.isLt
  rw [BitVec.toNat_sub]
  omega

theorem room_ne_zero (h : maxlen ≠ 0) (mem : Mem) (dest : U32) : maxlen - strnlen mem dest (maxlen - 1) ≠ 0 := by
  obtain ⟨hroom, hlt⟩ := room h mem dest
  intro h0
  rw [h0] at hroom
  have hzero : (0 : U32).toNat = 0 := rfl
  omega

theorem ofNat_toNat_self (x : U32) : BitVec.ofNat 32 x.toNat = x := by rw [BitVec.ofNat_toNat, BitVec.setWidth_eq]

/-- The window that `strlcat` writes to is the end of the buffer. -/
theorem strlcat_window (h : maxlen ≠ 0) {a : U32}
    (ha : InWindow (dest + strnlen mem dest (maxlen - 1)) (maxlen - strnlen mem dest (maxlen - 1)).toNat a) :
    InWindow dest maxlen.toNat a := by
  rw [(room h mem dest).1, ← ofNat_toNat_self (strnlen mem dest (maxlen - 1))] at ha
  rw [BitVec.toNat_ofNat, Nat.mod_eq_of_lt (BitVec.isLt _)] at ha
  exact ha.of_shift (Nat.le_of_lt maxlen.isLt)

theorem strlcat_frame (h : maxlen ≠ 0) {a : U32} (ha : ¬ InWindow dest maxlen.toNat a) :
    (strlcat dest src maxlen mem).2 a = mem a :=
  strlcpy_frame (room_ne_zero h mem dest) fun hin => ha (strlcat_window h hin)

theorem take_append_take (d s : List U8) (n : Nat) : (d.take n ++ s).take n = (d ++ s).take n := by
  rw [List.take_append, List.take_append, List.take_take, List.length_take]
  congr 2
  · omega
  · omega

theorem strlcat_spec (h : maxlen ≠ 0) (hd : HoldsStr mem dest d) (hs : HoldsStr mem src s)
    (hout : Outside dest maxlen src s) :
    HoldsStr (strlcat dest src maxlen mem).2 dest ((d ++ s).take (maxlen.toNat - 1)) ∧
      (strlcat dest src maxlen mem).1.toNat = ((d ++ s).take (maxlen.toNat - 1)).length := by
  obtain ⟨hroom, hlt⟩ := room h mem dest
  have hused : (strnlen mem dest (maxlen - 1)).toNat = min d.length (maxlen.toNat - 1) := by
    rw [strnlen_toNat hd, pred_toNat h]
  obtain ⟨hcopied, hret⟩ := strlcpy_spec (room_ne_zero h mem dest) hs fun i hi hin => hout i hi (strlcat_window h hin)
  rw [hroom] at hcopied hret
  have htext : (d ++ s).take (maxlen.toNat - 1) = d.take (strnlen mem dest (maxlen - 1)).toNat ++
      s.take (maxlen.toNat - (strnlen mem dest (maxlen - 1)).toNat - 1) := by
    rw [List.take_append, hused]
    congr 1
    · rcases Nat.le_total d.length (maxlen.toNat - 1) with hle | hle
      · rw [Nat.min_eq_left hle, List.take_of_length_le hle, List.take_of_length_le (Nat.le_refl _)]
      · rw [Nat.min_eq_right hle]
    · congr 1
      omega
  have hlength : (d.take (strnlen mem dest (maxlen - 1)).toNat).length = (strnlen mem dest (maxlen - 1)).toNat := by
    rw [List.length_take]
    omega
  refine ⟨?_, ?_⟩
  · rw [htext]
    refine HoldsStr.append ?_ (fun i hi => ?_) fun c hc => hd.nonzero c (List.mem_of_mem_take hc)
    · rw [hlength, ofNat_toNat_self]
      exact hcopied
    · rw [hlength] at hi
      have hbefore := not_inWindow_shift (p := dest) hi (Nat.le_of_lt hlt) (Nat.le_of_lt maxlen.isLt)
      rw [ofNat_toNat_self, ← hroom] at hbefore
      rw [List.getElem_take, ← hd.text i (by omega)]
      exact strlcpy_frame (room_ne_zero h mem dest) hbefore
  · rw [htext, List.length_append, hlength, ← hret]
    have hfits : (strnlen mem dest (maxlen - 1)).toNat +
        (strlcpy (dest + strnlen mem dest (maxlen - 1)) src (maxlen - strnlen mem dest (maxlen - 1)) mem).1.toNat < 2 ^ 32 := by
      have hbound := maxlen.isLt
      rw [hret, List.length_take]
      omega
    show (strnlen mem dest (maxlen - 1) +
      (strlcpy (dest + strnlen mem dest (maxlen - 1)) src (maxlen - strnlen mem dest (maxlen - 1)) mem).1).toNat = _
    rw [BitVec.toNat_add, Nat.mod_eq_of_lt hfits]

/-! ## Any number of texts -/

theorem strlcats_frame (h : maxlen ≠ 0) (srcs : List U32) {a : U32} (ha : ¬ InWindow dest maxlen.toNat a) :
    strlcats dest maxlen srcs mem a = mem a := by
  induction srcs generalizing mem with
  | nil => rfl
  | cons src srcs ih =>
    show strlcats dest maxlen srcs (strlcat dest src maxlen mem).2 a = mem a
    rw [ih, strlcat_frame h ha]

/-- The strings at `srcs`, all of them outside the buffer. -/
def Sources (mem : Mem) (dest maxlen : U32) : List U32 → List (List U8) → Prop :=
  List.Forall₂ fun src s => HoldsStr mem src s ∧ Outside dest maxlen src s

/-- They stay where they are as long as nothing outside the buffer is touched. -/
theorem Sources.frame {mem' : Mem} {srcs : List U32} {texts : List (List U8)} (h : Sources mem dest maxlen srcs texts)
    (hframe : ∀ a, ¬ InWindow dest maxlen.toNat a → mem' a = mem a) : Sources mem' dest maxlen srcs texts :=
  List.Forall₂.imp (fun _ _ hsrc => ⟨hsrc.1.frame fun i hi => hframe _ (hsrc.2 i hi), hsrc.2⟩) h

/-- What is in the buffer, and then the texts. -/
theorem strlcats_spec (h : maxlen ≠ 0) {srcs : List U32} {texts : List (List U8)}
    (hd : HoldsStr mem dest (d.take (maxlen.toNat - 1))) (hsrcs : Sources mem dest maxlen srcs texts) :
    HoldsStr (strlcats dest maxlen srcs mem) dest ((d ++ texts.flatten).take (maxlen.toNat - 1)) := by
  induction srcs generalizing texts mem d with
  | nil =>
    cases hsrcs
    rw [List.flatten_nil, List.append_nil]
    exact hd
  | cons src srcs ih =>
    cases hsrcs with
    | @cons _ s _ texts hsrc hrest =>
      obtain ⟨hnext, -⟩ := strlcat_spec h hd hsrc.1 hsrc.2
      rw [take_append_take] at hnext
      rw [List.flatten_cons, ← List.append_assoc]
      exact ih hnext (Sources.frame hrest fun a ha => strlcat_frame h ha)

/-- Behind a `strlcpy` and any number of `strlcat`s the buffer holds the texts one behind the
    other, as far as there is room for them; nothing outside the buffer is touched. -/
theorem built_text (h : maxlen ≠ 0) {srcs : List U32} {texts : List (List U8)}
    (hsrcs : Sources mem dest maxlen (src :: srcs) (s :: texts)) :
    HoldsStr (strlcats dest maxlen srcs (strlcpy dest src maxlen mem).2) dest
      ((s :: texts).flatten.take (maxlen.toNat - 1)) ∧
    ∀ a, ¬ InWindow dest maxlen.toNat a → strlcats dest maxlen srcs (strlcpy dest src maxlen mem).2 a = mem a := by
  obtain ⟨⟨hs, hout⟩, hrest⟩ := List.forall₂_cons.mp hsrcs
  refine ⟨?_, fun a ha => ?_⟩
  · rw [List.flatten_cons]
    exact strlcats_spec h (strlcpy_spec h hs hout).1 (Sources.frame hrest fun a ha => strlcpy_frame h ha)
  · rw [strlcats_frame h srcs ha, strlcpy_frame h ha]

/-- "ab", "cd" and "ef" in a buffer of six bytes. -/
theorem abcde_built :
    let mem : Mem := fun a => [0x61, 0x62, 0, 0x63, 0x64, 0, 0x65, 0x66].getD a.toNat 0
    HoldsStr (strlcats 0x100 6 [3, 6] (strlcpy 0x100 0 6 mem).2) 0x100 [0x61, 0x62, 0x63, 0x64, 0x65] := by
  intro mem
  have hab : HoldsStr mem 0 [0x61, 0x62] := ⟨by unfold Holds; decide, rfl, by decide⟩
  have hcd : HoldsStr mem 3 [0x63, 0x64] := ⟨by unfold Holds; decide, rfl, by decide⟩
  have hef : HoldsStr mem 6 [0x65, 0x66] := ⟨by unfold Holds; decide, rfl, by decide⟩
  have hout : ∀ k < 9, Outside 0x100 6 (BitVec.ofNat 32 k) [0, 0] := by unfold Outside; decide
  have hbuilt := built_text (show (6 : U32) ≠ 0 by decide) (.cons ⟨hab, hout 0 (by decide)⟩
    (.cons ⟨hcd, hout 3 (by decide)⟩ (.cons ⟨hef, hout 6 (by decide)⟩ .nil)))
  exact hbuilt.1

end Iosu.Libc.OnMem
