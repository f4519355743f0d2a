/-
  Iosu.Bsp.Bursts — which corruptions of a board configuration its CRC shows.

  The CRC sees every change within four bytes (`crc_burst`), so two words of the body
  that lie side by side cannot go wrong unnoticed, as long as the CRC is asked for the
  same span (`bursts_detected`). The size of the span is itself a word of the body: with
  another size the CRC of other words can be the same (`resized_accepted`).
-/

import Iosu.Bsp.BoardImage
import Iosu.Libraries.Crc32Calls

namespace Iosu.Bsp

open Iosu.Lib Iosu.Lib.Microwire Iosu.Entity Iosu.Ios Iosu.Eeprom Iosu.Libraries

variable {ε : Type}

/-! ## Words -/

theorem ofU16_injective {a b : U16} (h : Buf.ofU16 a = Buf.ofU16 b) : a = b := by
  obtain ⟨hhigh, htail⟩ := List.cons_eq_cons.mp h
  obtain ⟨hlow, -⟩ := List.cons_eq_cons.mp htail
  apply BitVec.eq_of_getLsbD_eq
  intro i hi
  by_cases h8 : i < 8
  · have hbit := congrArg (fun c => BitVec.getLsbD c i) hlow
    simpa [h8] using hbit
  · have hbit := congrArg (fun c => BitVec.getLsbD c (i - 8)) hhigh
    simpa [show i - 8 < 8 by omega, show 8 + (i - 8) = i by omega] using hbit

theorem flatMap_ofU16_length (xs : List U16) : (xs.flatMap Buf.ofU16).length = 2 * xs.length := by
  rw [List.length_flatMap]
  simp [Buf.ofU16]
  omega

/-- Words that differ at most at `i` and behind it, around these two. -/
theorem split_around {i : Nat} {xs ys : List U16} (hsame : ∀ j, j ≠ i → j ≠ i + 1 → xs[j]? = ys[j]?) :
    xs.take i = ys.take i ∧ xs.drop (i + 2) = ys.drop (i + 2) := by
  refine ⟨List.ext_getElem? fun j => ?_, List.ext_getElem? fun j => ?_⟩
  · rw [List.getElem?_take, List.getElem?_take]
    by_cases hj : j < i
    · rw [if_pos hj, if_pos hj, hsame j (by omega) (by omega)]
    · rw [if_neg hj, if_neg hj]
  · rw [List.getElem?_drop, List.getElem?_drop]
    exact hsame _ (by omega) (by omega)

theorem words_burst {i : Nat} {xs ys : List U16} (hlen : xs.length = ys.length)
    (hsame : ∀ j, j ≠ i → j ≠ i + 1 → xs[j]? = ys[j]?) (hne : xs ≠ ys) (s : List U8) :
    Crc.crc32 (xs.flatMap Buf.ofU16 ++ s) ≠ Crc.crc32 (ys.flatMap Buf.ofU16 ++ s) := by
  obtain ⟨htake, hdrop⟩ := split_around hsame
  have hparts : ∀ zs : List U16, zs.flatMap Buf.ofU16 ++ s = (zs.take i).flatMap Buf.ofU16 ++
      ((zs.drop i).take 2).flatMap Buf.ofU16 ++ ((zs.drop (i + 2)).flatMap Buf.ofU16 ++ s) := by
    intro zs
    rw [← List.append_assoc, ← List.flatMap_append, ← List.flatMap_append, List.append_assoc,
      ← List.drop_drop, List.take_append_drop, List.take_append_drop]
  have hmid : ((xs.drop i).take 2).length = ((ys.drop i).take 2).length := by simp [hlen]
  have hdiffer : ((xs.drop i).take 2).flatMap Buf.ofU16 ≠ ((ys.drop i).take 2).flatMap Buf.ofU16 := by
    intro h
    have htwo := Crc.flatMap_injective Buf.ofU16 2 (fun _ => rfl) (fun _ _ => ofU16_injective) hmid h
    apply hne
    rw [← List.take_append_drop i xs, ← List.take_append_drop i ys, ← List.take_append_drop 2 (xs.drop i),
      ← List.take_append_drop 2 (ys.drop i), List.drop_drop, List.drop_drop, htake, htwo, hdrop]
  rw [hparts xs, hparts ys, htake, hdrop]
  refine Crc.crc_burst crc32_top _ _ ?_ ?_ hdiffer
  · rw [flatMap_ofU16_length, flatMap_ofU16_length, hmid]
  · rw [flatMap_ofU16_length]
    have : ((xs.drop i).take 2).length ≤ 2 := List.length_take_le 2 _
    omega

/-! ## Structures -/

/-- `bcGet` takes the board's structure for good. -/
def BcAccepts (x : Ext ε) (b : Process ε) : Prop :=
  ∃ config config' b', bcGet x config b = .ok ((IOS_ERROR_OK, config'), b')

/-- The word `j` of the structure. -/
def wordAt (image : U8 → U16) (j : Nat) : U16 := image (BitVec.ofNat 8 (0x1C + j))

/-- Of the first `n` words some differ: none but `i` and the one behind it. -/
structure CorruptedAt (image image' : U8 → U16) (n i : Nat) : Prop where
  outside : ∀ j < n, j ≠ i → j ≠ i + 1 → wordAt image j = wordAt image' j
  inside : ∃ j < n, wordAt image j ≠ wordAt image' j

theorem body_eq (image : U8 → U16) (n : Nat) :
    body image n = ((List.range ((n - 4) / 2)).map fun l => wordAt image (2 + l)).flatMap Buf.ofU16 := by
  unfold body
  rw [List.flatMap_map]
  refine List.flatMap_congr fun l _ => ?_
  show _ = Buf.ofU16 (image (BitVec.ofNat 8 (0x1C + (2 + l))))
  rw [show 0x1C + (2 + l) = 0x1E + l by omega]

theorem bcAccepts_iff {x : Ext ε} {b : Process ε} (h : b.drv.status = .opened) :
    BcAccepts x b ↔ (0 < wordCount x b ∧ wordCount x b < 0x24) ∧ Accepted (wordCount x b) (loadedWords x b) := by
  by_cases hlong : 0x24 < wordCount x b
  · refine ⟨?_, fun hin => by omega⟩
    intro hsome
    obtain ⟨config, config', b', hget⟩ := hsome
    rw [bcGet_tooLong h hlong] at hget
    cases hget
  by_cases hover : wordCount x b = 0 ∨ wordCount x b = 0x24
  · refine ⟨?_, fun hin => by omega⟩
    intro hsome
    obtain ⟨config, config', b', hget⟩ := hsome
    rw [bcGet_overruns h hover] at hget
    cases hget
  have hin : 0 < wordCount x b ∧ wordCount x b < 0x24 := by omega
  refine ⟨?_, fun hacc => ?_⟩
  · intro hsome
    obtain ⟨config, config', b', hget⟩ := hsome
    refine ⟨hin, ?_⟩
    rw [bcGet_loaded h hin.1 hin.2] at hget
    by_cases hacc : Accepted (wordCount x b) (loadedWords x b)
    · exact hacc
    · rw [if_neg hacc] at hget
      cases hget
  · have hget := bcGet_loaded (x := x) h hin.1 hin.2 BcConfig.zero
    rw [if_pos hacc.2] at hget
    exact ⟨_, _, _, hget⟩

/-- What is accepted has the CRC of its body and two zeros. -/
theorem BcAccepts.crc {x : Ext ε} {b : Process ε} {image : U8 → U16} (hacc : BcAccepts x b) (h : b.drv.status = .opened)
    (hd : Delivers x image b) (h2 : 2 ≤ wordCount x b) :
    storedCrc image = Crc.crc32 (body image (byteCount image) ++ [0, 0]) := by
  obtain ⟨hin, hcrc⟩ := (bcAccepts_iff h).mp hacc
  rw [hd.loadedWords_eq, hd.byteCount_eq] at hcrc
  rw [hd.byteCount_eq]
  exact (accepted_iff image h2 hin.2).mp hcrc

section Corrupted

variable {image image' : U8 → U16} {m i : Nat} (h : CorruptedAt image image' (m / 2) i) (hbody : 2 ≤ i)

include h hbody

theorem CorruptedAt.in_body : ∃ j, 2 ≤ j ∧ j < m / 2 ∧ wordAt image j ≠ wordAt image' j := by
  obtain ⟨j, hj, hdiffer⟩ := h.inside
  refine ⟨j, ?_, hj, hdiffer⟩
  by_contra hlow
  exact hdiffer (h.outside j hj (by omega) (by omega))

theorem CorruptedAt.storedCrc_eq : storedCrc image = storedCrc image' := by
  obtain ⟨j, h2, hj, -⟩ := h.in_body hbody
  have h0 : image 0x1C = image' 0x1C := h.outside 0 (by omega) (by omega) (by omega)
  have h1 : image 0x1D = image' 0x1D := h.outside 1 (by omega) (by omega) (by omega)
  unfold storedCrc
  rw [h0, h1]

theorem CorruptedAt.crc_ne (s : List U8) : Crc.crc32 (body image m ++ s) ≠ Crc.crc32 (body image' m ++ s) := by
  obtain ⟨j, h2, hj, hdiffer⟩ := h.in_body hbody
  rw [body_eq, body_eq]
  refine words_burst (i := i - 2) (by simp) ?_ ?_ s
  · intro l hl hl'
    by_cases hlt : l < (m - 4) / 2
    · simp only [List.getElem?_map, List.getElem?_range hlt, Option.map_some]
      rw [h.outside (2 + l) (by omega) (by omega) (by omega)]
    · simp [hlt]
  · intro hmaps
    have hlt : j - 2 < (m - 4) / 2 := by omega
    have hat := congrArg (fun ws => ws[j - 2]?) hmaps
    simp only [List.getElem?_map, List.getElem?_range hlt, Option.map_some, Option.some.injEq] at hat
    rw [show 2 + (j - 2) = j by omega] at hat
    exact hdiffer hat

end Corrupted

/-- The CRC tells apart what differs in four bytes or less. Where two words of a body
    that lie side by side are corrupted, and no other, and the structure has as many
    words as before, it is not accepted both before and after. -/
theorem bursts_detected :
    (∀ p u v s : List U8, u.length = v.length → u.length ≤ 4 → u ≠ v →
      (crc32Input crc32Reset (p ++ u ++ s)).1 ≠ (crc32Input crc32Reset (p ++ v ++ s)).1) ∧
    ∀ {x x' : Ext ε} {b b' : Process ε} {image image' : U8 → U16} {i : Nat},
      b.drv.status = .opened → b'.drv.status = .opened → Delivers x image b → Delivers x' image' b' →
      2 ≤ i → CorruptedAt image image' (byteCount image / 2) i → byteCount image' = byteCount image →
      ¬ (BcAccepts x b ∧ BcAccepts x' b') := by
  refine ⟨?_, ?_⟩
  · intro p u v s hlen h4 hne
    rw [crc32Input_reset, crc32Input_reset]
    exact Crc.crc_burst crc32_top p s hlen (by omega) hne
  · intro x x' b b' image image' i h h' hd hd' hbody hcorrupt hcount hboth
    obtain ⟨hacc, hacc'⟩ := hboth
    obtain ⟨j, h2, hj, -⟩ := hcorrupt.in_body hbody
    have hwords := hd.byteCount_eq
    have hwords' := hd'.byteCount_eq
    have hcrc := hacc.crc h hd (by omega)
    have hcrc' := hacc'.crc h' hd' (by omega)
    have hstored := hcorrupt.storedCrc_eq hbody
    rw [hcrc, hcrc', hcount] at hstored
    exact hcorrupt.crc_ne hbody [0, 0] hstored

/-- Six words, with a CRC that is right for four of them as well. -/
def resizedImage (size version : U16) : U8 → U16 := fun a =>
  if a = 0x1C then 0x8070 else if a = 0x1D then 0x8055 else if a = 0x1E then size else if a = 0x1F then version
  else if a = 0x20 then 0xEE1E else if a = 0x21 then 0x595E else 0

theorem resizedImage_wordCount (size version : U16) :
    wordCount (Ext.quiet seeprom 0 0) (seepromProcess (resizedImage size version)) = size.toNat / 2 :=
  (seeprom_delivers (resizedImage size version)).wordCount_eq

/-- With another version the structure is not accepted as well. -/
theorem version_detected :
    ¬ (BcAccepts (Ext.quiet seeprom 0 0) (seepromProcess (resizedImage 8 1)) ∧
      BcAccepts (Ext.quiet seeprom 0 0) (seepromProcess (resizedImage 8 2))) := by
  refine bursts_detected.2 rfl rfl (seeprom_delivers (resizedImage 8 1)) (seeprom_delivers (resizedImage 8 2))
    (Nat.le_succ 2) ⟨?_, 3, by decide, by decide⟩ rfl
  decide

/-- Where the size word alone is corrupted, the structure is accepted before and after. -/
theorem resized_accepted :
    (∀ a, a ≠ 0x1E → a ≠ 0x1F → resizedImage 8 1 a = resizedImage 12 1 a) ∧ resizedImage 8 1 0x1E ≠ resizedImage 12 1 0x1E ∧
      BcAccepts (Ext.quiet seeprom 0 0) (seepromProcess (resizedImage 8 1)) ∧
      BcAccepts (Ext.quiet seeprom 0 0) (seepromProcess (resizedImage 12 1)) := by
  have haccepted : ∀ size : U16, 2 ≤ size.toNat / 2 → size.toNat / 2 < 0x24 →
      storedCrc (resizedImage size 1) = Crc.crc32 (body (resizedImage size 1) (2 * (size.toNat / 2)) ++ [0, 0]) →
      BcAccepts (Ext.quiet seeprom 0 0) (seepromProcess (resizedImage size 1)) := by
    intro size h2 h24 hcrc
    have hd := seeprom_delivers (resizedImage size 1)
    refine (bcAccepts_iff rfl).mpr ?_
    rw [hd.loadedWords_eq, hd.byteCount_eq, resizedImage_wordCount]
    exact ⟨by omega, (accepted_iff _ h2 h24).mpr hcrc⟩
  refine ⟨?_, by decide, haccepted 8 (by decide) (by decide) ?_, haccepted 12 (by decide) (by decide) ?_⟩
  · intro a h1 h2
    unfold resizedImage
    rw [if_neg h1, if_neg h1]
  · decide +kernel
  · decide +kernel

end Iosu.Bsp
