/-
  Iosu.Bsp.BoardImage — which board configurations are accepted.

  A SEEPROM image declares its size at 0x1e and holds a CRC-32 at 0x1c, of the bytes
  behind it. `bcGet` asks for the CRC of two bytes more than that: two zeros, when the
  image is shorter than the array. So it accepts an image exactly when the CRC is right
  only where the CRC does not tell the two apart, or is neither of them
  (`acceptsExactly_iff`).
-/

import Iosu.Bsp.BoardWords

namespace Iosu.Bsp

open Iosu.Lib Iosu.Lib.Microwire Iosu.Entity Iosu.Ios Iosu.Eeprom Iosu.Libraries

variable {ε : Type}

/-! ## Images -/

/-- The declared size, rounded down to whole words. -/
def byteCount (image : U8 → U16) : Nat := 2 * ((image 0x1E).toNat / 2)

def storedCrc (image : U8 → U16) : U32 := image 0x1C ++ image 0x1D

/-- What follows the CRC in a structure of `n` bytes. -/
def body (image : U8 → U16) (n : Nat) : List U8 :=
  (List.range ((n - 4) / 2)).flatMap fun i => Buf.ofU16 (image (BitVec.ofNat 8 (0x1E + i)))

/-- The first `n` bytes of the structure, and zeros. -/
def imageWords (image : U8 → U16) (n : Nat) : Vector U16 0x24 :=
  Vector.ofFn fun i => if i.val < n / 2 then image (BitVec.ofNat 8 (i + 0x1C)) else 0

/-- `bcGet` comes back, with IOS_ERROR_OK exactly when the CRC of the structure is right,
    and then with the structure, in which an old version has its vendor replaced. -/
def AcceptsExactly (x : Ext ε) (config : BcConfig) (image : U8 → U16) (b : Process ε) : Prop :=
  ∃ err config' b', bcGet x config b = .ok ((err, config'), b') ∧
    (err = IOS_ERROR_OK ↔ storedCrc image = Crc.crc32 (body image (byteCount image))) ∧
    (err = IOS_ERROR_OK → config' = patched (imageWords image (byteCount image)))

theorem body_length (image : U8 → U16) (n : Nat) : (body image n).length = 2 * ((n - 4) / 2) := by
  unfold body
  rw [List.length_flatMap]
  simp [Buf.ofU16]
  omega

theorem imageWords_get (image : U8 → U16) (n : Nat) (i : Fin 0x24) :
    (imageWords image n).get i = if i.val < n / 2 then image (BitVec.ofNat 8 (i + 0x1C)) else 0 := by
  rw [vector_get, imageWords, Vector.getElem_ofFn]

/-! ## The span of the CRC -/

/-- The array as a list: the words that were loaded, and zeros. -/
theorem imageWords_toList (image : U8 → U16) {k : Nat} (hk : k ≤ 0x24) :
    (imageWords image (2 * k)).toList =
      (List.range k).map (fun i => image (BitVec.ofNat 8 (i + 0x1C))) ++ List.replicate (0x24 - k) 0 := by
  apply List.ext_getElem
  · simp
    omega
  · intro i hi hi'
    have hlt : i < 0x24 := by simpa using hi
    have hword := imageWords_get image (2 * k) ⟨i, hlt⟩
    rw [vector_get] at hword
    rw [Vector.getElem_toList, hword, Nat.mul_div_cancel_left k (by omega)]
    by_cases hik : i < k
    · rw [if_pos hik, List.getElem_append_left (by simpa using hik)]
      simp
    · rw [if_neg hik, List.getElem_append_right (by simpa using hik)]
      simp

theorem wordBytes_eq (data : Vector U16 0x24) : wordBytes data = data.toList.flatMap Buf.ofU16 := rfl

/-- Two bytes more than the structure has. -/
theorem crcSpan_eq (image : U8 → U16) {k : Nat} (h2 : 2 ≤ k) (hk : k < 0x24) :
    ((wordBytes (imageWords image (2 * k))).drop 4).take (2 * k - 2) = body image (2 * k) ++ [0, 0] := by
  obtain ⟨m, rfl⟩ : ∃ m, k = m + 2 := ⟨k - 2, by omega⟩
  have hlen : (body image (2 * (m + 2))).length = 2 * m := by
    rw [body_length]
    omega
  have hbody : body image (2 * (m + 2)) =
      (List.range m).flatMap fun i => Buf.ofU16 (image (BitVec.ofNat 8 (i + 2 + 0x1C))) := by
    unfold body
    rw [show (2 * (m + 2) - 4) / 2 = m by omega]
    refine List.flatMap_congr fun i _ => ?_
    rw [show 0x1E + i = i + 2 + 0x1C by omega]
  have hwords : (imageWords image (2 * (m + 2))).toList = image (BitVec.ofNat 8 0x1C) :: image (BitVec.ofNat 8 0x1D) ::
      ((List.range m).map (fun i => image (BitVec.ofNat 8 (i + 2 + 0x1C))) ++ 0 :: List.replicate (0x24 - (m + 2) - 1) 0) := by
    rw [imageWords_toList image (by omega), List.range_succ_eq_map, List.range_succ_eq_map,
      ← List.replicate_succ, show 0x24 - (m + 2) - 1 + 1 = 0x24 - (m + 2) by omega]
    simp [List.map_map, Function.comp_def]
  have hbytes : (wordBytes (imageWords image (2 * (m + 2)))).drop 4 = body image (2 * (m + 2)) ++
      ([0, 0] ++ (List.replicate (0x24 - (m + 2) - 1) 0).flatMap Buf.ofU16) := by
    rw [wordBytes_eq, hwords, hbody, List.flatMap_cons, List.flatMap_cons, List.flatMap_append, List.flatMap_map]
    rfl
  rw [hbytes, ← List.append_assoc, List.take_left' (by rw [List.length_append, hlen]; simp; omega)]

/-! ## Acceptance -/

section Board

variable {x : Ext ε} {image : U8 → U16} {b : Process ε}

theorem Delivers.byteCount_eq (hd : Delivers x image b) : byteCount image = 2 * wordCount x b := by
  unfold byteCount
  rw [hd.wordCount_eq]

theorem Delivers.loadedWords_eq (hd : Delivers x image b) : loadedWords x b = imageWords image (byteCount image) := by
  apply Vector.ext
  intro i hi
  have hpad := padded_get (loads x b).1 ⟨i, hi⟩
  have hword := imageWords_get image (byteCount image) ⟨i, hi⟩
  rw [vector_get] at hpad hword
  show (padded (loads x b).1)[i] = _
  rw [hpad, hword, hd.words, hd.byteCount_eq, Nat.mul_div_cancel_left _ (by omega)]
  by_cases hik : i < wordCount x b
  · simp [hik]
  · simp [hik]

/-- Where the CRC of the structure followed by zeros is taken for its own. -/
theorem accepted_iff (image : U8 → U16) {k : Nat} (h2 : 2 ≤ k) (hk : k < 0x24) :
    Accepted k (imageWords image (2 * k)) ↔ storedCrc image = Crc.crc32 (body image (2 * k) ++ [0, 0]) := by
  have h0 : (imageWords image (2 * k)).get 0 = image 0x1C := by
    rw [imageWords_get, if_pos (by simp; omega)]
    rfl
  have h1 : (imageWords image (2 * k)).get 1 = image 0x1D := by
    rw [imageWords_get, if_pos (by simp; omega)]
    rfl
  have hstored : (BcConfig.ofWords (imageWords image (2 * k))).crc = storedCrc image := by
    have hcrc : (BcConfig.ofWords (imageWords image (2 * k))).crc =
        (imageWords image (2 * k)).get 0 ++ (imageWords image (2 * k)).get 1 := rfl
    rw [hcrc, h0, h1]
    rfl
  unfold Accepted boardCrc
  rw [crcSpan_eq image h2 hk, crc32Input_reset, hstored]
  exact eq_comm

/-- What the property comes to, once the outcome is known. -/
theorem acceptsExactly_of_get {config config' : BcConfig} {err : IosError} {b' : Process ε}
    (h : bcGet x config b = .ok ((err, config'), b')) :
    AcceptsExactly x config image b ↔
      (err = IOS_ERROR_OK ↔ storedCrc image = Crc.crc32 (body image (byteCount image))) ∧
        (err = IOS_ERROR_OK → config' = patched (imageWords image (byteCount image))) := by
  refine ⟨?_, fun hp => ⟨err, config', b', h, hp⟩⟩
  intro hsome
  obtain ⟨err', config'', b'', h', hp⟩ := hsome
  rw [h] at h'
  cases h'
  exact hp

/-- On an image that declares 4 to 0x48 bytes, `bcGet` accepts exactly the right CRCs when
    the structure does not fill the array, and its CRC is 0xFFFFFFFF, or the stored word is
    neither its CRC nor the one of the structure and two zeros behind it. -/
theorem acceptsExactly_iff (config : BcConfig) (hopen : b.drv.status = .opened) (hd : Delivers x image b)
    (h4 : 4 ≤ byteCount image) (h48 : byteCount image ≤ 0x48) :
    AcceptsExactly x config image b ↔
      byteCount image ≠ 0x48 ∧
        (Crc.crc32 (body image (byteCount image)) = 0xFFFFFFFF ∨
          (storedCrc image ≠ Crc.crc32 (body image (byteCount image)) ∧
            storedCrc image ≠ Crc.crc32 (body image (byteCount image) ++ [0, 0]))) := by
  have hcount := hd.byteCount_eq
  rw [hcount] at h4 h48
  by_cases hfull : wordCount x b = 0x24
  · refine ⟨?_, fun h => absurd (by rw [hcount, hfull]) h.1⟩
    intro hsome
    obtain ⟨err, config', b', hget, -⟩ := hsome
    rw [bcGet_overruns hopen (Or.inr hfull)] at hget
    cases hget
  · have hlt : wordCount x b < 0x24 := by omega
    have hacc : Accepted (wordCount x b) (loadedWords x b) ↔
        storedCrc image = Crc.crc32 (body image (byteCount image) ++ [0, 0]) := by
      rw [hd.loadedWords_eq, hcount]
      exact accepted_iff image (by omega) hlt
    have hok : ((if Accepted (wordCount x b) (loadedWords x b) then IOS_ERROR_OK else IOS_ERROR_INVALID) = IOS_ERROR_OK) ↔
        storedCrc image = Crc.crc32 (body image (byteCount image) ++ [0, 0]) := by
      rw [← hacc]
      split
      · rename_i h
        exact ⟨fun _ => h, fun _ => rfl⟩
      · rename_i h
        exact ⟨fun he => absurd he (by decide), fun h' => absurd h' h⟩
    have hiff : AcceptsExactly x config image b ↔
        (storedCrc image = Crc.crc32 (body image (byteCount image) ++ [0, 0]) ↔
          storedCrc image = Crc.crc32 (body image (byteCount image))) := by
      rw [acceptsExactly_of_get (bcGet_loaded hopen (by omega) hlt config), hok, hd.loadedWords_eq]
      exact ⟨fun h => h.1, fun h => ⟨h, fun _ => rfl⟩⟩
    have hn : byteCount image ≠ 0x48 := by omega
    rw [hiff, ← crc32_zeros_iff]
    refine ⟨fun h => ⟨hn, ?_⟩, ?_⟩
    · by_cases hs : storedCrc image = Crc.crc32 (body image (byteCount image))
      · exact Or.inl ((h.mpr hs).symm.trans hs)
      · exact Or.inr ⟨hs, fun hs' => hs (h.mp hs')⟩
    · intro hboth
      obtain ⟨-, heq | ⟨hs, hs'⟩⟩ := hboth
      · rw [heq]
      · exact ⟨fun h => absurd h hs', fun h => absurd h hs⟩

/-- A structure of its CRC alone, over no bytes: `crc` at 0x1c, and the size 4. -/
def bareImage (crc : U32) : U8 → U16 := fun a =>
  if a = 0x1C then crc.extractLsb' 16 16 else if a = 0x1D then crc.extractLsb' 0 16 else if a = 0x1E then 4 else 0

/-- A whole structure, whose last word makes 0xFFFFFFFF of its CRC. -/
def wholeImage : U8 → U16 := fun a =>
  if a = 0x1C ∨ a = 0x1D then 0xFFFF else if a = 0x1E then 0x28 else if a = 0x1F then 1
  else if a = 0x2E then 0x9F29 else if a = 0x2F then 0x41F5 else 0

/-- It is accepted, as it should be. -/
theorem wholeImage_judged :
    storedCrc wholeImage = Crc.crc32 (body wholeImage (byteCount wholeImage)) ∧
      AcceptsExactly (Ext.quiet seeprom 0 0) BcConfig.zero wholeImage (seepromProcess wholeImage) := by
  have hones : Crc.crc32 (body wholeImage (byteCount wholeImage)) = 0xFFFFFFFF := by decide +kernel
  refine ⟨?_, (acceptsExactly_iff BcConfig.zero rfl (seeprom_delivers wholeImage) (by decide) (by decide)).mpr
    ⟨by decide, Or.inl hones⟩⟩
  rw [hones]
  decide

/-- The CRC of no bytes is 0; with it, the structure is turned away. -/
theorem bareImage_rejected :
    storedCrc (bareImage 0) = Crc.crc32 (body (bareImage 0) (byteCount (bareImage 0))) ∧
      ¬ AcceptsExactly (Ext.quiet seeprom 0 0) BcConfig.zero (bareImage 0) (seepromProcess (bareImage 0)) := by
  have hd := seeprom_delivers (bareImage 0)
  have hcount : wordCount (Ext.quiet seeprom 0 0) (seepromProcess (bareImage 0)) = 2 := hd.wordCount_eq
  have hright : storedCrc (bareImage 0) = Crc.crc32 (body (bareImage 0) (byteCount (bareImage 0))) := by decide +kernel
  have hspan : ¬ storedCrc (bareImage 0) = Crc.crc32 (body (bareImage 0) (2 * 2) ++ [0, 0]) := by decide +kernel
  refine ⟨hright, ?_⟩
  rw [acceptsExactly_of_get (bcGet_loaded rfl (by omega) (by omega) BcConfig.zero)]
  intro hboth
  obtain ⟨hiff, -⟩ := hboth
  have hok := hiff.mpr hright
  rw [hd.loadedWords_eq, hd.byteCount_eq, hcount, if_neg (by rwa [accepted_iff _ (by omega) (by omega)])] at hok
  exact absurd hok (by decide)

end Board

end Iosu.Bsp
