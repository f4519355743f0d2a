/-
  Iosu.Bsp.BoardAtomic — what `bcGet` leaves in `*config` when it fails.

  The driver fails a read only before it is opened. So that a read may fail anywhere,
  `bcGet` is stated over the function it reads words with (`bcGetWith`); the driver's
  gives `bcGet` itself. The structure is copied out before its CRC is looked at: a CRC
  that is wrong leaves it in `*config`, and from there in the buffer of the EE entity's
  client (`bcGet_atomic_iff`).
-/

import Iosu.Bsp.BoardWords
import Iosu.Bsp.BoardImage
import Iosu.Bsp.Ee

namespace Iosu.Bsp

open Iosu.Lib Iosu.Lib.Microwire Iosu.Entity Iosu.Ios Iosu.Eeprom Iosu.Libraries

variable {ε : Type}

/-! ## `bcGet` over its reads -/

section With

variable (read : U8 → DrvM ε (IosError × Option U16))

def callRead (addr : U8) : BspM ε (IosError × Option U16) := callDrv fun d => .ok (read addr d)

def readWordsWith : Nat → Nat → Vector U16 0x24 → BspM ε (IosError × Vector U16 0x24)
  | 0, _, data => return (IOS_ERROR_OK, data)
  | n + 1, i, data => do
    if h : i < 0x24 then
      let (err, word) ← callRead read (BitVec.ofNat 8 (i + 0x1c))
      let data := data.set i (word.getD data[i])
      if err ≠ IOS_ERROR_OK then return (err, data)
      readWordsWith n (i + 1) data
    else raise .frameIndex

def bcGetWith (config : BcConfig) : BspM ε (IosError × BcConfig) := do
  let (err, bcStructSize) ← callRead read 0x1E
  if err ≠ IOS_ERROR_OK then return (err, config)
  let bcStructSize := (bcStructSize.getD 0).toNat / 2
  if 0x24 < bcStructSize then return (IOS_ERROR_INVALID, config)
  let (err, data) ← readWordsWith read bcStructSize 0 (Vector.replicate 0x24 0)
  if err ≠ IOS_ERROR_OK then return (err, config)
  let config := BcConfig.ofWords data
  let config := if config.version = 0 then { config with ddr3Vendor := 0x5521 } else config
  let size := (BitVec.ofNat 32 (bcStructSize * 2) - 2).toNat
  if 0x48 < 4 + size then raise .frameIndex
  let (crc, value) := crc32Input crc32Reset (((wordBytes data).drop 4).take size)
  modify fun b => { b with s_crc32Value := value }
  if crc ≠ (BcConfig.ofWords data).crc then return (IOS_ERROR_INVALID, config)
  return (IOS_ERROR_OK, config)

end With

theorem readWords_eq (x : Ext ε) (n i : Nat) (data : Vector U16 0x24) :
    readWords x n i data = readWordsWith (readWord x.gpio) n i data := by
  induction n generalizing i data with
  | zero => rfl
  | succ n ih =>
    unfold readWords readWordsWith
    simp only [ih]
    rfl

theorem bcGet_eq (x : Ext ε) (config : BcConfig) : bcGet x config = bcGetWith (readWord x.gpio) config := by
  unfold bcGet bcGetWith
  simp only [readWords_eq]
  rfl

/-! ## What the reads deliver -/

section Reads

variable (read : U8 → DrvM ε (IosError × Option U16))

/-- The size in words, if it can be read. -/
def sizeRead (d : Drv ε) : Option Nat :=
  if (read 0x1E d).1.1 = IOS_ERROR_OK then some (((read 0x1E d).1.2.getD 0).toNat / 2) else none

/-- The words from the one for `data[i]` on, if none of the reads fails. -/
def wordsRead : Nat → Nat → Drv ε → Option (List U16)
  | 0, _, _ => some []
  | n + 1, i, d =>
    let addr := BitVec.ofNat 8 (i + 0x1c)
    if (read addr d).1.1 = IOS_ERROR_OK then
      (wordsRead n (i + 1) (read addr d).2).map fun ws => (read addr d).1.2.getD 0 :: ws
    else none

/-- Whatever is loaded has a CRC inside the array, that is right or guards what `config`
    is already. -/
def Harmless (config : BcConfig) (b : Process ε) : Prop :=
  ∀ n ws, sizeRead read b.drv = some n → n ≤ 0x24 → wordsRead read n 0 (read 0x1E b.drv).2 = some ws →
    n ≠ 0 ∧ n ≠ 0x24 ∧ (Accepted n (padded ws) ∨ patched (padded ws) = config)

variable {read}

theorem call_read (addr : U8) (b : Process ε) :
    callRead read addr b = .ok ((read addr b.drv).1, { b with drv := (read addr b.drv).2 }) := rfl

theorem sizeRead_eq_none {d : Drv ε} : sizeRead read d = none ↔ (read 0x1E d).1.1 ≠ IOS_ERROR_OK := by
  simp [sizeRead]

theorem sizeRead_eq_some {d : Drv ε} {n : Nat} :
    sizeRead read d = some n ↔ (read 0x1E d).1.1 = IOS_ERROR_OK ∧ ((read 0x1E d).1.2.getD 0).toNat / 2 = n := by
  simp [sizeRead]

variable (read) in
/-- The loop, over slots that are still clear. -/
theorem readWordsWith_cases (n i : Nat) (data : Vector U16 0x24) (b : Process ε) (hroom : i + n ≤ 0x24)
    (hclear : ∀ j : Fin 0x24, i ≤ j → data.get j = 0) :
    (wordsRead read n i b.drv = none ∧
      ∃ err data' b', err ≠ IOS_ERROR_OK ∧ readWordsWith read n i data b = .ok ((err, data'), b')) ∨
    ∃ ws data' b', wordsRead read n i b.drv = some ws ∧ readWordsWith read n i data b = .ok ((IOS_ERROR_OK, data'), b') ∧
      ∀ j : Fin 0x24, data'.get j = if i ≤ j then ws.getD (j - i) 0 else data.get j := by
  induction n generalizing i data b with
  | zero =>
    refine Or.inr ⟨[], data, b, rfl, rfl, fun j => ?_⟩
    split
    · rename_i hj
      exact hclear j hj
    · rfl
  | succ n ih =>
    have hi : i < 0x24 := by omega
    unfold readWordsWith wordsRead
    dsimp only
    rw [dif_pos hi, bspM_bind_ok (call_read (BitVec.ofNat 8 (i + 0x1c)) b)]
    by_cases hok : (read (BitVec.ofNat 8 (i + 0x1c)) b.drv).1.1 = IOS_ERROR_OK
    · have h0 : data[i] = 0 := hclear ⟨i, hi⟩ (Nat.le_refl i)
      rw [if_pos hok, if_neg (not_not.mpr hok), h0]
      have hclear' : ∀ j : Fin 0x24, i + 1 ≤ j →
          (data.set i ((read (BitVec.ofNat 8 (i + 0x1c)) b.drv).1.2.getD 0)).get j = 0 := by
        intro j hj
        have hne : i ≠ (j : Nat) := by omega
        have hj' := hclear j (by omega)
        rw [vector_get] at hj' ⊢
        rw [Vector.getElem_set_ne hi j.isLt hne, hj']
      rcases ih (i + 1) (data.set i ((read (BitVec.ofNat 8 (i + 0x1c)) b.drv).1.2.getD 0))
          { b with drv := (read (BitVec.ofNat 8 (i + 0x1c)) b.drv).2 } (by omega) hclear' with ⟨hnone, hrun⟩ | hsome
      · rw [hnone]
        exact Or.inl ⟨rfl, hrun⟩
      · obtain ⟨ws, data', b', hws, hrun, hget⟩ := hsome
        rw [hws]
        refine Or.inr ⟨_, data', b', rfl, hrun, fun j => ?_⟩
        rw [hget j]
        rcases Nat.lt_trichotomy i (j : Nat) with h | h | h
        · rw [if_pos (by omega), if_pos (by omega), show (j : Nat) - i = (j - (i + 1)) + 1 by omega]
          rfl
        · rw [if_neg (by omega), if_pos (by omega), show (j : Nat) - i = 0 by omega]
          simp [vector_get, ← h]
        · rw [if_neg (by omega), if_neg (by omega)]
          simp [vector_get, show i ≠ (j : Nat) by omega]
    · rw [if_neg hok, if_pos hok]
      exact Or.inl ⟨rfl, _, _, _, hok, rfl⟩

theorem bcGetWith_sizeFails {b : Process ε} (h : sizeRead read b.drv = none) (config : BcConfig) :
    ∃ err b', err ≠ IOS_ERROR_OK ∧ bcGetWith read config b = .ok ((err, config), b') := by
  have hfail := sizeRead_eq_none.mp h
  refine ⟨_, { b with drv := (read 0x1E b.drv).2 }, hfail, ?_⟩
  unfold bcGetWith
  rw [bspM_bind_ok (call_read 0x1E b)]
  dsimp only
  rw [if_pos hfail]
  rfl

/-- Behind the read of the size word. -/
theorem bcGetWith_sized {b : Process ε} {n : Nat} (h : sizeRead read b.drv = some n) (config : BcConfig) :
    bcGetWith read config b = (do
      if 0x24 < n then return (IOS_ERROR_INVALID, config)
      let (err, data) ← readWordsWith read n 0 (Vector.replicate 0x24 0)
      if err ≠ IOS_ERROR_OK then return (err, config)
      let size := (BitVec.ofNat 32 (n * 2) - 2).toNat
      if 0x48 < 4 + size then raise .frameIndex
      let (crc, value) := crc32Input crc32Reset (((wordBytes data).drop 4).take size)
      modify fun b => { b with s_crc32Value := value }
      if crc ≠ (BcConfig.ofWords data).crc then return (IOS_ERROR_INVALID, patched data)
      return (IOS_ERROR_OK, patched data) : BspM ε (IosError × BcConfig)) { b with drv := (read 0x1E b.drv).2 } := by
  obtain ⟨hok, rfl⟩ := sizeRead_eq_some.mp h
  unfold bcGetWith
  rw [bspM_bind_ok (call_read 0x1E b)]
  dsimp only
  rw [if_neg (not_not.mpr hok)]
  rfl

theorem bcGetWith_tooLong {b : Process ε} {n : Nat} (h : sizeRead read b.drv = some n) (hn : 0x24 < n) (config : BcConfig) :
    ∃ b', bcGetWith read config b = .ok ((IOS_ERROR_INVALID, config), b') := by
  rw [bcGetWith_sized h, if_pos hn]
  exact ⟨_, rfl⟩

theorem bcGetWith_readFails {b : Process ε} {n : Nat} (h : sizeRead read b.drv = some n) (hn : n ≤ 0x24)
    (hws : wordsRead read n 0 (read 0x1E b.drv).2 = none) (config : BcConfig) :
    ∃ err b', err ≠ IOS_ERROR_OK ∧ bcGetWith read config b = .ok ((err, config), b') := by
  rcases readWordsWith_cases read n 0 (Vector.replicate 0x24 0) { b with drv := (read 0x1E b.drv).2 } (by omega)
      (fun j _ => by simp [vector_get]) with ⟨-, err, data', b', herr, hrun⟩ | ⟨ws, data', b', hsome, -, -⟩
  · refine ⟨err, b', herr, ?_⟩
    rw [bcGetWith_sized h, if_neg (by omega)]
    show (readWordsWith read n 0 (Vector.replicate 0x24 0) >>= _) _ = _
    rw [bspM_bind_ok hrun]
    dsimp only
    rw [if_pos herr]
    rfl
  · rw [hws] at hsome
    cases hsome

/-- Everything is loaded: the array is the words, and zeros. -/
theorem bcGetWith_loaded {b : Process ε} {n : Nat} {ws : List U16} (h : sizeRead read b.drv = some n) (hn : n ≤ 0x24)
    (hws : wordsRead read n 0 (read 0x1E b.drv).2 = some ws) (config : BcConfig) :
    ∃ b₁ b₂, bcGetWith read config b =
      if n = 0 ∨ n = 0x24 then (raise .frameIndex : BspM ε (IosError × BcConfig)) b₁
      else .ok ((if Accepted n (padded ws) then IOS_ERROR_OK else IOS_ERROR_INVALID, patched (padded ws)), b₂) := by
  rcases readWordsWith_cases read n 0 (Vector.replicate 0x24 0) { b with drv := (read 0x1E b.drv).2 } (by omega)
      (fun j _ => by simp [vector_get]) with ⟨hnone, -⟩ | ⟨ws', data', b', hsome, hrun, hget⟩
  · rw [hws] at hnone
    cases hnone
  · obtain rfl : ws = ws' := Option.some.inj (hws.symm.trans hsome)
    have hdata : data' = padded ws := by
      apply Vector.ext
      intro j hj
      have hj' := hget ⟨j, hj⟩
      have hpad := padded_get ws ⟨j, hj⟩
      show data'.get ⟨j, hj⟩ = (padded ws).get ⟨j, hj⟩
      rw [hj', hpad]
      rfl
    refine ⟨b', { b' with s_crc32Value := (boardCrc n (padded ws)).2 }, ?_⟩
    rw [bcGetWith_sized h, if_neg (by omega)]
    show (readWordsWith read n 0 (Vector.replicate 0x24 0) >>= _) _ = _
    rw [bspM_bind_ok hrun, hdata]
    show (ite (0x48 < 4 + (BitVec.ofNat 32 (n * 2) - 2).toNat) _ _ : BspM ε (IosError × BcConfig)) _ = _
    by_cases hover : n = 0 ∨ n = 0x24
    · rw [if_pos hover, if_pos ((crcSize hn).mpr hover)]
      rfl
    · rw [if_neg hover, if_neg (by rw [crcSize hn]; exact hover), crcSize_eq (by omega) hn]
      show (ite (¬ Accepted n (padded ws)) _ _ : BspM ε (IosError × BcConfig)) _ = _
      by_cases hacc : Accepted n (padded ws)
      · rw [if_neg (not_not.mpr hacc), if_pos hacc]
        rfl
      · rw [if_pos hacc, if_neg hacc]
        rfl

end Reads

/-! ## Failing without a trace -/

/-- The call comes back; where it failed, what its pointer designates is as before. -/
def LeavesOnFailure (failed : U32 → Prop) (call : BcConfig → BspM ε (U32 × BcConfig)) (config : BcConfig)
    (b : Process ε) : Prop :=
  ∃ ret config' b', call config b = .ok ((ret, config'), b') ∧ (failed ret → config' = config)

theorem leavesOnFailure_of_run {failed : U32 → Prop} {call : BcConfig → BspM ε (U32 × BcConfig)} {config config' : BcConfig}
    {b b' : Process ε} {ret : U32} (h : call config b = .ok ((ret, config'), b')) :
    LeavesOnFailure failed call config b ↔ (failed ret → config' = config) := by
  refine ⟨?_, fun hp => ⟨ret, config', b', h, hp⟩⟩
  intro hsome
  obtain ⟨ret', config'', b'', h', hp⟩ := hsome
  rw [h] at h'
  cases h'
  exact hp

theorem not_leavesOnFailure {failed : U32 → Prop} {call : BcConfig → BspM ε (U32 × BcConfig)} {config : BcConfig}
    {b : Process ε} (h : ∀ r, call config b ≠ .ok r) : ¬ LeavesOnFailure failed call config b := by
  intro hsome
  obtain ⟨ret, config', b', hrun, -⟩ := hsome
  exact h _ hrun

theorem bcGetWith_leaves_iff (read : U8 → DrvM ε (IosError × Option U16)) (config : BcConfig) (b : Process ε) :
    LeavesOnFailure (fun err => err ≠ IOS_ERROR_OK) (bcGetWith read) config b ↔ Harmless read config b := by
  cases hsize : sizeRead read b.drv with
  | none =>
    obtain ⟨err, b', -, hrun⟩ := bcGetWith_sizeFails hsize config
    rw [leavesOnFailure_of_run hrun]
    refine ⟨fun _ n ws hsome => ?_, fun _ _ => rfl⟩
    rw [hsize] at hsome
    cases hsome
  | some n =>
    by_cases hn : n ≤ 0x24
    · cases hws : wordsRead read n 0 (read 0x1E b.drv).2 with
      | none =>
        obtain ⟨err, b', -, hrun⟩ := bcGetWith_readFails hsize hn hws config
        rw [leavesOnFailure_of_run hrun]
        refine ⟨fun _ m ws hsome _ hload => ?_, fun _ _ => rfl⟩
        obtain rfl : n = m := Option.some.inj (hsize.symm.trans hsome)
        rw [hws] at hload
        cases hload
      | some ws =>
        have hharmless : Harmless read config b ↔
            n ≠ 0 ∧ n ≠ 0x24 ∧ (Accepted n (padded ws) ∨ patched (padded ws) = config) := by
          refine ⟨fun h => h n ws hsize hn hws, fun h m ws' hsome _ hload => ?_⟩
          obtain rfl : n = m := Option.some.inj (hsize.symm.trans hsome)
          obtain rfl : ws = ws' := Option.some.inj (hws.symm.trans hload)
          exact h
        obtain ⟨b₁, b₂, hrun⟩ := bcGetWith_loaded hsize hn hws config
        rw [hharmless]
        by_cases hover : n = 0 ∨ n = 0x24
        · rw [if_pos hover] at hrun
          have hfault : ∀ r, bcGetWith read config b ≠ .ok r := by
            intro r hget
            rw [hrun] at hget
            cases hget
          exact ⟨fun h => absurd h (not_leavesOnFailure hfault), fun h => by omega⟩
        · rw [if_neg hover] at hrun
          rw [leavesOnFailure_of_run hrun]
          by_cases hacc : Accepted n (padded ws)
          · rw [if_pos hacc]
            exact ⟨fun _ => ⟨by omega, by omega, Or.inl hacc⟩, fun _ hfail => absurd rfl hfail⟩
          · rw [if_neg hacc]
            refine ⟨fun h => ⟨by omega, by omega, Or.inr (h (by decide))⟩, fun h _ => ?_⟩
            exact h.2.2.resolve_left hacc
    · obtain ⟨b', hrun⟩ := bcGetWith_tooLong hsize (by omega) config
      rw [leavesOnFailure_of_run hrun]
      refine ⟨fun _ m ws hsome hm => ?_, fun _ _ => rfl⟩
      obtain rfl : n = m := Option.some.inj (hsize.symm.trans hsome)
      exact absurd hm hn

/-- The EE entity's client is told of a failure of `bcGet`, and sees what it left. -/
theorem bc_read_leaves_iff (x : Ext ε) (inst : U32) (config : BcConfig) (b : Process ε) :
    LeavesOnFailure (fun ret => ret = BSP_RVAL_CFG_CORRUPTED) (bspEE_bc_read x inst) config b ↔
      LeavesOnFailure (fun err => err ≠ IOS_ERROR_OK) (bcGet x) config b := by
  cases hget : bcGet x config b with
  | ok r =>
    obtain ⟨⟨err, config'⟩, b'⟩ := r
    have hread : bspEE_bc_read x inst config b =
        .ok ((if err ≠ IOS_ERROR_OK then BSP_RVAL_CFG_CORRUPTED else BSP_RVAL_OK, config'), b') := by
      unfold bspEE_bc_read
      rw [bspM_bind_ok hget]
      dsimp only
      split <;> rfl
    rw [leavesOnFailure_of_run hget, leavesOnFailure_of_run hread]
    by_cases herr : err = IOS_ERROR_OK
    · rw [if_neg (not_not.mpr herr)]
      exact ⟨fun _ h => absurd herr h, fun _ h => absurd h (by decide)⟩
    · rw [if_pos herr]
      exact ⟨fun h _ => h rfl, fun h _ => h herr⟩
  | fault f =>
    have hread : bspEE_bc_read x inst config b = .fault f := by
      unfold bspEE_bc_read
      rw [bspM_bind, hget]
      rfl
    exact iff_of_false (not_leavesOnFailure (by simp [hread])) (not_leavesOnFailure (by simp [hget]))
  | spin =>
    have hread : bspEE_bc_read x inst config b = .spin := by
      unfold bspEE_bc_read
      rw [bspM_bind, hget]
      rfl
    exact iff_of_false (not_leavesOnFailure (by simp [hread])) (not_leavesOnFailure (by simp [hget]))

/-- A failure leaves `*config`, and the buffer of the EE entity's client, as they were
    exactly when nothing harmful is loaded. -/
theorem bcGet_atomic_iff (read : U8 → DrvM ε (IosError × Option U16)) (x : Ext ε) (inst : U32) (config : BcConfig)
    (b : Process ε) :
    (LeavesOnFailure (fun err => err ≠ IOS_ERROR_OK) (bcGetWith read) config b ↔ Harmless read config b) ∧
    (LeavesOnFailure (fun err => err ≠ IOS_ERROR_OK) (bcGet x) config b ↔ Harmless (readWord x.gpio) config b) ∧
    (LeavesOnFailure (fun ret => ret = BSP_RVAL_CFG_CORRUPTED) (bspEE_bc_read x inst) config b ↔
      Harmless (readWord x.gpio) config b) := by
  have hget : LeavesOnFailure (fun err => err ≠ IOS_ERROR_OK) (bcGet x) config b ↔ Harmless (readWord x.gpio) config b := by
    rw [← bcGetWith_leaves_iff, funext (bcGet_eq x)]
  exact ⟨bcGetWith_leaves_iff read config b, hget, (bc_read_leaves_iff x inst config b).trans hget⟩

/-- A structure of no bytes, with a wrong CRC, ends up in `*config`, and in the client's
    buffer, with a vendor of its own. -/
theorem bareImage_escapes :
    ¬ LeavesOnFailure (fun err => err ≠ IOS_ERROR_OK) (bcGet (Ext.quiet seeprom 0 0)) BcConfig.zero
      (seepromProcess (bareImage 0)) ∧
    ¬ LeavesOnFailure (fun ret => ret = BSP_RVAL_CFG_CORRUPTED) (bspEE_bc_read (Ext.quiet seeprom 0 0) 0) BcConfig.zero
      (seepromProcess (bareImage 0)) := by
  have hd := seeprom_delivers (bareImage 0)
  have hcount : wordCount (Ext.quiet seeprom 0 0) (seepromProcess (bareImage 0)) = 2 := hd.wordCount_eq
  have hwords : loadedWords (Ext.quiet seeprom 0 0) (seepromProcess (bareImage 0)) = imageWords (bareImage 0) 4 :=
    hd.loadedWords_eq
  have hrejected : ¬ Accepted 2 (imageWords (bareImage 0) 4) := by
    rw [accepted_iff (k := 2) (bareImage 0) (by decide) (by decide)]
    decide +kernel
  have hnot : ¬ LeavesOnFailure (fun err => err ≠ IOS_ERROR_OK) (bcGet (Ext.quiet seeprom 0 0)) BcConfig.zero
      (seepromProcess (bareImage 0)) := by
    rw [leavesOnFailure_of_run (bcGet_loaded rfl (by omega) (by omega) BcConfig.zero), hcount, hwords, if_neg hrejected]
    intro h
    have hvendor : (patched (imageWords (bareImage 0) 4)).ddr3Vendor = 0 := by rw [h (by decide)]; rfl
    exact absurd hvendor (by decide +kernel)
  exact ⟨hnot, fun h => hnot ((bc_read_leaves_iff _ _ _ _).mp h)⟩

end Iosu.Bsp
