/-
  Iosu.Bsp.Validity — the size field as the marker of a valid board configuration.

  The console queries take a size of 0 for a configuration that is missing, and
  `bspReadBoardConfig` clears the structure when it fails. The size that it leaves when
  it succeeds is the third word that was loaded: the size word read a second time, or 0
  when fewer than three words were declared (`marksBoard_iff`).
-/

import Iosu.Bsp.HwRev
import Iosu.Bsp.BoardImage

namespace Iosu.Bsp

open Iosu.Lib Iosu.Lib.Microwire Iosu.Entity Iosu.Ios Iosu.Eeprom

variable {ε : Type}

/-! ## The marker -/

/-- What the answer, the structure and the console queries say to each other. -/
structure MarksValidity (stored : U16) (ret : BspRval) (config : BcConfig) : Prop where
  marker : config.size = 0 ↔ ret ≠ BSP_RVAL_OK
  mask : (bspGetConsoleMask config).1 = BSP_RVAL_BOARD_CONFIG_INVALID ↔ ret ≠ BSP_RVAL_OK
  type : (bspGetConsoleType config).1 = BSP_RVAL_BOARD_CONFIG_INVALID ↔ ret ≠ BSP_RVAL_OK
  cleared : ret ≠ BSP_RVAL_OK → config = BcConfig.zero
  size : ret = BSP_RVAL_OK → config.size = stored

/-- `bspReadBoardConfig` comes back, with a size that marks its outcome; `stored` is the
    size word of the SEEPROM. -/
def MarksBoard (x : Ext ε) (config : BcConfig) (stored : U16) (b : Process ε) : Prop :=
  ∃ ret config' b', bspReadBoardConfig x config b = .ok ((ret, config'), b') ∧ MarksValidity stored ret config'

theorem notInvalid_of_ok {ret : BspRval × U32} (h : ret.1 = BSP_RVAL_OK) : ret.1 ≠ BSP_RVAL_BOARD_CONFIG_INVALID := by
  rw [h]
  decide

theorem consoleMask_invalid_iff (config : BcConfig) :
    (bspGetConsoleMask config).1 = BSP_RVAL_BOARD_CONFIG_INVALID ↔ config.size = 0 := by
  unfold bspGetConsoleMask
  by_cases hsize : config.size = 0
  · simp [hsize]
  · rw [if_neg hsize]
    refine ⟨fun h => ?_, fun h => absurd h hsize⟩
    refine absurd h (notInvalid_of_ok ?_)
    split
    · split <;> rfl
    · split
      · rfl
      · split <;> rfl

theorem consoleType_invalid_iff (config : BcConfig) :
    (bspGetConsoleType config).1 = BSP_RVAL_BOARD_CONFIG_INVALID ↔ config.size = 0 := by
  unfold bspGetConsoleType
  by_cases hsize : config.size = 0
  · simp [hsize]
  · rw [if_neg hsize]
    refine ⟨fun h => ?_, fun h => absurd h hsize⟩
    refine absurd h (notInvalid_of_ok ?_)
    split
    · rfl
    · split
      · rfl
      · split
        · rfl
        · split <;> rfl

theorem marksValidity_iff {stored : U16} {ret : BspRval} {config : BcConfig} :
    MarksValidity stored ret config ↔
      (config.size = 0 ↔ ret ≠ BSP_RVAL_OK) ∧ (ret ≠ BSP_RVAL_OK → config = BcConfig.zero) ∧
        (ret = BSP_RVAL_OK → config.size = stored) :=
  ⟨fun h => ⟨h.marker, h.cleared, h.size⟩, fun ⟨hmarker, hcleared, hsize⟩ =>
    ⟨hmarker, (consoleMask_invalid_iff config).trans hmarker, (consoleType_invalid_iff config).trans hmarker, hcleared, hsize⟩⟩

/-- A failure that clears the structure is marked. -/
theorem marksValidity_zero {ret : BspRval} (h : ret ≠ BSP_RVAL_OK) (stored : U16) : MarksValidity stored ret BcConfig.zero :=
  marksValidity_iff.mpr ⟨⟨fun _ => h, fun _ => rfl⟩, fun _ => rfl, fun hok => absurd hok h⟩

/-! ## `bspReadBoardConfig` -/

section Board

variable {x : Ext ε}

theorem readBoard_initFails {err : IosError} {b b₁ : Process ε} (h : bcInit x b = .ok (err, b₁)) (herr : err ≠ IOS_ERROR_OK)
    (config : BcConfig) : bspReadBoardConfig x config b = .ok ((BSP_RVAL_DEVICE_ERROR, BcConfig.zero), b₁) := by
  unfold bspReadBoardConfig
  rw [bspM_bind_ok h, if_pos herr]
  rfl

/-- Behind `bcInit`, what is left of it. -/
theorem readBoard_gets (config : BcConfig) {b b₁ : Process ε} (h : bcInit x b = .ok (IOS_ERROR_OK, b₁)) :
    bspReadBoardConfig x config b = (do
      let (err, config) ← bcGet x config
      if err ≠ IOS_ERROR_OK then return (BSP_RVAL_BOARD_CONFIG_INVALID, BcConfig.zero)
      return (BSP_RVAL_OK, config) : BspM ε (BspRval × BcConfig)) b₁ := by
  unfold bspReadBoardConfig
  rw [bspM_bind_ok h]
  rfl

theorem readBoard_getFails {err : IosError} {config' : BcConfig} {b b₁ b₂ : Process ε}
    (h : bcInit x b = .ok (IOS_ERROR_OK, b₁)) {config : BcConfig} (hget : bcGet x config b₁ = .ok ((err, config'), b₂))
    (herr : err ≠ IOS_ERROR_OK) :
    bspReadBoardConfig x config b = .ok ((BSP_RVAL_BOARD_CONFIG_INVALID, BcConfig.zero), b₂) := by
  rw [readBoard_gets config h, bspM_bind_ok hget]
  dsimp only
  rw [if_pos herr]
  rfl

theorem readBoard_getOk {config config' : BcConfig} {b b₁ b₂ : Process ε} (h : bcInit x b = .ok (IOS_ERROR_OK, b₁))
    (hget : bcGet x config b₁ = .ok ((IOS_ERROR_OK, config'), b₂)) :
    bspReadBoardConfig x config b = .ok ((BSP_RVAL_OK, config'), b₂) := by
  rw [readBoard_gets config h, bspM_bind_ok hget]
  rfl

theorem readBoard_overruns (config : BcConfig) {b b₁ : Process ε} (h : bcInit x b = .ok (IOS_ERROR_OK, b₁))
    (hget : bcGet x config b₁ = .fault .frameIndex) : bspReadBoardConfig x config b = .fault .frameIndex := by
  rw [readBoard_gets config h, bspM_bind, hget]
  rfl

/-- `bcInit` comes back, and leaves the version that was detected. -/
theorem bcInit_returns (x : Ext ε) (b : Process ε) :
    ∃ err b₁, bcInit x b = .ok (err, b₁) ∧ b₁.bspHardwareVersion = b.bspHardwareVersion := by
  obtain ⟨b₀, ⟨handle, log, env, rfl⟩, heq⟩ := bcInit_eq x b
  rw [heq]
  cases hinit : b.bc_initialised with
  | true => exact ⟨_, _, bcOpen_again hinit, rfl⟩
  | false =>
    by_cases hok : x.gpio.AllOk lowerScript env
    · exact ⟨_, _, bcOpen_opens hinit hok, rfl⟩
    · obtain ⟨err, -, hfail⟩ := bcOpen_fails (x := x) (b := { b.logged log env with bc_log_handle := handle }) hinit hok
      exact ⟨err, _, hfail, rfl⟩

/-- `bcInit` succeeds and leaves an open driver: `bcGet` reads from `b₁`. -/
def GetsFrom (x : Ext ε) (b b₁ : Process ε) : Prop := bcInit x b = .ok (IOS_ERROR_OK, b₁) ∧ b₁.drv.status = .opened

theorem GetsFrom.unique {b b₁ b₂ : Process ε} (h₁ : GetsFrom x b b₁) (h₂ : GetsFrom x b b₂) : b₁ = b₂ := by
  have heq := h₁.1.symm.trans h₂.1
  cases heq
  rfl

/-- The CRC of the board configuration is asked for bytes outside the array. -/
def Overruns (x : Ext ε) (b : Process ε) : Prop :=
  ∃ b₁, GetsFrom x b b₁ ∧ (wordCount x b₁ = 0 ∨ wordCount x b₁ = 0x24)

/-- The words that `bcGet` loads are accepted. -/
def Loads (x : Ext ε) (b b₁ : Process ε) : Prop :=
  GetsFrom x b b₁ ∧ 0 < wordCount x b₁ ∧ wordCount x b₁ < 0x24 ∧ Accepted (wordCount x b₁) (loadedWords x b₁)

theorem Loads.not_overruns {b b₁ : Process ε} (h : Loads x b b₁) : ¬ Overruns x b := by
  intro hsome
  obtain ⟨b₂, hfrom, hcount⟩ := hsome
  have hlt := h.2
  rw [hfrom.unique h.1] at hcount
  omega

/-- Where `bcGet` is not reached, nothing is loaded. -/
theorem getsFrom_none {x : Ext ε} {b : Process ε} (h : ∀ b₁, ¬ GetsFrom x b b₁) :
    ¬ Overruns x b ∧ ∀ b₁, ¬ Loads x b b₁ := by
  refine ⟨?_, fun b₁ hloads => h b₁ hloads.1⟩
  intro hover
  obtain ⟨b₁, hfrom, -⟩ := hover
  exact h b₁ hfrom

/-- The three outcomes of `bspReadBoardConfig`. -/
theorem readBoard_cases (x : Ext ε) (config : BcConfig) (b : Process ε) :
    (Overruns x b ∧ bspReadBoardConfig x config b = .fault .frameIndex) ∨
    (¬ Overruns x b ∧ (∀ b₁, ¬ Loads x b b₁) ∧ ∃ ret b', ret ≠ BSP_RVAL_OK ∧
      bspReadBoardConfig x config b = .ok ((ret, BcConfig.zero), b') ∧ b'.bspHardwareVersion = b.bspHardwareVersion) ∨
    (¬ Overruns x b ∧ ∃ b₁ b', Loads x b b₁ ∧
      bspReadBoardConfig x config b = .ok ((BSP_RVAL_OK, patched (loadedWords x b₁)), b') ∧
      b'.bspHardwareVersion = b.bspHardwareVersion) := by
  obtain ⟨err, b₁, hinit, hver⟩ := bcInit_returns x b
  by_cases herr : err = IOS_ERROR_OK
  · subst herr
    by_cases hopen : b₁.drv.status = .opened
    · have hfrom : GetsFrom x b b₁ := ⟨hinit, hopen⟩
      by_cases hover : wordCount x b₁ = 0 ∨ wordCount x b₁ = 0x24
      · exact Or.inl ⟨⟨b₁, hfrom, hover⟩, readBoard_overruns config hinit (bcGet_overruns hopen hover config)⟩
      have hno : ¬ Overruns x b := by
        intro hsome
        obtain ⟨b₂, hfrom', hover'⟩ := hsome
        rw [hfrom'.unique hfrom] at hover'
        exact hover hover'
      have hloads : ∀ b₂, Loads x b b₂ → wordCount x b₁ < 0x24 ∧ Accepted (wordCount x b₁) (loadedWords x b₁) := by
        intro b₂ hb₂
        obtain ⟨hfrom', -, hlt, hacc⟩ := hb₂
        rw [hfrom'.unique hfrom] at hlt hacc
        exact ⟨hlt, hacc⟩
      by_cases hlong : 0x24 < wordCount x b₁
      · refine Or.inr (Or.inl ⟨hno, fun b₂ h => ?_, _, _, by decide,
          readBoard_getFails hinit (bcGet_tooLong hopen hlong config) (by decide), hver⟩)
        have := (hloads b₂ h).1
        omega
      have hget := bcGet_loaded (x := x) hopen (by omega) (by omega) config
      by_cases hacc : Accepted (wordCount x b₁) (loadedWords x b₁)
      · rw [if_pos hacc] at hget
        exact Or.inr (Or.inr ⟨hno, b₁, _, ⟨hfrom, by omega, by omega, hacc⟩, readBoard_getOk hinit hget, hver⟩)
      · rw [if_neg hacc] at hget
        exact Or.inr (Or.inl ⟨hno, fun b₂ h => hacc (hloads b₂ h).2, _, _, by decide,
          readBoard_getFails hinit hget (by decide), hver⟩)
    · have hnone : ∀ b₂, ¬ GetsFrom x b b₂ := by
        intro b₂ hfrom
        obtain ⟨hinit', hopen'⟩ := hfrom
        rw [hinit] at hinit'
        cases hinit'
        exact hopen hopen'
      exact Or.inr (Or.inl ⟨(getsFrom_none hnone).1, (getsFrom_none hnone).2, _, _, by decide,
        readBoard_getFails hinit (bcGet_notReady hopen config) (by decide), hver⟩)
  · have hnone : ∀ b₂, ¬ GetsFrom x b b₂ := by
      intro b₂ hfrom
      obtain ⟨hinit', -⟩ := hfrom
      rw [hinit] at hinit'
      cases hinit'
      exact herr rfl
    exact Or.inr (Or.inl ⟨(getsFrom_none hnone).1, (getsFrom_none hnone).2, _, _, by decide,
      readBoard_initFails hinit herr config, hver⟩)

theorem marksBoard_of_read {config config' : BcConfig} {ret : BspRval} {b b' : Process ε} (stored : U16)
    (h : bspReadBoardConfig x config b = .ok ((ret, config'), b')) :
    MarksBoard x config stored b ↔ MarksValidity stored ret config' := by
  refine ⟨?_, fun hp => ⟨ret, config', b', h, hp⟩⟩
  intro hsome
  obtain ⟨ret', config'', b'', h', hp⟩ := hsome
  rw [h] at h'
  cases h'
  exact hp

theorem patched_size (data : Vector U16 0x24) : (patched data).size = data.get 2 := by
  unfold patched
  split <;> rfl

/-- The third word of the array: the size word as it was loaded. -/
theorem loadedWords_size (b : Process ε) :
    (loadedWords x b).get 2 = if 3 ≤ wordCount x b then (loads x b).1.getD 2 0 else 0 := by
  have hlen : (loads x b).1.length = wordCount x b := deliveredFrom_length _ _ _ _
  unfold loadedWords
  rw [padded_get]
  split
  · rfl
  · have hout : (loads x b).1.length ≤ 2 := by omega
    simp [hout]

/-- When the size marks the outcome: when the CRC stays inside the array, and the
    structure, if it is accepted, declares three words or more, the third of which was
    delivered as it is stored, and is not 0. -/
theorem marksBoard_iff (x : Ext ε) (config : BcConfig) (stored : U16) (b : Process ε) :
    MarksBoard x config stored b ↔
      ¬ Overruns x b ∧ ∀ b₁, Loads x b b₁ → 3 ≤ wordCount x b₁ ∧ (loads x b₁).1.getD 2 0 = stored ∧ stored ≠ 0 := by
  rcases readBoard_cases x config b with
    ⟨hover, hread⟩ | ⟨hno, hnone, ret, b', hret, hread, -⟩ | ⟨hno, b₁, b', hloads, hread, -⟩
  · refine ⟨?_, fun h => absurd hover h.1⟩
    intro hsome
    obtain ⟨ret, config', b', h, -⟩ := hsome
    rw [hread] at h
    cases h
  · rw [marksBoard_of_read stored hread]
    exact ⟨fun _ => ⟨hno, fun b₁ h => absurd h (hnone b₁)⟩, fun _ => marksValidity_zero hret stored⟩
  · rw [marksBoard_of_read stored hread, marksValidity_iff, patched_size, loadedWords_size]
    refine ⟨?_, ?_⟩
    · intro hboth
      obtain ⟨hmarker, -, hsize⟩ := hboth
      refine ⟨hno, fun b₂ h => ?_⟩
      rw [h.1.unique hloads.1]
      have hnz := mt hmarker.mp (not_not.mpr rfl)
      by_cases h3 : 3 ≤ wordCount x b₁
      · rw [if_pos h3] at hnz hsize
        exact ⟨h3, hsize rfl, hsize rfl ▸ hnz⟩
      · rw [if_neg h3] at hnz
        exact absurd rfl hnz
    · intro hboth
      obtain ⟨-, h⟩ := hboth
      obtain ⟨h3, hword, hnz⟩ := h b₁ hloads
      rw [if_pos h3, hword]
      exact ⟨⟨fun h0 => absurd h0 hnz, fun hno' => absurd rfl hno'⟩, fun hno' => absurd rfl hno', fun _ => rfl⟩

/-- A SEEPROM behind `bcInit`. -/
def boardProcess (image : U8 → U16) : Process Device := { seepromProcess image with bc_initialised := true }

/-- Whatever the chip registers show, its words are delivered. -/
theorem board_delivers (hwChiprevid ltChiprevid : U32) (image : U8 → U16) :
    ∃ b₁, GetsFrom (Ext.quiet seeprom hwChiprevid ltChiprevid) (boardProcess image) b₁ ∧
      Delivers (Ext.quiet seeprom hwChiprevid ltChiprevid) image b₁ := by
  obtain ⟨b₁, hinit, hdrv⟩ : ∃ b₁, bcInit (Ext.quiet seeprom hwChiprevid ltChiprevid) (boardProcess image) =
      .ok (IOS_ERROR_OK, b₁) ∧ b₁.drv = (seepromProcess image).drv := ⟨_, rfl, rfl⟩
  have hopen : b₁.drv.status = .opened := by
    rw [hdrv]
    rfl
  have hrest : (id b₁.drv.env).AtRest := by
    rw [hdrv]
    exact Device.fresh_atRest image false
  have hmem : (id b₁.drv.env).store.mem = image := by
    rw [hdrv]
    rfl
  have hatt := @delivers_attached Device (Ext.quiet seeprom hwChiprevid ltChiprevid) id seeprom_attached b₁
    hopen hrest
  rw [hmem] at hatt
  exact ⟨b₁, ⟨hinit, hopen⟩, hatt⟩

/-- The size word 2, and zeros: one word is loaded, and the CRC of no bytes is the 0 that
    stands for it. -/
def tinyImage : U8 → U16 := fun a => if a = 0x1E then 2 else 0

theorem tinyImage_loads (hwChiprevid ltChiprevid : U32) :
    ∃ b₁, Loads (Ext.quiet seeprom hwChiprevid ltChiprevid) (boardProcess tinyImage) b₁ ∧
      loadedWords (Ext.quiet seeprom hwChiprevid ltChiprevid) b₁ = imageWords tinyImage 2 := by
  obtain ⟨b₁, hfrom, hd⟩ := board_delivers hwChiprevid ltChiprevid tinyImage
  have hcount : wordCount (Ext.quiet seeprom hwChiprevid ltChiprevid) b₁ = 1 := hd.wordCount_eq
  have hwords : loadedWords (Ext.quiet seeprom hwChiprevid ltChiprevid) b₁ = imageWords tinyImage 2 := by
    rw [hd.loadedWords_eq, hd.byteCount_eq, hcount]
  refine ⟨b₁, ⟨hfrom, by omega, by omega, ?_⟩, hwords⟩
  rw [hwords, hcount]
  decide +kernel

/-- A structure of one word is accepted, with a size of 0. -/
theorem tinyImage_unmarked :
    ¬ MarksBoard (Ext.quiet seeprom 0 0) BcConfig.zero (tinyImage 0x1E) (boardProcess tinyImage) := by
  obtain ⟨b₁, hloads, hwords⟩ := tinyImage_loads 0 0
  have hsize : (patched (imageWords tinyImage 2)).size = 0 := by
    rw [patched_size, imageWords_get]
    rfl
  rcases readBoard_cases (Ext.quiet seeprom 0 0) BcConfig.zero (boardProcess tinyImage) with
    ⟨hover, hread⟩ | ⟨-, hnone, -⟩ | ⟨-, b₂, b', hloads', hread, -⟩
  · intro hsome
    obtain ⟨ret, config', b', h, -⟩ := hsome
    rw [hread] at h
    cases h
  · exact absurd hloads (hnone b₁)
  · rw [hloads'.1.unique hloads.1, hwords] at hread
    rw [marksBoard_of_read _ hread]
    exact fun h => h.marker.mp hsize rfl

end Board

end Iosu.Bsp
