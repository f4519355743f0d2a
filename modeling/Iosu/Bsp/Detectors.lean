/-
  Iosu.Bsp.Detectors — the two detectors side by side.

  From a version that is not yet known, `InitASICVersion` and
  `bspMethodGetHardwareVersion` turn the same registers away, and find the same family
  and revision in the others. They part where the second goes on to the board
  configuration of a Latte: reading that can run over its array (`agrees_iff`), and a
  board type that is not listed leaves a Latte without a variant (`wellFormed_iff`).
-/

import Iosu.Bsp.Versions

namespace Iosu.Bsp

open Iosu.Lib Iosu.Lib.Microwire Iosu.Entity Iosu.Ios Iosu.Eeprom

variable {ε : Type}

section Runs

variable {x : Ext ε} {b : Process ε}

/-- No register shows a Latte: the Wood's version stands. -/
theorem wood_stands {fullCheck : Bool} {version upper : U32} {b' : Process ε} (h : ¬ latteDetected x b.drv.env)
    (hrev : woodRevision (verlo x b.drv.env) = some upper) (hupper : version >>> 16 = upper)
    (hwood : determineWoodBasedHardwareVersion x fullCheck b = .ok ((BSP_RVAL_OK, version), b')) :
    version ≠ BSP_HARDWARE_VERSION_BOLLYWOOD_PROD_FOR_WII ∨ (b' = b ∧ ¬ latteChip x b.drv.env) := by
  by_cases hv : version = BSP_HARDWARE_VERSION_BOLLYWOOD_PROD_FOR_WII
  · have h21 : verlo x b.drv.env = 0x21 := by
      rw [← woodRevision_bollywood, hrev, ← hupper, hv]
      rfl
    refine Or.inr ⟨?_, fun hchip => h ⟨h21, hchip⟩⟩
    rw [wood_bollywood h21] at hwood
    cases hwood
    rfl
  · exact Or.inl hv

/-- So where both detectors go on to the Latte's registers, they find none. -/
theorem wood_noLatte {fullCheck : Bool} {version upper : U32} {b' : Process ε} (h : ¬ latteDetected x b.drv.env)
    (hrev : woodRevision (verlo x b.drv.env) = some upper) (hupper : version >>> 16 = upper)
    (hwood : determineWoodBasedHardwareVersion x fullCheck b = .ok ((BSP_RVAL_OK, version), b'))
    (hv : version = BSP_HARDWARE_VERSION_BOLLYWOOD_PROD_FOR_WII) :
    determineLatteBasedHardwareVersion x version b' = .ok ((BSP_RVAL_UNKNOWN_HARDWARE_VERSION, version), b') := by
  obtain ⟨rfl, hchip⟩ := (wood_stands h hrev hupper hwood).resolve_left (not_not.mpr hv)
  exact latte_none hchip version

/-! ## `InitASICVersion` -/

theorem initASIC_unknown (h0 : b.bspHardwareVersion = 0) (hrev : woodRevision (verlo x b.drv.env) = none) :
    InitASICVersion x b = .ok ((BSP_RVAL_UNKNOWN_HARDWARE_VERSION, BSP_HARDWARE_VERSION_UNKNOWN), b) := by
  unfold InitASICVersion
  rw [bspM_bind_ok (bspM_get b)]
  dsimp only
  rw [if_neg (not_not.mpr h0), bspM_bind_ok (wood_unknown hrev false)]
  rfl

theorem initASIC_wood (h0 : b.bspHardwareVersion = 0) {upper : U32} (hrev : woodRevision (verlo x b.drv.env) = some upper)
    (h : ¬ latteDetected x b.drv.env) :
    ∃ version b', InitASICVersion x b = .ok ((BSP_RVAL_OK, version), b') ∧ version ∈ woodVersions ∧
      version >>> 16 = upper ∧ OnlyDetects b b' := by
  obtain ⟨version, b', hwood, hmem, hupper, hb'⟩ := wood_known hrev false
  refine ⟨version, b', ?_, hmem, hupper, hb'⟩
  unfold InitASICVersion
  rw [bspM_bind_ok (bspM_get b)]
  dsimp only
  rw [if_neg (not_not.mpr h0), bspM_bind_ok hwood]
  dsimp only
  rw [if_neg (by decide)]
  by_cases hv : version = BSP_HARDWARE_VERSION_BOLLYWOOD_PROD_FOR_WII
  · rw [if_pos hv, bspM_bind_ok (wood_noLatte h hrev hupper hwood hv)]
    rfl
  · rw [if_neg hv]
    rfl

theorem initASIC_latte (h0 : b.bspHardwareVersion = 0) (h : latteDetected x b.drv.env) :
    InitASICVersion x b = .ok ((BSP_RVAL_OK, latteVersion x b.drv.env ||| 0x11), b) := by
  unfold InitASICVersion
  rw [bspM_bind_ok (bspM_get b)]
  dsimp only
  rw [if_neg (not_not.mpr h0), bspM_bind_ok (wood_bollywood h.1 false)]
  dsimp only
  rw [if_neg (by decide), if_pos rfl, bspM_bind_ok (latte_found h.2 _)]
  dsimp only
  rw [if_pos (by decide), latteVersion_masked]
  rfl

/-! ## `bspMethodGetHardwareVersion` -/

theorem method_cached (h : b.bspHardwareVersion ≠ 0) :
    bspMethodGetHardwareVersion x b = .ok ((BSP_RVAL_OK, b.bspHardwareVersion), b) := by
  unfold bspMethodGetHardwareVersion
  rw [bspM_bind_ok (bspM_get b)]
  dsimp only
  rw [if_pos h]
  rfl

theorem method_unknown (h0 : b.bspHardwareVersion = 0) (hrev : woodRevision (verlo x b.drv.env) = none) :
    bspMethodGetHardwareVersion x b = .ok ((BSP_RVAL_UNKNOWN_HARDWARE_VERSION, BSP_HARDWARE_VERSION_UNKNOWN), b) := by
  unfold bspMethodGetHardwareVersion
  rw [bspM_bind_ok (bspM_get b)]
  dsimp only
  rw [if_neg (not_not.mpr h0), bspM_bind_ok (wood_unknown hrev true)]
  rfl

theorem method_wood (h0 : b.bspHardwareVersion = 0) {upper : U32} (hrev : woodRevision (verlo x b.drv.env) = some upper)
    (h : ¬ latteDetected x b.drv.env) :
    ∃ version b', bspMethodGetHardwareVersion x b =
        .ok ((BSP_RVAL_OK, version), { b' with bspHardwareVersion := version }) ∧ version ∈ woodVersions ∧
      version >>> 16 = upper ∧ OnlyDetects b b' := by
  obtain ⟨version, b', hwood, hmem, hupper, hb'⟩ := wood_known hrev true
  refine ⟨version, b', ?_, hmem, hupper, hb'⟩
  unfold bspMethodGetHardwareVersion
  rw [bspM_bind_ok (bspM_get b)]
  dsimp only
  rw [if_neg (not_not.mpr h0), bspM_bind_ok hwood]
  dsimp only
  rw [if_neg (by decide)]
  by_cases hv : version = BSP_HARDWARE_VERSION_BOLLYWOOD_PROD_FOR_WII
  · rw [if_pos hv, bspM_bind_ok (wood_noLatte h hrev hupper hwood hv)]
    rfl
  · rw [if_neg hv]
    rfl

/-- A version that it found is a Wood's. -/
theorem method_wood_ok (h0 : b.bspHardwareVersion = 0) (hlatte : ¬ latteDetected x b.drv.env) {version : U32} {b' : Process ε}
    (h : bspMethodGetHardwareVersion x b = .ok ((BSP_RVAL_OK, version), b')) :
    version ∈ woodVersions ∧ b'.bspHardwareVersion = version := by
  cases hrev : woodRevision (verlo x b.drv.env) with
  | none =>
    rw [method_unknown h0 hrev] at h
    cases h
  | some upper =>
    obtain ⟨version', b₁, hmethod, hmem, -, -⟩ := method_wood h0 hrev hlatte
    rw [hmethod] at h
    cases h
    exact ⟨hmem, rfl⟩

/-- The variant bits of a Latte, by the outcome of `bspReadBoardConfig`. -/
def variantOf (ret : BspRval) (config : BcConfig) : U32 :=
  if ret ≠ BSP_RVAL_OK then BSP_VARIANT_EV_Y else boardVariant config.boardType

/-- On a Latte, what is left to do is to read the board configuration. -/
theorem method_latte (h0 : b.bspHardwareVersion = 0) (h : latteDetected x b.drv.env) :
    bspMethodGetHardwareVersion x b = (do
      let (ret, config) ← bspReadBoardConfig x b.bspBoardConfig
      modify fun b => { b with bspBoardConfig := config }
      let version := if ret ≠ BSP_RVAL_OK then latteVersion x b.drv.env ||| BSP_VARIANT_EV_Y
        else latteVersion x b.drv.env ||| boardVariant config.boardType
      modify fun b => { b with bspHardwareVersion := version }
      return (BSP_RVAL_OK, version) : BspM ε (BspRval × U32)) b := by
  unfold bspMethodGetHardwareVersion
  rw [bspM_bind_ok (bspM_get b)]
  dsimp only
  rw [if_neg (not_not.mpr h0), bspM_bind_ok (wood_bollywood h.1 true)]
  dsimp only
  rw [if_neg (by decide), if_pos rfl, bspM_bind_ok (latte_found h.2 _)]
  dsimp only
  rw [if_neg (by decide), latteVersion_masked, bspM_bind_ok (bspM_get b)]

theorem method_latte_read (h0 : b.bspHardwareVersion = 0) (h : latteDetected x b.drv.env) {ret : BspRval} {config : BcConfig}
    {b' : Process ε} (hread : bspReadBoardConfig x b.bspBoardConfig b = .ok ((ret, config), b')) :
    bspMethodGetHardwareVersion x b =
      .ok ((BSP_RVAL_OK, latteVersion x b.drv.env ||| variantOf ret config),
        { b' with bspBoardConfig := config, bspHardwareVersion := latteVersion x b.drv.env ||| variantOf ret config }) := by
  rw [method_latte h0 h, bspM_bind_ok hread]
  unfold variantOf
  by_cases hret : ret ≠ BSP_RVAL_OK
  · simp only [if_pos hret]
    rfl
  · simp only [if_neg hret]
    rfl

theorem method_latte_fault (h0 : b.bspHardwareVersion = 0) (h : latteDetected x b.drv.env) {f : Fault}
    (hread : bspReadBoardConfig x b.bspBoardConfig b = .fault f) : bspMethodGetHardwareVersion x b = .fault f := by
  rw [method_latte h0 h, bspM_bind, hread]
  rfl

end Runs

/-! ## Agreement -/

/-- What the outcomes of the two have to do with each other. -/
structure Agreement (ret₁ : BspRval) (version₁ : U32) (b₁ : Process ε) (ret₂ : BspRval) (version₂ : U32) (b₂ : Process ε) :
    Prop where
  success : ret₁ = BSP_RVAL_OK ↔ ret₂ = BSP_RVAL_OK
  upper : ret₁ = BSP_RVAL_OK → version₁ >>> 16 = version₂ >>> 16
  /-- What is stored into the cache, or left there. -/
  failedInit : ret₁ ≠ BSP_RVAL_OK → version₁ = 0 ∧ b₁.bspHardwareVersion = 0
  failedMethod : ret₂ ≠ BSP_RVAL_OK → version₂ = 0 ∧ b₂.bspHardwareVersion = 0
  /-- As long as the cache is left alone, it is all that later calls look at. -/
  stable : ret₂ = BSP_RVAL_OK → ∀ (x' : Ext ε) (b' : Process ε), b'.bspHardwareVersion = b₂.bspHardwareVersion →
    bspMethodGetHardwareVersion x' b' = .ok ((BSP_RVAL_OK, version₂), b')

def Agrees (x : Ext ε) (b : Process ε) : Prop :=
  ∃ ret₁ version₁ b₁ ret₂ version₂ b₂, InitASICVersion x b = .ok ((ret₁, version₁), b₁) ∧
    bspMethodGetHardwareVersion x b = .ok ((ret₂, version₂), b₂) ∧ Agreement ret₁ version₁ b₁ ret₂ version₂ b₂

section Agreement

variable {x : Ext ε} {b : Process ε}

theorem method_stable {version : U32} {b₂ : Process ε} (hver : b₂.bspHardwareVersion = version) (hne : version ≠ 0)
    (x' : Ext ε) (b' : Process ε) (hb' : b'.bspHardwareVersion = b₂.bspHardwareVersion) :
    bspMethodGetHardwareVersion x' b' = .ok ((BSP_RVAL_OK, version), b') := by
  have hcache : b'.bspHardwareVersion = version := hb'.trans hver
  have hcached := method_cached (x := x') (b := b') (by rw [hcache]; exact hne)
  rw [hcache] at hcached
  exact hcached

theorem woodVersions_ne_zero {version : U32} (h : version ∈ woodVersions) : version ≠ 0 := by
  have hall : (woodVersions.all fun v => decide (v ≠ 0)) = true := by decide
  exact of_decide_eq_true (List.all_eq_true.mp hall version h)

theorem variantOf_upper (ret : BspRval) (config : BcConfig) : variantOf ret config >>> 16 = 0 := by
  unfold variantOf boardVariant
  split
  · rfl
  split
  · rfl
  split
  · rfl
  split
  · rfl
  split
  · rfl
  split
  · rfl
  · rfl

/-- The lower bits do not reach the family and revision. -/
theorem latteVersion_upper (env : ε) {low : U32} (h : low >>> 16 = 0) :
    (latteVersion x env ||| low) >>> 16 = latteVersion x env >>> 16 := by
  rw [BitVec.ushiftRight_or_distrib, h]
  exact BitVec.or_zero

theorem latteVersion_ne_zero (env : ε) {low : U32} (h : low >>> 16 = 0) : latteVersion x env ||| low ≠ 0 := by
  intro hzero
  have hupper := latteVersion_upper (x := x) env h
  rw [hzero] at hupper
  refine latteVersion_cases (x := x) (fun v => 0 >>> 16 ≠ v >>> 16) ?_ env hupper
  intro v hv
  rcases hv with rfl | rfl | rfl | rfl | rfl | rfl | rfl
  all_goals decide

/-- A version that is answered is in the cache. -/
theorem method_caches {version : U32} {b' : Process ε}
    (h : bspMethodGetHardwareVersion x b = .ok ((BSP_RVAL_OK, version), b')) :
    b'.bspHardwareVersion = version ∧ version ≠ 0 := by
  by_cases h0 : b.bspHardwareVersion = 0
  · by_cases hlatte : latteDetected x b.drv.env
    · rcases readBoard_cases x b.bspBoardConfig b with ⟨-, hread⟩ | hread
      · rw [method_latte_fault h0 hlatte hread] at h
        cases h
      · obtain ⟨ret, config, b₁, hread⟩ :
            ∃ ret config b₁, bspReadBoardConfig x b.bspBoardConfig b = .ok ((ret, config), b₁) := by
          rcases hread with ⟨-, -, ret, b₁, -, hread, -⟩ | ⟨-, b₀, b₁, -, hread, -⟩
          · exact ⟨_, _, _, hread⟩
          · exact ⟨_, _, _, hread⟩
        rw [method_latte_read h0 hlatte hread] at h
        cases h
        exact ⟨rfl, latteVersion_ne_zero _ (variantOf_upper ret config)⟩
    · obtain ⟨hmem, hcached⟩ := method_wood_ok h0 hlatte h
      exact ⟨hcached, woodVersions_ne_zero hmem⟩
  · rw [method_cached h0] at h
    cases h
    exact ⟨rfl, h0⟩

/-- From a version that is not known, the detectors agree exactly when the registers show
    no Latte, or reading its board configuration stays inside the array. -/
theorem agrees_iff (h0 : b.bspHardwareVersion = 0) : Agrees x b ↔ (latteDetected x b.drv.env → ¬ Overruns x b) := by
  by_cases hlatte : latteDetected x b.drv.env
  · rcases readBoard_cases x b.bspBoardConfig b with ⟨hover, hread⟩ | hread
    · refine ⟨?_, fun h => absurd hover (h hlatte)⟩
      intro hsome
      obtain ⟨ret₁, version₁, b₁, ret₂, version₂, b₂, -, hmethod, -⟩ := hsome
      rw [method_latte_fault h0 hlatte hread] at hmethod
      cases hmethod
    · obtain ⟨hno, ret, config, b', hread⟩ :
          ¬ Overruns x b ∧ ∃ ret config b', bspReadBoardConfig x b.bspBoardConfig b = .ok ((ret, config), b') := by
        rcases hread with ⟨hno, -, ret, b', -, hread, -⟩ | ⟨hno, b₁, b', -, hread, -⟩
        · exact ⟨hno, _, _, _, hread⟩
        · exact ⟨hno, _, _, _, hread⟩
      refine ⟨fun _ _ => hno, fun _ => ⟨_, _, _, _, _, _, initASIC_latte h0 hlatte, method_latte_read h0 hlatte hread, ?_⟩⟩
      exact {
        success := Iff.rfl
        upper := fun _ => by
          rw [latteVersion_upper _ (by decide), latteVersion_upper _ (variantOf_upper ret config)]
        failedInit := fun hno' => absurd rfl hno'
        failedMethod := fun hno' => absurd rfl hno'
        stable := fun _ => method_stable rfl (latteVersion_ne_zero _ (variantOf_upper ret config)) }
  · refine ⟨fun _ h => absurd h hlatte, fun _ => ?_⟩
    cases hrev : woodRevision (verlo x b.drv.env) with
    | none =>
      refine ⟨_, _, _, _, _, _, initASIC_unknown h0 hrev, method_unknown h0 hrev, ?_⟩
      exact {
        success := Iff.rfl
        upper := fun hok => absurd hok (by decide)
        failedInit := fun _ => ⟨rfl, h0⟩
        failedMethod := fun _ => ⟨rfl, h0⟩
        stable := fun hok => absurd hok (by decide) }
    | some upper =>
      obtain ⟨version₁, b₁, hinit, -, hupper₁, -⟩ := initASIC_wood h0 hrev hlatte
      obtain ⟨version₂, b₂, hmethod, hmem, hupper₂, -⟩ := method_wood h0 hrev hlatte
      refine ⟨_, _, _, _, _, _, hinit, hmethod, ?_⟩
      exact {
        success := Iff.rfl
        upper := fun _ => hupper₁.trans hupper₂.symm
        failedInit := fun hno => absurd rfl hno
        failedMethod := fun hno => absurd rfl hno
        stable := fun _ => method_stable rfl (woodVersions_ne_zero hmem) }

/-- A Latte whose board configuration is one word. -/
theorem tinyBoard_agrees : Agrees (Ext.quiet seeprom 0x21 0xCAFE0010) (boardProcess tinyImage) := by
  refine (agrees_iff rfl).mpr fun _ => ?_
  obtain ⟨b₁, hloads, -⟩ := tinyImage_loads 0x21 0xCAFE0010
  exact hloads.not_overruns

/-- A Latte with a SEEPROM of zeros: only the first detector comes back. -/
theorem emptyBoard_disagrees : ¬ Agrees (Ext.quiet seeprom 0x21 0xCAFE0010) (boardProcess fun _ => 0) := by
  have hlatte : latteDetected (Ext.quiet seeprom 0x21 0xCAFE0010) (boardProcess fun _ => 0).drv.env := ⟨rfl, rfl⟩
  obtain ⟨b₁, hfrom, hd⟩ := board_delivers 0x21 0xCAFE0010 fun _ => 0
  have hread := readBoard_overruns BcConfig.zero hfrom.1 (bcGet_overruns hfrom.2 (Or.inl hd.wordCount_eq) _)
  intro hsome
  obtain ⟨ret₁, version₁, b₁, ret₂, version₂, b₂, -, hmethod, -⟩ := hsome
  rw [method_latte_fault rfl hlatte hread] at hmethod
  cases hmethod

end Agreement

/-! ## Well-formed versions -/

/-- `enum BSP_VARIANTS`. -/
def BSP_VARIANTS : List U32 :=
  [BSP_VARIANT_EV, BSP_VARIANT_EV_Y, BSP_VARIANT_CAT, BSP_VARIANT_ID, BSP_VARIANT_CAFE, BSP_VARIANT_IH]

/-- Of one family, and if that is the Latte's, of a variant that is listed. -/
def WellFormedVersion (hwver : U32) : Prop :=
  [BSP_IS_LATTE hwver, BSP_IS_BOLLYWOOD hwver, BSP_IS_HOLLYWOOD hwver, BSP_IS_HOLLYWOOD_ES1 hwver].count true = 1 ∧
    (BSP_IS_LATTE hwver = true → BSP_GET_VARIANT hwver ∈ BSP_VARIANTS)

instance (hwver : U32) : Decidable (WellFormedVersion hwver) := inferInstanceAs (Decidable (_ ∧ (_ → _)))

/-- The board types that the switch lists: "CF", "CT", "EV", "ID", "IH". -/
def boardTypes : List U16 := [0x4346, 0x4354, 0x4556, 0x4944, 0x4948]

theorem woodVersions_wellFormed {version : U32} (h : version ∈ woodVersions) : WellFormedVersion version := by
  have hall : (woodVersions.all fun v => decide (WellFormedVersion v)) = true := by decide
  exact of_decide_eq_true (List.all_eq_true.mp hall version h)

theorem latte_wellFormed_iff {x : Ext ε} (env : ε) {variant : U32} (h : variant = 0 ∨ variant ∈ BSP_VARIANTS) :
    WellFormedVersion (latteVersion x env ||| variant) ↔ variant ∈ BSP_VARIANTS := by
  have hall : (latteVersions.all fun v => (0 :: BSP_VARIANTS).all fun c =>
      decide (WellFormedVersion (v ||| c) ↔ c ∈ BSP_VARIANTS)) = true := by decide
  have hlatte := List.all_eq_true.mp hall _ (latteRevision_mem (x.ltChiprevid env &&& 0xFF))
  exact of_decide_eq_true (List.all_eq_true.mp hlatte variant (List.mem_cons.mpr h))

theorem boardVariant_cases (boardType : U16) :
    (boardType ∈ boardTypes ∧ boardVariant boardType ∈ BSP_VARIANTS) ∨
      (boardType ∉ boardTypes ∧ boardVariant boardType = 0) := by
  by_cases h : boardType ∈ boardTypes
  · have hall : (boardTypes.all fun t => decide (boardVariant t ∈ BSP_VARIANTS)) = true := by decide
    exact Or.inl ⟨h, of_decide_eq_true (List.all_eq_true.mp hall boardType h)⟩
  · refine Or.inr ⟨h, ?_⟩
    simp only [boardTypes, List.mem_cons, List.not_mem_nil, or_false, not_or] at h
    obtain ⟨hcf, hct, hev, hid, hih⟩ := h
    unfold boardVariant
    rw [if_neg hcf, if_neg hct, if_neg hev, if_neg hid, if_neg hih]

theorem patched_boardType (data : Vector U16 0x24) : (patched data).boardType = data.get 5 := by
  unfold patched
  split <;> rfl

/-- A Latte whose board configuration is accepted. -/
theorem latte_listed_iff {x : Ext ε} (env : ε) (data : Vector U16 0x24) :
    WellFormedVersion (latteVersion x env ||| variantOf BSP_RVAL_OK (patched data)) ↔ data.get 5 ∈ boardTypes := by
  have hcases := boardVariant_cases (data.get 5)
  unfold variantOf
  rw [if_neg (not_not.mpr rfl), patched_boardType, latte_wellFormed_iff _ (hcases.symm.imp And.right And.right)]
  rcases hcases with ⟨hmem, hin⟩ | ⟨hnot, hzero⟩
  · exact ⟨fun _ => hmem, fun _ => hin⟩
  · rw [hzero]
    exact ⟨fun hin => absurd hin (by decide), fun hmem => absurd hmem hnot⟩

/-- One whose configuration is not is an EV_Y. -/
theorem latte_unread_wellFormed {x : Ext ε} (env : ε) {ret : BspRval} (h : ret ≠ BSP_RVAL_OK) (config : BcConfig) :
    WellFormedVersion (latteVersion x env ||| variantOf ret config) := by
  unfold variantOf
  rw [if_pos h, latte_wellFormed_iff _ (Or.inr (by decide))]
  decide

/-- What is returned, once the outcome is known. -/
theorem wellFormed_of_run {x : Ext ε} {b b₁ : Process ε} {ret : BspRval} {v : U32}
    (hrun : bspMethodGetHardwareVersion x b = .ok ((ret, v), b₁)) :
    (∀ version b', bspMethodGetHardwareVersion x b = .ok ((BSP_RVAL_OK, version), b') → WellFormedVersion version) ↔
      (ret = BSP_RVAL_OK → WellFormedVersion v) := by
  refine ⟨fun h hret => h v b₁ (hret ▸ hrun), fun h version b' h' => ?_⟩
  rw [hrun] at h'
  cases h'
  exact h rfl

/-- On a Latte, all depends on the board type. -/
theorem latte_wellFormed {x : Ext ε} {b : Process ε} (h0 : b.bspHardwareVersion = 0) (hlatte : latteDetected x b.drv.env) :
    (∀ version b', bspMethodGetHardwareVersion x b = .ok ((BSP_RVAL_OK, version), b') → WellFormedVersion version) ↔
      ∀ b₁, Loads x b b₁ → (loadedWords x b₁).get 5 ∈ boardTypes := by
  rcases readBoard_cases x b.bspBoardConfig b with
    ⟨hover, hread⟩ | ⟨-, hnone, ret, b', hret, hread, -⟩ | ⟨-, b₁, b', hloads, hread, -⟩
  · refine ⟨fun _ b₁ h => absurd hover h.not_overruns, fun _ version b' h => ?_⟩
    rw [method_latte_fault h0 hlatte hread] at h
    cases h
  · rw [wellFormed_of_run (method_latte_read h0 hlatte hread)]
    exact ⟨fun _ b₁ h => absurd h (hnone b₁), fun _ _ => latte_unread_wellFormed _ hret _⟩
  · rw [wellFormed_of_run (method_latte_read h0 hlatte hread), latte_listed_iff]
    refine ⟨fun h b₂ hloads' => ?_, fun h _ => h b₁ hloads⟩
    rw [hloads'.1.unique hloads.1]
    exact h rfl

/-- On anything else, the version is a Wood's. -/
theorem wood_wellFormed {x : Ext ε} {b : Process ε} (h0 : b.bspHardwareVersion = 0)
    (hlatte : ¬ latteDetected x b.drv.env) {version : U32} {b' : Process ε}
    (h : bspMethodGetHardwareVersion x b = .ok ((BSP_RVAL_OK, version), b')) : WellFormedVersion version :=
  woodVersions_wellFormed (method_wood_ok h0 hlatte h).1

/-- Every version that is returned with BSP_RVAL_OK is well-formed exactly when the
    cached one is, if there is one, and a Latte's board configuration, if it is accepted,
    is of a type that is listed. -/
theorem wellFormed_iff (x : Ext ε) (b : Process ε) :
    (∀ version b', bspMethodGetHardwareVersion x b = .ok ((BSP_RVAL_OK, version), b') → WellFormedVersion version) ↔
      (b.bspHardwareVersion ≠ 0 → WellFormedVersion b.bspHardwareVersion) ∧
        (b.bspHardwareVersion = 0 → latteDetected x b.drv.env →
          ∀ b₁, Loads x b b₁ → (loadedWords x b₁).get 5 ∈ boardTypes) := by
  by_cases h0 : b.bspHardwareVersion = 0
  · refine ⟨fun h => ⟨fun hne => absurd h0 hne, fun _ hlatte => (latte_wellFormed h0 hlatte).mp h⟩, fun h => ?_⟩
    by_cases hlatte : latteDetected x b.drv.env
    · exact (latte_wellFormed h0 hlatte).mpr (h.2 h0 hlatte)
    · exact fun version b' => wood_wellFormed h0 hlatte
  · rw [wellFormed_of_run (method_cached h0)]
    exact ⟨fun h => ⟨fun _ => h rfl, fun h' => absurd h' h0⟩, fun h _ => h.1 h0⟩

/-- A Latte whose board configuration has no type gets no variant. -/
theorem tinyBoard_malformed :
    ¬ ∀ version b', bspMethodGetHardwareVersion (Ext.quiet seeprom 0x21 0xCAFE0010) (boardProcess tinyImage) =
      .ok ((BSP_RVAL_OK, version), b') → WellFormedVersion version := by
  have hlatte : latteDetected (Ext.quiet seeprom 0x21 0xCAFE0010) (boardProcess tinyImage).drv.env := ⟨rfl, rfl⟩
  obtain ⟨b₁, hloads, hwords⟩ := tinyImage_loads 0x21 0xCAFE0010
  intro h
  rcases readBoard_cases (Ext.quiet seeprom 0x21 0xCAFE0010) BcConfig.zero (boardProcess tinyImage) with
    ⟨hover, -⟩ | ⟨-, hnone, -⟩ | ⟨-, b₂, b', hloads', hread, -⟩
  · exact absurd hover hloads.not_overruns
  · exact absurd hloads (hnone b₁)
  · rw [hloads'.1.unique hloads.1, hwords] at hread
    have hmalformed : ¬ WellFormedVersion (0x21100000 ||| variantOf BSP_RVAL_OK (patched (imageWords tinyImage 2))) := by
      decide
    exact hmalformed (h _ _ (method_latte_read rfl hlatte hread))

end Iosu.Bsp
