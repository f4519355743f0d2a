/-
  Iosu.Entities.CcrhInit — the initialisation of the DRH's reset (`bspCCRH_Reset_init`,
  `bsp_ccrh.c`) against a write to it.

  The init hands the attribute's data to `bspCCRH_Reset_write` as the pointer, where a write
  has a pointer to the command. So its command is the word that lies at the address which the
  data makes, and it does what the write does only where that is the same command, or one
  that nothing tells apart (`initAgrees_iff`).
-/

import Iosu.Entities.Ccrh

namespace Iosu.Entities

open Iosu.Lib Iosu.Libc Iosu.Entity Iosu.Ios Iosu.Bsp

variable {ε : Type} [DataMem (Process ε)]

def bspCCRH_Reset_init (x : CcrhExt ε) (inst : U32) (pAttribute : AttributeData) (_pInitData : Option Buf) (_size : U32) :
    CcrhM ε BspRval := do
  let (ret, _) ← silently (bspMethodGetHardwareVersion x.toExt)
  let b ← get
  if ret ≠ BSP_RVAL_OK then return ret
  let cmd := pAttribute.data
  -- not `&cmd`
  bspCCRH_Reset_write x inst pAttribute (pointerTo b cmd)

/-- An init of an attribute with this data does what a write of it does: the same operations,
    with the same outcome. -/
def InitAgrees (x : CcrhExt ε) (b : Process ε) (c : U32) : Prop :=
  ∀ inst pAttribute pInitData size pWrittenData, pAttribute.data = c → pWrittenData.load32 0 = c →
    bspCCRH_Reset_init x inst pAttribute pInitData size b = bspCCRH_Reset_write x inst pAttribute pWrittenData b

/-- A write of the command comes back. -/
def WriteReturns (x : CcrhExt ε) (b : Process ε) (c : U32) : Prop :=
  ∀ inst pAttribute pWrittenData, pWrittenData.load32 0 = c →
    ∃ p, (bspCCRH_Reset_write x inst pAttribute pWrittenData b).res = .ok p

/-- Behind the detection, which led to `b₁`: the word at the address `c` is the same command,
    or 3 is there for 4 or 4 for 3 and CCRIO3 does not tell them apart. For no command it is
    to be none either, and the detection is not to have changed anything. -/
def SameCommand (b : Process ε) (hwver : U32) (b₁ : Process ε) (c : U32) : Prop :=
  let w := (pointerTo b₁ c).load32 0
  (ccrios c = none ∧ ccrios w = none ∧ b₁ = b) ∨
    (ccrios c ≠ none ∧ (w = c ∨ ((c = 3 ∧ w = 4 ∨ c = 4 ∧ w = 3) ∧
      (drivesCcrio3 hwver b₁.bspBoardConfig → pointerTo b₁ 0 = pointerTo b₁ 1))))

/-! ## Both as runs from behind the detection -/

section Detected

variable {x : CcrhExt ε} {b b₁ : Process ε} {hwver : U32}
  (hdetect : Bsp.bspMethodGetHardwareVersion x.toExt b = .ok ((BSP_RVAL_OK, hwver), b₁))

include hdetect

omit [DataMem (Process ε)] in
/-- It is known from then on. -/
theorem detect_again : Bsp.bspMethodGetHardwareVersion x.toExt b₁ = .ok ((BSP_RVAL_OK, hwver), b₁) := by
  obtain ⟨hcached, hne⟩ := method_caches hdetect
  rw [method_cached (by rw [hcached]; exact hne), hcached]

omit [DataMem (Process ε)] in
theorem silently_detected : silently (Bsp.bspMethodGetHardwareVersion x.toExt) b = ⟨[], .ok ((BSP_RVAL_OK, hwver), b₁)⟩ := by
  unfold silently
  rw [hdetect]

theorem driveCcrio3_detected (ccrio3 : U32) : driveCcrio3 x ccrio3 b =
    (if drivesCcrio3 hwver b₁.bspBoardConfig then bspWriteInternal x GPIO 0 CCRIO3 4 (pointerTo b₁ ccrio3)
     else pure BSP_RVAL_OK : CcrhM ε BspRval) b₁ := by
  unfold driveCcrio3
  rw [Run.stateful_bind_silent (silently_detected hdetect)]
  dsimp only
  rw [Run.stateful_bind_silent (Run.stateful_get b₁)]
  by_cases hdrives : drivesCcrio3 hwver b₁.bspBoardConfig
  · rw [if_pos ⟨rfl, hdrives⟩, if_pos hdrives]
  · rw [if_neg (fun h => hdrives h.2), if_neg hdrives]

theorem init_detected (inst : U32) (a : AttributeData) (pInitData : Option Buf) (size : U32) :
    bspCCRH_Reset_init x inst a pInitData size b = bspCCRH_Reset_write x inst a (pointerTo b₁ a.data) b₁ := by
  unfold bspCCRH_Reset_init
  rw [Run.stateful_bind_silent (silently_detected hdetect)]
  dsimp only
  rw [Run.stateful_bind_silent (Run.stateful_get b₁), if_neg (not_not.mpr rfl)]

/-- The write of a command. -/
theorem write_detected (inst : U32) (a : AttributeData) {pWrittenData : Buf} (h : ccrios (pWrittenData.load32 0) ≠ none) :
    bspCCRH_Reset_write x inst a pWrittenData b = bspCCRH_Reset_write x inst a pWrittenData b₁ := by
  unfold bspCCRH_Reset_write
  cases hsel : ccrios (pWrittenData.load32 0) with
  | none => exact absurd hsel h
  | some values =>
    dsimp only
    rw [Run.stateful_bind, Run.stateful_bind, driveCcrio3_detected hdetect, driveCcrio3_detected (detect_again hdetect)]

end Detected

/-! ## Commands -/

section Commands

variable {x : CcrhExt ε} {b : Process ε} (inst : U32) (a : AttributeData) {p q : Buf}

/-- Of what is written, the command is all that counts. -/
theorem write_congr (h : p.load32 0 = q.load32 0) :
    bspCCRH_Reset_write x inst a p b = bspCCRH_Reset_write x inst a q b := by
  unfold bspCCRH_Reset_write
  rw [h]

theorem write_none (h : ccrios (p.load32 0) = none) :
    bspCCRH_Reset_write x inst a p b = ⟨[], .ok (BSP_RVAL_INVALID_PARAMETER, b)⟩ := by
  unfold bspCCRH_Reset_write
  rw [h]
  rfl

/-- 3 and 4 differ in CCRIO3 only. -/
theorem write_three_four {hwver : U32} (hdetect : Bsp.bspMethodGetHardwareVersion x.toExt b = .ok ((BSP_RVAL_OK, hwver), b))
    (hsame : drivesCcrio3 hwver b.bspBoardConfig → pointerTo b 0 = pointerTo b 1) (hp : p.load32 0 = 3)
    (hq : q.load32 0 = 4) : bspCCRH_Reset_write x inst a p b = bspCCRH_Reset_write x inst a q b := by
  have hdrive : driveCcrio3 x 1 b = driveCcrio3 x 0 b := by
    rw [driveCcrio3_detected hdetect, driveCcrio3_detected hdetect]
    by_cases hdrives : drivesCcrio3 hwver b.bspBoardConfig
    · rw [hsame hdrives]
    · rw [if_neg hdrives, if_neg hdrives]
  have hthree : ccrios 3 = some (1, 0) := by decide
  have hfour : ccrios 4 = some (0, 0) := by decide
  unfold bspCCRH_Reset_write
  rw [hp, hq, hthree, hfour]
  dsimp only
  rw [Run.stateful_bind, Run.stateful_bind, hdrive]
  rfl

end Commands

omit [DataMem (Process ε)] in
theorem resetOps_ne_nil (x : CcrhExt ε) (cmd ccrio12 : U32) (last t : List EntityOp) :
    t ++ resetOps x cmd ccrio12 last ≠ [] := by
  unfold resetOps
  simp

/-- Values that are selected, by command. -/
theorem ccrios_some {cmd ccrio3 ccrio12 : U32} (h : ccrios cmd = some (ccrio3, ccrio12)) :
    (cmd = 1 ∧ ccrio3 = 0 ∧ ccrio12 = 0) ∨ (cmd = 2 ∧ ccrio3 = 0 ∧ ccrio12 = 1) ∨ (cmd = 3 ∧ ccrio3 = 1 ∧ ccrio12 = 0) ∨
      (cmd = 4 ∧ ccrio3 = 0 ∧ ccrio12 = 0) := by
  unfold ccrios at h
  split at h
  · cases h
    exact Or.inl ⟨by assumption, rfl, rfl⟩
  split at h
  · cases h
    exact Or.inr (Or.inl ⟨by assumption, rfl, rfl⟩)
  split at h
  · cases h
    exact Or.inr (Or.inr (Or.inl ⟨by assumption, rfl, rfl⟩))
  split at h
  · cases h
    exact Or.inr (Or.inr (Or.inr ⟨by assumption, rfl, rfl⟩))
  · cases h

/-! ## When they agree -/

section Agreement

variable {x : CcrhExt ε} {b b₁ : Process ε} {hwver : U32}
  (hdetect : Bsp.bspMethodGetHardwareVersion x.toExt b = .ok ((BSP_RVAL_OK, hwver), b₁))

include hdetect

theorem initAgrees_of_same {c : U32} (h : SameCommand b hwver b₁ c) : InitAgrees x b c := by
  rintro inst a pInitData size p hdata hcmd
  rw [init_detected hdetect, hdata]
  rcases h with ⟨hnone, hword, hb⟩ | ⟨hsome, hsame⟩
  · rw [write_none inst a hword, write_none inst a (by rw [hcmd]; exact hnone), hb]
  rw [write_detected hdetect inst a (by rw [hcmd]; exact hsome)]
  rcases hsame with hword | ⟨⟨hc, hword⟩ | ⟨hc, hword⟩, hpointers⟩
  · exact write_congr inst a (hword.trans hcmd.symm)
  · exact (write_three_four inst a (detect_again hdetect) hpointers (hcmd.trans hc) hword).symm
  · exact write_three_four inst a (detect_again hdetect) hpointers hword (hcmd.trans hc)

theorem ccrio3Writes_detected (ccrio3 : U32) : gpioWrites CCRIO3 (ccrio3Ops x b ccrio3) =
    if drivesCcrio3 hwver b₁.bspBoardConfig then [pointerTo b₁ ccrio3] else [] := by
  unfold ccrio3Ops
  rw [hdetect]
  dsimp only
  by_cases hdrives : drivesCcrio3 hwver b₁.bspBoardConfig
  · rw [if_pos ⟨rfl, hdrives⟩, if_pos hdrives]
    rfl
  · rw [if_neg (fun h => hdrives h.2), if_neg hdrives]
    rfl

/-- Two commands whose runs are the same, by what they write. -/
theorem commands_of_writes {c w ccrio3 ccrio12 ccrio3' ccrio12' : U32} (hc : ccrios c = some (ccrio3, ccrio12))
    (hw : ccrios w = some (ccrio3', ccrio12')) {last last' : List EntityOp} (hlast : Reinits last) (hlast' : Reinits last')
    (h : ccrio3Ops x b₁ ccrio3' ++ resetOps x w ccrio12' last' = ccrio3Ops x b ccrio3 ++ resetOps x c ccrio12 last) :
    w = c ∨ ((c = 3 ∧ w = 4 ∨ c = 4 ∧ w = 3) ∧
      (drivesCcrio3 hwver b₁.bspBoardConfig → pointerTo b₁ 0 = pointerTo b₁ 1)) := by
  have hreset := congrArg (gpioWords CCRHRESET) h
  have h12 := congrArg (gpioWords CCRIO12) h
  have h3 := congrArg (gpioWrites CCRIO3) h
  rw [whole_reset hlast', whole_reset hlast] at hreset
  rw [whole_ccrio12 hlast', whole_ccrio12 hlast] at h12
  rw [whole_ccrio3 hlast', whole_ccrio3 hlast, ccrio3Writes_detected hdetect,
    ccrio3Writes_detected (detect_again hdetect)] at h3
  rcases ccrios_some hc with ⟨rfl, rfl, rfl⟩ | ⟨rfl, rfl, rfl⟩ | ⟨rfl, rfl, rfl⟩ | ⟨rfl, rfl, rfl⟩ <;>
    rcases ccrios_some hw with ⟨rfl, rfl, rfl⟩ | ⟨rfl, rfl, rfl⟩ | ⟨rfl, rfl, rfl⟩ | ⟨rfl, rfl, rfl⟩
  all_goals first
    | exact Or.inl rfl
    | exact absurd hreset (by decide)
    | exact absurd h12 (by decide)
    | skip
  · refine Or.inr ⟨Or.inl ⟨rfl, rfl⟩, fun hdrives => ?_⟩
    rw [if_pos hdrives, if_pos hdrives] at h3
    exact (List.cons.inj h3).1
  · refine Or.inr ⟨Or.inr ⟨rfl, rfl⟩, fun hdrives => ?_⟩
    rw [if_pos hdrives, if_pos hdrives] at h3
    exact (List.cons.inj h3).1.symm

/-- The runs of a write and of another from behind the detection, when they are the same. -/
theorem commands_of_eq (inst : U32) (a : AttributeData) {p q : Buf} {r : BspRval × Process ε}
    (hreturns : (bspCCRH_Reset_write x inst a p b).res = .ok r)
    (h : bspCCRH_Reset_write x inst a q b₁ = bspCCRH_Reset_write x inst a p b) :
    (ccrios (p.load32 0) = none ∧ ccrios (q.load32 0) = none ∧ b₁ = b) ∨
      (ccrios (p.load32 0) ≠ none ∧ (q.load32 0 = p.load32 0 ∨
        ((p.load32 0 = 3 ∧ q.load32 0 = 4 ∨ p.load32 0 = 4 ∧ q.load32 0 = 3) ∧
          (drivesCcrio3 hwver b₁.bspBoardConfig → pointerTo b₁ 0 = pointerTo b₁ 1)))) := by
  have hreturns' : (bspCCRH_Reset_write x inst a q b₁).res = .ok r := by rw [h, hreturns]
  cases hp : ccrios (p.load32 0) with
  | none =>
    refine Or.inl ⟨rfl, ?_⟩
    rw [write_none inst a hp] at h
    cases hq : ccrios (q.load32 0) with
    | none =>
      rw [write_none inst a hq] at h
      cases h
      exact ⟨rfl, rfl⟩
    | some values =>
      obtain ⟨last, -, htrace⟩ := reset_trace x b₁ inst a hq hreturns'
      rw [h] at htrace
      exact absurd htrace.symm (resetOps_ne_nil x _ _ last _)
  | some values =>
    refine Or.inr ⟨by simp, ?_⟩
    obtain ⟨last, hlast, htrace⟩ := reset_trace x b inst a hp hreturns
    cases hq : ccrios (q.load32 0) with
    | none =>
      rw [← h, write_none inst a hq] at htrace
      exact absurd htrace.symm (resetOps_ne_nil x _ _ last _)
    | some values' =>
      obtain ⟨last', hlast', htrace'⟩ := reset_trace x b₁ inst a hq hreturns'
      rw [h, htrace] at htrace'
      exact commands_of_writes hdetect hp hq hlast hlast' htrace'.symm

theorem same_of_initAgrees {c : U32} (hreturns : WriteReturns x b c) (h : InitAgrees x b c) : SameCommand b hwver b₁ c := by
  have hcmd : (commandBuf c).load32 0 = c := Buf.load32_store _ _
  obtain ⟨r, hr⟩ := hreturns 0 { pName := none, data := c } (commandBuf c) hcmd
  have hruns := h 0 { pName := none, data := c } none 0 (commandBuf c) rfl hcmd
  rw [init_detected hdetect] at hruns
  have hsame := commands_of_eq hdetect 0 _ hr hruns
  rw [hcmd] at hsame
  exact hsame

/-- Where a version is detected, the init does what a write of the same word does if what
    lies at the address is the same command; and, of a write that comes back, only if so. -/
theorem initAgrees_iff (c : U32) :
    (SameCommand b hwver b₁ c → InitAgrees x b c) ∧ (WriteReturns x b c → (InitAgrees x b c ↔ SameCommand b hwver b₁ c)) :=
  ⟨initAgrees_of_same hdetect, fun hreturns => ⟨same_of_initAgrees hdetect hreturns, initAgrees_of_same hdetect⟩⟩

end Agreement

/-- A word 4 at address 4. -/
abbrev fourAtFour : DataMem (Process Unit) := ⟨fun _ address => if address = 7 then 4 else 0⟩

theorem four_initAgrees : @InitAgrees Unit fourAtFour (CcrhExt.idle 0x20) cafeProcess 4 :=
  (@initAgrees_iff Unit fourAtFour (CcrhExt.idle 0x20) cafeProcess cafeProcess (latteRevision 0x50 ||| BSP_VARIANT_CAFE) rfl
    4).1 (Or.inr ⟨by decide, Or.inl rfl⟩)

/-- In memory that is 0, the command 4 of the attribute is none. -/
theorem zero_init_differs : ¬ InitAgrees (CcrhExt.idle 0x20) cafeProcess 4 := by
  intro h
  have hruns := h 0 { pName := none, data := 4 } none 0 (commandBuf 4) rfl (by decide)
  have hinit : (bspCCRH_Reset_init (CcrhExt.idle 0x20) 0 { pName := none, data := 4 } none 0 cafeProcess).trace = [] := rfl
  have hsel : ccrios ((commandBuf 4).load32 0) = some (0, 0) := by decide
  obtain ⟨last, -, htrace⟩ := reset_trace (CcrhExt.idle 0x20) cafeProcess 0 { pName := none, data := 4 } hsel rfl
  rw [hruns, htrace] at hinit
  exact resetOps_ne_nil _ _ _ _ _ hinit

end Iosu.Entities
