/-
  Iosu.Bsp.EeEntity — the EE entity behind /dev/bsp, and who can program the SEEPROM.

  `eeCallbacks` puts the functions of `bsp_ee.c` into the entity's table, over the bytes that
  the request functions hand them; "bc" fills in a `BC_CONFIG`, whose layout is
  `BcConfig.bytes`. Of all that the entity can be asked for, only a write of "access" changes
  the SEEPROM's memory, and only where a write of "control" has enabled it. So over any run of
  the message loop the memory is what it was, unless such writes were made by clients whose
  OPEN gave them the bit (`seeprom_guarded`).
-/

import Iosu.Bsp.EeMachine
import Iosu.Bsp.ServeFrame
import Iosu.Entities.Tables
import Iosu.Entity.Footprint

namespace Iosu.Bsp

open Iosu.Lib Iosu.Lib.Microwire Iosu.Lib.Microwire.Device Iosu.Libc Iosu.Entity Iosu.Entities Iosu.Ios Iosu.Eeprom

variable {ε : Type}

/-! ## `BC_CONFIG` in memory -/

/-- The structure as halfwords. -/
def BcConfig.words (config : BcConfig) : List U16 :=
  [config.crc.extractLsb' 16 16, config.crc.extractLsb' 0 16, config.size, config.version, config.author,
    config.boardType, config.boardRevision, config.bootSource, config.ddr3Size, config.ddr3Speed,
    config.ppcClockMultiplier, config.iopClockMultiplier, config.video1080p, config.ddr3Vendor,
    config.movPassiveReset, config.sysPllSpeed, config.sataDevice, config.consoleType,
    config.devicePresence.extractLsb' 16 16, config.devicePresence.extractLsb' 0 16]

/-- Its 0x28 bytes. -/
def BcConfig.bytes (config : BcConfig) : List U8 := config.words.flatMap Buf.ofU16

/-- The structure that a pointer designates. -/
def BcConfig.load (p : Buf) : BcConfig := BcConfig.ofWords (Vector.ofFn fun i => p.load16 (2 * i))

theorem halves_append (x : U32) : x.extractLsb' 16 16 ++ x.extractLsb' 0 16 = x := by
  rw [BitVec.extractLsb'_append_extractLsb'_eq_extractLsb' (by rfl)]
  exact BitVec.extractLsb'_eq_self

theorem high_append (x y : U16) : (x ++ y).extractLsb' 16 16 = x := BitVec.extractLsb'_append_eq_left

theorem low_append (x y : U16) : (x ++ y).extractLsb' 0 16 = y := BitVec.extractLsb'_append_eq_right

@[simp] theorem BcConfig.words_length (config : BcConfig) : config.words.length = 20 := rfl

/-- The array that holds the structure's halfwords holds the structure. -/
theorem BcConfig.ofWords_words {data : Vector U16 0x24} {config : BcConfig}
    (h : ∀ i (_ : i < 20), data[i] = config.words.getD i 0) : BcConfig.ofWords data = config := by
  simp [BcConfig.ofWords, h, BcConfig.words, halves_append]

/-- What is stored loads again. -/
theorem BcConfig.load_store (p : Buf) (config : BcConfig) : BcConfig.load (p.store config.bytes) = config := by
  apply BcConfig.ofWords_words
  intro i hi
  rw [Vector.getElem_ofFn, List.getD_eq_getElem _ _ (by simpa using hi)]
  exact Buf.load16_store p config.words (by simpa using hi)

theorem BcConfig.bytes_load (p : Buf) : (BcConfig.load p).bytes = p.bytes 0 0x28 := by
  have hwords : (BcConfig.load p).words = (List.range 20).map fun i => p.load16 (2 * i) := by
    simp only [BcConfig.load, BcConfig.ofWords, BcConfig.words, Vector.getElem_ofFn, high_append, low_append]
    rfl
  unfold BcConfig.bytes
  rw [hwords, Buf.halfwords_bytes]

/-- What is loaded stores again, so a call that leaves the structure leaves the bytes. -/
theorem BcConfig.store_load (p : Buf) : p.store (BcConfig.load p).bytes = p := by
  rw [BcConfig.bytes_load, Buf.store_bytes]

/-! ## The entity's callbacks -/

/-- The entity's own callbacks, among those of the others. -/
def eeCallbacks (x : Ext ε) (cb : Callbacks (Process ε)) : Callbacks (Process ε) :=
  { cb with
    bspEE_access_read := fun inst _ pReadData b => do
      let ((ret, pReadData), b) ← bspEE_access_read x inst pReadData b
      .ok (ret, pReadData, b)
    bspEE_access_write := fun inst _ pWrittenData b => bspEE_access_write x inst pWrittenData b
    bspEE_control_write := fun inst _ pWrittenData b => bspEE_control_write x inst pWrittenData b
    bspEE_control_init := fun inst _ _ _ b => bspEE_control_init x inst b
    bspEE_control_shutdown := fun inst _ b => bspEE_control_shutdown x inst b
    bspEE_bc_read := fun inst _ pReadData b => do
      let ((ret, config), b) ← bspEE_bc_read x inst (BcConfig.load pReadData) b
      .ok (ret, pReadData.store config.bytes, b) }

section Data

variable {x : Ext ε} {cb : Callbacks (Process ε)} {p p' : Buf}

/-- The structure depends on its own bytes only. -/
theorem BcConfig.load_agree (h : Buf.AgreeBelow 0x28 p p') : BcConfig.load p = BcConfig.load p' := by
  rw [← BcConfig.load_store p (BcConfig.load p), BcConfig.bytes_load, h.bytes (by decide), ← BcConfig.bytes_load,
    BcConfig.load_store]

theorem BcConfig.bytes_length (config : BcConfig) : config.bytes.length = 0x28 := rfl

theorem access_read_fillsOnly (d : AttributeData) : FillsOnly 2 d (eeCallbacks x cb).bspEE_access_read := by
  intro inst p p' b h
  show Res.Rel _ ((bspEE_access_read x inst p b) >>= _) ((bspEE_access_read x inst p' b) >>= _)
  refine Res.Rel.bind (R := fun q q' => Filled 2 p p' (q.1.1, q.1.2, q.2) (q'.1.1, q'.1.2, q'.2)) ?_ ?_
  swap
  · rintro ⟨⟨ret, p₁⟩, b₁⟩ ⟨⟨ret', p₁'⟩, b₁'⟩ hq
    exact hq
  unfold bspEE_access_read
  rw [bspM_bind, bspM_bind]
  refine (Res.Rel.refl (R := Eq) (fun _ => rfl) _).bind ?_
  rintro ⟨⟨err, data⟩, b₁⟩ _ rfl
  dsimp only
  split
  · exact filled_same h _ b₁
  · exact filled_store h (Buf.ofU16 (data.getD 0)) (Nat.le_refl 2) _ b₁

theorem bc_read_fillsOnly (d : AttributeData) : FillsOnly 0x28 d (eeCallbacks x cb).bspEE_bc_read := by
  intro inst p p' b h
  show Res.Rel _ ((bspEE_bc_read x inst (BcConfig.load p) b) >>= _) ((bspEE_bc_read x inst (BcConfig.load p') b) >>= _)
  rw [BcConfig.load_agree h]
  refine (Res.Rel.refl (R := Eq) (fun _ => rfl) _).bind ?_
  rintro ⟨⟨ret, config⟩, b₁⟩ _ rfl
  exact filled_store h config.bytes config.bytes_length.le ret b₁

/-- The entity's callbacks keep to their attributes' sizes: the halfword of "access", the
    word of "control" and the structure of "bc". -/
theorem ee_keepsTo {a : BspAttribute (Process ε)} (ha : a ∈ bspEE_attributes (eeCallbacks x cb)) : a.KeepsTo := by
  simp only [bspEE_attributes, List.mem_cons, List.not_mem_nil, or_false] at ha
  rcases ha with rfl | rfl | rfl
  · refine ⟨fun m hm => ?_, fun m hm => ?_, fun m hm inst p p' b h => ?_, fun m hm => ?_⟩ <;> cases hm
    · exact access_read_fillsOnly _
    · show bspEE_access_write x inst p b = bspEE_access_write x inst p' b
      unfold bspEE_access_write
      rw [h.load16 (Nat.le_refl 2)]
  · refine ⟨fun m hm => ?_, fun m hm => ?_, fun m hm inst p p' b h => ?_,
      fun m hm inst p p' size b h => ?_⟩ <;> cases hm
    · show bspEE_control_write x inst p b = bspEE_control_write x inst p' b
      unfold bspEE_control_write
      rw [h.load32 (Nat.le_refl 4)]
    · rfl
  · refine ⟨fun m hm => ?_, fun m hm => ?_, fun m hm => ?_, fun m hm => ?_⟩ <;> cases hm
    exact bc_read_fillsOnly _

end Data

/-- A write of "access". -/
def Programs : Call (Process ε) → Prop
  | .write _ a _ => a.pName = some (cstr "access")
  | _ => False

/-- A write of 1 to "control". -/
def Enables : Call (Process ε) → Prop
  | .write _ a p => a.pName = some (cstr "control") ∧ p.load32 0 = 1
  | _ => False

section Within

variable {x : Ext ε} {F : Frame (Process ε)}

/-- The bytes that a call leaves are no part of the state. -/
theorem stays_answer {α : Type} {f : BspM ε α} {g : α → EeAnswer}
    (h : Stays F (f >>= fun a => (pure (g a) : BspM ε EeAnswer))) : Stays F f := by
  intro b a b' hf
  refine h b (g a) b' ?_
  rw [bspM_bind_ok hf]
  rfl

/-- A call of the entity stays within a frame that its function stays within. -/
theorem ee_within {cb : Callbacks (Process ε)} {c : Call (Process ε)}
    (ha : c.attribute ∈ bspEE_attributes (eeCallbacks x cb))
    (hread : ∀ inst p, Stays F ((EeCall.read inst p).run x)) (hbc : ∀ inst p, Stays F ((EeCall.bcRead inst p).run x))
    (hinit : ∀ inst, Stays F ((EeCall.controlInit inst).run x))
    (hshut : ∀ inst, Stays F ((EeCall.controlShutdown inst).run x))
    (hwrite : Programs c → ∀ inst p, Stays F ((EeCall.write inst p).run x))
    (hcontrol : ∀ inst p, (p.load32 0 = 1 → Enables c) → Stays F ((EeCall.control inst p).run x)) : c.Within F := by
  simp only [bspEE_attributes, List.mem_cons, List.not_mem_nil, or_false] at ha
  cases c with
  | read inst a =>
    change a = _ ∨ a = _ ∨ a = _ at ha
    rcases ha with rfl | rfl | rfl
    · intro m hm p b ret p' b' h
      cases hm
      obtain ⟨⟨⟨ret, q⟩, b₁⟩, hrun, hq⟩ := Res.bind_eq_ok.mp h
      cases hq
      exact stays_answer (hread inst p) b _ b' hrun
    · intro m hm
      cases hm
    · intro m hm p b ret p' b' h
      cases hm
      obtain ⟨⟨⟨ret, q⟩, b₁⟩, hrun, hq⟩ := Res.bind_eq_ok.mp h
      cases hq
      exact stays_answer (hbc inst (BcConfig.load p)) b _ b' hrun
  | query inst a =>
    change a = _ ∨ a = _ ∨ a = _ at ha
    rcases ha with rfl | rfl | rfl <;> intro m hm <;> cases hm
  | copyDirect a => trivial
  | copyIndirect a => trivial
  | write inst a p =>
    change a = _ ∨ a = _ ∨ a = _ at ha
    rcases ha with rfl | rfl | rfl
    · intro m hm b ret b' h
      cases hm
      exact stays_answer (hwrite rfl inst p) b ret b' h
    · intro m hm b ret b' h
      cases hm
      exact stays_answer (hcontrol inst p fun h1 => ⟨rfl, h1⟩) b ret b' h
    · intro m hm
      cases hm
  | init inst a p size =>
    change a = _ ∨ a = _ ∨ a = _ at ha
    rcases ha with rfl | rfl | rfl
    · intro m hm
      cases hm
    · intro m hm b ret b' h
      cases hm
      exact stays_answer (hinit inst) b ret b' h
    · intro m hm
      cases hm
  | shutdown inst a =>
    change a = _ ∨ a = _ ∨ a = _ at ha
    rcases ha with rfl | rfl | rfl
    · intro m hm
      cases hm
    · intro m hm b ret b' h
      cases hm
      exact stays_answer (hshut inst) b ret b' h
    · intro m hm
      cases hm

end Within

/-! ## What the machine leaves of its memory -/

section Machine

variable {m m' : EeMachine} {a : EeAnswer}

theorem EeMachine.whenOpen_store (m : EeMachine) (store : Store) (answer refused : EeAnswer) :
    (m.whenOpen store answer refused).2 = { m with store := store } ∨ (m.whenOpen store answer refused).2 = m := by
  unfold EeMachine.whenOpen
  split
  · exact Or.inl rfl
  · exact Or.inr rfl

/-- What every outcome of a call for the open driver satisfies. -/
theorem EeMachine.of_whenOpen {P : EeMachine → Prop} {store : Store} {answer refused : EeAnswer}
    (h : (.ok (m.whenOpen store answer refused) : Res Fault (EeAnswer × EeMachine)) = .ok (a, m'))
    (hopen : P { m with store := store }) (hsame : P m) : P m' := by
  have hm' : (m.whenOpen store answer refused).2 = m' := congrArg Prod.snd (Res.ok.inj h)
  rcases m.whenOpen_store store answer refused with heq | heq
  · rw [← hm', heq]
    exact hopen
  · rw [← hm', heq]
    exact hsame

/-- Everything but a write leaves the memory. -/
theorem EeMachine.run_mem {c : EeCall} (h : m.run c = .ok (a, m')) (hc : ∀ inst p, c ≠ .write inst p) :
    m'.store.mem = m.store.mem := by
  cases c with
  | read inst p => exact EeMachine.of_whenOpen (P := fun n => n.store.mem = m.store.mem) h rfl rfl
  | write inst p => exact absurd rfl (hc inst p)
  | control inst p =>
    simp only [EeMachine.run] at h
    split at h
    · exact EeMachine.of_whenOpen (P := fun n => n.store.mem = m.store.mem) h rfl rfl
    · split at h
      · exact EeMachine.of_whenOpen (P := fun n => n.store.mem = m.store.mem) h rfl rfl
      · cases h
        rfl
  | controlInit inst =>
    cases h
    rfl
  | controlShutdown inst =>
    simp only [EeMachine.run] at h
    split at h <;> cases h <;> rfl
  | bcRead inst config =>
    simp only [EeMachine.run] at h
    split at h
    · obtain ⟨q, -, hq⟩ := Res.bind_eq_ok.mp h
      cases hq
      rfl
    · cases h
      rfl
  | bcInit =>
    simp only [EeMachine.run] at h
    split at h <;> cases h <;> rfl

/-- Without a control that enables programming, it stays disabled, and a write changes nothing. -/
theorem EeMachine.run_protected {c : EeCall} (h : m.run c = .ok (a, m')) (hd : m.store.enabled = false)
    (hc : ∀ inst p, c = .control inst p → p.load32 0 ≠ 1) :
    m'.store.enabled = false ∧ m'.store.mem = m.store.mem := by
  by_cases hw : ∃ inst p, c = .write inst p
  · obtain ⟨inst, p, rfl⟩ := hw
    have hprogram : m.store.program (Function.update m.store.mem (eeAddress inst) (p.load16 0)) = m.store := by
      simp [Store.program, hd]
    refine EeMachine.of_whenOpen (P := fun n => n.store.enabled = false ∧ n.store.mem = m.store.mem) h ?_ ⟨hd, rfl⟩
    show (m.store.program _).enabled = false ∧ (m.store.program _).mem = m.store.mem
    rw [hprogram]
    exact ⟨hd, rfl⟩
  · refine ⟨?_, EeMachine.run_mem h fun inst p heq => hw ⟨inst, p, heq⟩⟩
    cases c with
    | read inst p => exact EeMachine.of_whenOpen (P := fun n => n.store.enabled = false) h hd hd
    | write inst p => exact absurd ⟨inst, p, rfl⟩ hw
    | control inst p =>
      simp only [EeMachine.run, if_neg (hc inst p rfl)] at h
      split at h
      · exact EeMachine.of_whenOpen (P := fun n => n.store.enabled = false) h rfl hd
      · cases h
        exact hd
    | controlInit inst =>
      cases h
      rfl
    | controlShutdown inst =>
      simp only [EeMachine.run] at h
      split at h <;> cases h <;> exact hd
    | bcRead inst config =>
      simp only [EeMachine.run] at h
      split at h
      · obtain ⟨q, -, hq⟩ := Res.bind_eq_ok.mp h
        cases hq
        exact hd
      · cases h
        exact hd
    | bcInit =>
      simp only [EeMachine.run] at h
      split at h <;> cases h <;> exact hd

end Machine

/-! ## The frames -/

/-- A device at rest stays so, `P` of its store stays, and with them the memory. -/
def memoryFrame (dev : ε → Device) (P : Store → Prop) : Frame (Process ε) :=
  Frame.keeping (fun b => AtRest (dev b.drv.env) ∧ P (dev b.drv.env).store) fun b => (dev b.drv.env).store.mem

/-- Surroundings that leave the SEEPROM as it is, the driver apart. -/
structure Spared (x : Ext ε) (dev : ε → Device) : Prop extends Board x dev where
  cortado : ∀ env, AtRest (dev env) → AtRest (dev (x.bspCheckCortado env).2.2) ∧
    (dev (x.bspCheckCortado env).2.2).store = (dev env).store
  eepromRead : ∀ addr word env, AtRest (dev env) → AtRest (dev (x.bspEepromRead addr word env).2.2) ∧
    (dev (x.bspEepromRead addr word env).2.2).store = (dev env).store

/-- An attribute that has nothing to do with the SEEPROM. -/
def Apart (dev : ε → Device) (a : BspAttribute (Process ε)) : Prop :=
  ∀ c : Call (Process ε), c.attribute = a → c.Within (sameDevice dev)

section Frames

variable {x : Ext ε} {dev : ε → Device} {P : Store → Prop}

theorem memoryFrame_of_store {b b' : Process ε} (h : AtRest (dev b.drv.env) → AtRest (dev b'.drv.env) ∧
    (dev b'.drv.env).store = (dev b.drv.env).store) : (memoryFrame dev P).rel b b' := by
  rintro ⟨hrest, hp⟩
  obtain ⟨hrest', hstore⟩ := h hrest
  exact ⟨⟨hrest', hstore ▸ hp⟩, congrArg Store.mem hstore⟩

theorem memoryFrame_of_same {b b' : Process ε} (h : dev b'.drv.env = dev b.drv.env) : (memoryFrame dev P).rel b b' :=
  memoryFrame_of_store fun hrest => by
    rw [h]
    exact ⟨hrest, rfl⟩

/-- What the machine keeps, the function keeps. -/
theorem eeCall_stays (hx : Board x dev) {c : EeCall} (hm : ∀ (m : EeMachine) a m', m.run c = .ok (a, m') →
    P m.store → P m'.store ∧ m'.store.mem = m.store.mem) : Stays (memoryFrame dev P) (c.run x) := by
  rintro b a b' h ⟨hrest, hp⟩
  have hself : Stands dev b ⟨b.drv.status, (dev b.drv.env).store, b.bc_initialised⟩ := ⟨rfl, hrest, rfl, rfl⟩
  have hrel := run_follows hx hself c
  rw [h] at hrel
  cases hmachine : EeMachine.run ⟨b.drv.status, (dev b.drv.env).store, b.bc_initialised⟩ c with
  | ok q =>
    obtain ⟨a', m'⟩ := q
    rw [hmachine] at hrel
    obtain ⟨-, hstands⟩ := hrel
    obtain ⟨hp', hmem⟩ := hm _ _ _ hmachine hp
    exact ⟨⟨hstands.rest, hstands.store ▸ hp'⟩, (congrArg Store.mem hstands.store).trans hmem⟩
  | fault f =>
    rw [hmachine] at hrel
    exact absurd hrel id
  | spin =>
    rw [hmachine] at hrel
    exact absurd hrel id

/-- Calls that leave the whole store are within every such frame. -/
theorem bcInit_stays (hx : Board x dev) : Stays (memoryFrame dev P) (Bsp.bcInit x) := by
  refine stays_answer (g := EeAnswer.err) (eeCall_stays (c := .bcInit) hx fun m a m' h hp => ?_)
  simp only [EeMachine.run] at h
  split at h <;> cases h <;> exact ⟨hp, rfl⟩

theorem bcGet_stays (hx : Board x dev) (config : BcConfig) : Stays (memoryFrame dev P) (bcGet x config) := by
  have hread : Stays (memoryFrame dev P) (bspEE_bc_read x 0 config) := by
    refine stays_answer (g := fun q => EeAnswer.config q.1 q.2) (eeCall_stays (c := .bcRead 0 config) hx fun m a m' h hp => ?_)
    simp only [EeMachine.run] at h
    split at h
    · obtain ⟨q, -, hq⟩ := Res.bind_eq_ok.mp h
      cases hq
      exact ⟨hp, rfl⟩
    · cases h
      exact ⟨hp, rfl⟩
  intro b q b' h
  obtain ⟨err, config'⟩ := q
  refine hread b (if err ≠ IOS_ERROR_OK then BSP_RVAL_CFG_CORRUPTED else BSP_RVAL_OK, config') b' ?_
  unfold bspEE_bc_read
  rw [bspM_bind_ok h]
  by_cases herr : err = IOS_ERROR_OK <;> simp [herr] <;> rfl

/-- What does not touch the driver. -/
theorem modify_stays {α : Type} {f : Process ε → Process ε} {k : PUnit → BspM ε α} (hf : ∀ b, (f b).drv = b.drv)
    (hk : Stays (memoryFrame dev P) (k ⟨⟩)) : Stays (memoryFrame dev P) (modify f >>= k) :=
  (stays_modify fun b => memoryFrame_of_same (by rw [hf])).bind fun _ => hk

theorem readReg_stays (reg : ε → U32) : Stays (memoryFrame dev P) (readReg reg) := by
  intro b a b' h
  cases h
  exact (memoryFrame dev P).refl b

theorem ppcGetPVR_stays (hx : Spared x dev) (pvr : BspPpcPvr) : Stays (memoryFrame dev P) (bspPPCGetPVR x pvr) := by
  unfold bspPPCGetPVR
  refine stays_get.bind fun b => Stays.bind (stays_callExt fun b => ?_) fun q => ?_
  · exact memoryFrame_of_store (hx.eepromRead _ _ b.drv.env)
  dsimp only
  split
  · exact stays_pure _
  refine Stays.bind (stays_callExt fun b => ?_) fun q => ?_
  · exact memoryFrame_of_store (hx.eepromRead _ _ b.drv.env)
  split
  · exact stays_pure _
  · exact stays_pure _

theorem determineWood_stays (hx : Spared x dev) (fullCheck : Bool) :
    Stays (memoryFrame dev P) (determineWoodBasedHardwareVersion x fullCheck) := by
  unfold determineWoodBasedHardwareVersion
  refine (readReg_stays _).bind fun rev => ?_
  dsimp only
  split
  · exact stays_pure _
  split
  · exact stays_pure _
  split
  · -- 0x11 alone looks further
    split
    · exact stays_pure _
    refine Stays.bind (stays_callExt fun b => memoryFrame_of_store (hx.cortado b.drv.env)) fun q => ?_
    split
    · exact stays_pure _
    split
    · exact stays_pure _
    refine stays_get.bind fun b => (ppcGetPVR_stays hx _).bind fun q => modify_stays (fun _ => rfl) ?_
    split
    · exact stays_pure _
    · exact stays_pure _
  split
  · exact stays_pure _
  split
  · exact stays_pure _
  · exact stays_pure _

theorem determineLatte_stays (version : U32) :
    Stays (memoryFrame dev P) (determineLatteBasedHardwareVersion x version) := by
  refine (readReg_stays _).bind fun rev => ?_
  split
  · exact stays_pure _
  · exact stays_pure _

theorem readBoardConfig_stays (hx : Board x dev) (config : BcConfig) :
    Stays (memoryFrame dev P) (bspReadBoardConfig x config) := by
  refine (bcInit_stays hx).bind fun err => ?_
  dsimp only
  split
  · exact stays_pure _
  refine (bcGet_stays hx config).bind fun q => ?_
  split
  · exact stays_pure _
  · exact stays_pure _

theorem getHardwareVersion_stays (hx : Spared x dev) : Stays (memoryFrame dev P) (bspMethodGetHardwareVersion x) := by
  unfold bspMethodGetHardwareVersion
  refine stays_get.bind fun b => ?_
  dsimp only
  split
  · exact stays_pure _
  refine (determineWood_stays hx true).bind fun q => ?_
  split
  · exact stays_pure _
  split
  · refine (determineLatte_stays _).bind fun q => ?_
    split
    · exact modify_stays (fun _ => rfl) (stays_pure _)
    · refine stays_get.bind fun b => (readBoardConfig_stays hx.toBoard _).bind fun q => ?_
      exact modify_stays (fun _ => rfl) (modify_stays (fun _ => rfl) (stays_pure _))
  · exact modify_stays (fun _ => rfl) (stays_pure _)

end Frames

/-! ## Every run -/

/-- The permissions without which a client writes nothing of the EE entity. -/
def eeWriteBits : U32 := BSP_PERMISSIONS_IOS_SUPV_WRITE ||| BSP_PERMISSIONS_INTERNAL

/-- Such a call was made, for a client whose OPEN gives it the permission. -/
def Asked (t : List (Logged ε)) (ok : Call (Process ε) → Prop) : Prop :=
  ∃ before after msg c, t = before ++ (msg, .call c) :: after ∧ ok c ∧
    ∃ (fd : Fin 0x20) (m : IOSMessage), msg.fd = (fd.val : Int) ∧ OpenedBy fd m before ∧
      bswap32 m.command = IOS_OPEN ∧ bswap32 m.arg4 &&& eeWriteBits ≠ 0

/-- The memory is what it was, unless a client that may write the EE entity has written
    "access", and, where programming was disabled, one has enabled it. -/
def Guarded (dev : ε → Device) (b : Process ε) (t : List (Logged ε)) (b' : Process ε) : Prop :=
  (dev b'.drv.env).store.mem = (dev b.drv.env).store.mem ∨
    (Asked t Programs ∧ ((dev b.drv.env).store.enabled = true ∨ Asked t Enables))

/-- A write of the EE entity takes one of the two bits. -/
theorem allowed_write {x : Ext ε} {cb : Callbacks (Process ε)} {inst cred : U32} {a : BspAttribute (Process ε)} {p : Buf}
    (ha : a ∈ bspEE_attributes (eeCallbacks x cb)) (h : (Call.write inst a p).Allowed cred) :
    cred &&& eeWriteBits ≠ 0 := by
  intro hzero
  -- what the bits do not have, none of their parts has
  have hpart : ∀ k : U32, eeWriteBits &&& k = k → cred &&& k = 0 := by
    intro k hk
    rw [← hk, ← BitVec.and_assoc, hzero]
    exact BitVec.zero_and
  have hperm : a.permissions = BSP_PERMISSIONS_IOS_SUPV := by
    simp only [bspEE_attributes, List.mem_cons, List.not_mem_nil, or_false] at ha
    rcases ha with rfl | rfl | rfl <;> rfl
  rcases h with hint | ⟨-, hbits⟩ | hglobal
  · exact hint (hpart _ (by decide))
  · refine hbits ?_
    show cred &&& a.permissions &&& (Op.write fun _ => 0).classBits = 0
    rw [hperm, BitVec.and_assoc]
    exact hpart _ (by decide)
  · exact hglobal

section Guarded

variable [DataMem (Process ε)] {x : Ext ε} {dev : ε → Device} {cb : Callbacks (Process ε)}
  {es : List (BspEntity (Process ε))} {fuel : Nat} {result : U32} {b : Process ε} {arrivals : List Arrival}
  {srv' : Server ε}

/-- A run that goes beyond a frame has asked the EE entity for a write that does. -/
theorem asked_of_changed {P : Store → Prop} {ok : Call (Process ε) → Prop} (hx : Spared x dev)
    (hes : ∀ e ∈ es, ∀ t ∈ e.pAttributes, ∀ a ∈ t, a ∈ bspEE_attributes (eeCallbacks x cb) ∨ Apart dev a)
    (hwithin : ∀ c : Call (Process ε), c.attribute ∈ bspEE_attributes (eeCallbacks x cb) → ¬ ok c →
      c.Within (memoryFrame dev P)) (hok : ∀ c : Call (Process ε), ok c → ∃ inst a p, c = .write inst a p)
    (hrun : (serve fuel x es (Server.boot result b) arrivals).res = .ok srv')
    (hchanged : ¬ (memoryFrame dev P).rel b srv'.process) :
    Asked (serve fuel x es (Server.boot result b) arrivals).trace ok := by
  obtain ⟨before, after, msg, c, hsplit, ⟨e, hmem, t, ht, ha⟩, hc, fd, m, hfd, hopened, hopen, hallowed⟩ :=
    serve_accounted (fun b p b' h => getHardwareVersion_stays hx b p b' h) hrun hchanged
  rcases hes e hmem t ht c.attribute ha with hee | hapart
  swap
  · have hspared : c.Within (sameDevice dev) := hapart c rfl
    exact absurd (hspared.mono fun _ _ => memoryFrame_of_same) hc
  have hyes : ok c := by
    by_contra hno
    exact hc (hwithin c hee hno)
  obtain ⟨inst, a, p, rfl⟩ := hok c hyes
  exact ⟨before, after, msg, _, hsplit, hyes, fd, m, hfd, hopened, hopen, allowed_write hee hallowed⟩

/-- In every run of the message loop, with whatever else the entities do, the SEEPROM's memory
    is guarded. -/
theorem seeprom_guarded (hx : Spared x dev)
    (hes : ∀ e ∈ es, ∀ t ∈ e.pAttributes, ∀ a ∈ t, a ∈ bspEE_attributes (eeCallbacks x cb) ∨ Apart dev a)
    (hrest : AtRest (dev b.drv.env)) (hrun : (serve fuel x es (Server.boot result b) arrivals).res = .ok srv') :
    Guarded dev b (serve fuel x es (Server.boot result b) arrivals).trace srv'.process := by
  have hwrite : ∀ c : Call (Process ε), Programs c ∨ Enables c → ∃ inst a p, c = .write inst a p := by
    intro c hc
    cases c with
    | write inst a p => exact ⟨inst, a, p, rfl⟩
    | _ => exact (hc.elim id id).elim
  by_cases hsame : (dev srv'.process.drv.env).store.mem = (dev b.drv.env).store.mem
  · exact Or.inl hsame
  refine Or.inr ⟨?_, ?_⟩
  · refine asked_of_changed (P := fun _ => True) hx hes (fun c ha hc => ?_) (fun c hc => hwrite c (Or.inl hc)) hrun
      fun hrel => hsame (hrel ⟨hrest, trivial⟩).2
    have hkeeps : ∀ c : EeCall, (∀ inst p, c ≠ .write inst p) → Stays (memoryFrame dev fun _ => True) (c.run x) :=
      fun c hc => eeCall_stays hx.toBoard fun m a m' h _ => ⟨trivial, EeMachine.run_mem h hc⟩
    exact ee_within ha (fun _ _ => hkeeps _ nofun) (fun _ _ => hkeeps _ nofun) (fun _ => hkeeps _ nofun)
      (fun _ => hkeeps _ nofun) (fun hp => absurd hp hc) fun _ _ _ => hkeeps _ nofun
  · cases henabled : (dev b.drv.env).store.enabled with
    | true => exact Or.inl rfl
    | false =>
      refine Or.inr (asked_of_changed (P := fun s => s.enabled = false) hx hes (fun c ha hc => ?_)
        (fun c hc => hwrite c (Or.inr hc)) hrun fun hrel => hsame (hrel ⟨hrest, henabled⟩).2)
      have hkeeps : ∀ c : EeCall, (∀ inst p, c = .control inst p → p.load32 0 ≠ 1) →
          Stays (memoryFrame dev fun s => s.enabled = false) (c.run x) :=
        fun c hc => eeCall_stays hx.toBoard fun m a m' h hd => EeMachine.run_protected h hd hc
      refine ee_within ha (fun _ _ => hkeeps _ nofun) (fun _ _ => hkeeps _ nofun) (fun _ => hkeeps _ nofun)
        (fun _ => hkeeps _ nofun) (fun _ _ _ => hkeeps _ nofun) ?_
      intro inst p henables
      refine hkeeps _ fun inst' p' heq h1 => ?_
      cases heq
      exact hc (henables h1)

end Guarded

/-! ## A board with a SEEPROM -/

theorem seeprom_spared : Spared (Ext.quiet seeprom 0 0) id where
  toBoard := seeprom_board
  cortado := fun _ hrest => ⟨hrest, rfl⟩
  eepromRead := fun _ _ _ hrest => ⟨hrest, rfl⟩

instance : DataMem (Process Device) := ⟨fun _ _ => 0⟩

instance {φ α : Type} : Inhabited (Res φ α) := ⟨.spin⟩

deriving instance Inhabited for Callbacks

/-- The EE entity alone. -/
def eeAlone : List (BspEntity (Process Device)) := [bspEE_entity (eeCallbacks (Ext.quiet seeprom 0 0) default)]

theorem eeAlone_attributes : ∀ e ∈ eeAlone, ∀ t ∈ e.pAttributes, ∀ a ∈ t,
    a ∈ bspEE_attributes (eeCallbacks (Ext.quiet seeprom 0 0) default) := by
  intro e he t ht a ha
  obtain rfl := List.mem_singleton.mp he
  obtain rfl := List.mem_singleton.mp ht
  exact ha

/-- A request for an attribute of its first instance, with the data. -/
def eeRequest (attributeName : CStr) (data : List U8) : Mem := fun a =>
  (cstr "EE" ++ List.replicate 34 0 ++ attributeName ++ List.replicate (32 - attributeName.length) 0 ++
    Buf.ofU32 (bswap32 (BitVec.ofNat 32 data.length)) ++ data).getD a.toNat 0

/-- The fd, the command and the request. -/
def eeIoctl (fd cmd : U32) (request : Mem) : Arrival :=
  ⟨{ consoleTypeMsg with arg0 := bswap32 cmd, clientFD := bswap32 fd }, request⟩

/-- An OPEN with this access. -/
def opening (access : U32) : Arrival := ⟨{ openMsg with arg4 := bswap32 access }, fun _ => 0⟩

/-- One client initialises the control; the other, which may only write, enables
    programming and writes a halfword. -/
def programming : List Arrival :=
  [opening BSP_PERMISSIONS_IOS_SUPV_INIT, opening BSP_PERMISSIONS_IOS_SUPV_WRITE,
    eeIoctl 0 BSP_IOCTL_METHOD_INIT (eeRequest (cstr "control") (Buf.ofU32 0)),
    eeIoctl 1 BSP_IOCTL_METHOD_WRITE (eeRequest (cstr "control") (Buf.ofU32 1)),
    eeIoctl 1 BSP_IOCTL_METHOD_WRITE (eeRequest (cstr "access") (Buf.ofU16 0xCAFE))]

/-- The run has come back, with this in the first halfword of the SEEPROM. -/
def Stored (word : U16) : Res Fault (Server Device) → Bool
  | .ok srv => srv.process.drv.env.store.mem 0 = word
  | .fault _ | .spin => false

theorem stored_iff {word : U16} {r : Res Fault (Server Device)} :
    Stored word r = true ↔ ∃ srv, r = .ok srv ∧ srv.process.drv.env.store.mem 0 = word := by
  cases r <;> simp [Stored]

def blankBoard : Process Device := Process.start (Device.fresh (fun _ => 0) false)

/-- The halfword is written, and both writes are on record. -/
theorem programming_guarded :
    Stored 0xCAFE (serve 0 (Ext.quiet seeprom 0 0) eeAlone (Server.boot 0 blankBoard) programming).res = true ∧
      Asked (serve 0 (Ext.quiet seeprom 0 0) eeAlone (Server.boot 0 blankBoard) programming).trace Programs ∧
      Asked (serve 0 (Ext.quiet seeprom 0 0) eeAlone (Server.boot 0 blankBoard) programming).trace Enables := by
  have hstored :
      Stored 0xCAFE (serve 0 (Ext.quiet seeprom 0 0) eeAlone (Server.boot 0 blankBoard) programming).res = true := by
    decide +kernel
  obtain ⟨srv', hrun, hword⟩ := stored_iff.mp hstored
  have hrest : AtRest (id blankBoard.drv.env) := Device.fresh_atRest (fun _ => 0) false
  rcases seeprom_guarded seeprom_spared (fun e he t ht a ha => Or.inl (eeAlone_attributes e he t ht a ha)) hrest hrun with
    hsame | ⟨hprograms, henabled | henables⟩
  · exact absurd ((congrFun hsame 0).symm.trans hword) (by decide)
  · cases henabled
  · exact ⟨hstored, hprograms, henables⟩

end Iosu.Bsp
