/-
  Iosu.Bsp.EeProvision — a board configuration, written and read back.

  `provision` is what a client does to give a board its `BC_CONFIG`: it sets the control up,
  enables programming, writes the structure's halfwords from 0x1c on, and disables programming
  again. Whatever the driver and the SEEPROM were before, "bc" then reads exactly that
  structure (`provisioned_reads_back`), and answers BSP_RVAL_OK where the structure's CRC is
  the one that `bcGet` asks for: of the bytes behind it, and two zeros.
-/

import Iosu.Bsp.EeEntity

namespace Iosu.Bsp

open Iosu.Lib Iosu.Lib.Microwire Iosu.Lib.Microwire.Device Iosu.Entity Iosu.Ios Iosu.Eeprom Iosu.Libraries

variable {ε : Type}

/-! ## The calls -/

/-- A request's data: a halfword, and a word. -/
def dataU16 (w : U16) : Buf := Buf.store (fun _ => 0) (Buf.ofU16 w)
def dataU32 (w : U32) : Buf := Buf.store (fun _ => 0) (Buf.ofU32 w)

/-- The halfwords, the first of them at `i + 0x1c`. -/
def writesFrom : Nat → List U16 → List EeCall
  | _, [] => []
  | i, w :: ws => .write (BitVec.ofNat 32 (i + 0x1C)) (dataU16 w) :: writesFrom (i + 1) ws

def provision (ws : List U16) : List EeCall :=
  .controlInit 0 :: .control 0 (dataU32 1) :: (writesFrom 0 ws ++ [.control 0 (dataU32 2)])

/-! ## The memory behind them -/

def programmed (mem : U8 → U16) : Nat → List U16 → U8 → U16
  | _, [] => mem
  | i, w :: ws => programmed (Function.update mem (BitVec.ofNat 8 (i + 0x1C)) w) (i + 1) ws

theorem address_injective {i k : Nat} (hi : i < 0x24) (hk : k < 0x24)
    (h : BitVec.ofNat 8 (i + 0x1C) = BitVec.ofNat 8 (k + 0x1C)) : i = k := by
  have hnat := congrArg BitVec.toNat h
  simp only [BitVec.toNat_ofNat] at hnat
  omega

/-- What is behind the last write. -/
theorem programmed_below (mem : U8 → U16) (ws : List U16) {i k : Nat} (hk : k < i) (hi : i + ws.length ≤ 0x24) :
    programmed mem i ws (BitVec.ofNat 8 (k + 0x1C)) = mem (BitVec.ofNat 8 (k + 0x1C)) := by
  induction ws generalizing mem i with
  | nil => rfl
  | cons w ws ih =>
    rw [List.length_cons] at hi
    have hne : BitVec.ofNat 8 (k + 0x1C) ≠ BitVec.ofNat 8 (i + 0x1C) := by
      intro heq
      have := address_injective (by omega) (by omega) heq
      omega
    unfold programmed
    rw [ih _ (by omega) (by omega), Function.update_of_ne hne]

theorem programmed_get (mem : U8 → U16) (ws : List U16) {i k : Nat} (hk : k < ws.length) (hi : i + ws.length ≤ 0x24) :
    programmed mem i ws (BitVec.ofNat 8 (i + k + 0x1C)) = ws.getD k 0 := by
  induction ws generalizing mem i k with
  | nil => exact absurd hk (Nat.not_lt_zero k)
  | cons w ws ih =>
    rw [List.length_cons] at hk hi
    unfold programmed
    cases k with
    | zero =>
      rw [Nat.add_zero, programmed_below _ ws (Nat.lt_succ_self i) (by omega), Function.update_self]
      rfl
    | succ k =>
      rw [show i + (k + 1) = i + 1 + k by omega, ih _ (by omega) (by omega)]
      rfl

/-! ## The run of the machine -/

theorem eeAddress_ofNat (n : Nat) : eeAddress (BitVec.ofNat 32 n) = BitVec.ofNat 8 n := by
  apply BitVec.eq_of_toNat_eq
  have hmask : (n % 2 ^ 32) &&& (0xFF : U32).toNat = n % 2 ^ 32 % 2 ^ 8 := Nat.and_two_pow_sub_one_eq_mod _ 8
  simp only [eeAddress, BitVec.toNat_setWidth, BitVec.toNat_and, BitVec.toNat_ofNat, hmask]
  omega

theorem load16_dataU16 (w : U16) : (dataU16 w).load16 0 = w := by
  have h := Buf.load16_store (fun _ => 0) [w] (i := 0) (by simp)
  simpa [dataU16] using h

theorem load32_dataU32 (w : U32) : (dataU32 w).load32 0 = w := Buf.load32_store _ w

theorem EeMachine.step_ok {m m' : EeMachine} {c : EeCall} {a : EeAnswer} (h : m.run c = .ok (a, m')) :
    m.step c = ⟨[(c, a)], .ok m'⟩ := by
  unfold EeMachine.step
  rw [h, Run.lift_ok_bind]
  rfl

/-- A first call, and the calls behind it. -/
theorem EeMachine.iter_cons {m m₁ m' : EeMachine} {c : EeCall} {cs : List EeCall} {a : EeAnswer}
    (h : m.run c = .ok (a, m₁)) (hrest : (Run.iter EeMachine.step m₁ cs).res = .ok m') :
    (Run.iter EeMachine.step m (c :: cs)).res = .ok m' := by
  refine Run.bind_res_ok.mpr ⟨m₁, ?_, hrest⟩
  rw [EeMachine.step_ok h]

theorem writes_run (ws : List U16) (i : Nat) {m : EeMachine} (hm : m.status = .opened) (he : m.store.enabled = true) :
    (Run.iter EeMachine.step m (writesFrom i ws)).res =
      .ok { m with store := { m.store with mem := programmed m.store.mem i ws } } := by
  induction ws generalizing i m with
  | nil => rfl
  | cons w ws ih =>
    have hrun : m.run (.write (BitVec.ofNat 32 (i + 0x1C)) (dataU16 w)) = .ok (.rval BSP_RVAL_OK,
        { m with store := { m.store with mem := Function.update m.store.mem (BitVec.ofNat 8 (i + 0x1C)) w } }) := by
      simp only [EeMachine.run, EeMachine.whenOpen_opened hm, eeAddress_ofNat, load16_dataU16]
      simp [Store.program, he]
    exact EeMachine.iter_cons hrun (ih (i + 1) hm he)

/-- The run that gives the board its words, from wherever the machine is. -/
theorem provision_run (ws : List U16) (m : EeMachine) :
    (Run.iter EeMachine.step m (provision ws)).res =
      .ok { m with status := .opened, store := ⟨programmed m.store.mem 0 ws, false⟩ } := by
  have henable : ∀ n : EeMachine, n.status = .opened → n.run (.control 0 (dataU32 1)) =
      .ok (.rval BSP_RVAL_OK, { n with store := { n.store with enabled := true } }) := by
    intro n hn
    simp [EeMachine.run, load32_dataU32, EeMachine.whenOpen_opened hn]
  have hdisable : ∀ n : EeMachine, n.status = .opened → n.run (.control 0 (dataU32 2)) =
      .ok (.rval BSP_RVAL_OK, { n with store := { n.store with enabled := false } }) := by
    intro n hn
    simp [EeMachine.run, load32_dataU32, EeMachine.whenOpen_opened hn]
  refine EeMachine.iter_cons rfl (EeMachine.iter_cons (henable _ rfl) ?_)
  rw [Run.iter_append, Run.bind_res, writes_run ws 0 rfl rfl]
  exact EeMachine.iter_cons (hdisable _ rfl) rfl

/-! ## What is read back -/

/-- The structure's CRC is the one that `bcGet` asks for. -/
def BcConfig.Sealed (config : BcConfig) : Prop := config.crc = Crc.crc32 (config.bytes.drop 4 ++ [0, 0])

instance (config : BcConfig) : Decidable config.Sealed := inferInstanceAs (Decidable (_ = _))

section Words

variable {config : BcConfig} (mem : U8 → U16)

theorem programmed_words {k : Nat} (hk : k < 20) :
    programmed mem 0 config.words (BitVec.ofNat 8 (k + 0x1C)) = config.words.getD k 0 := by
  have h := programmed_get mem config.words (i := 0) (k := k) (by simpa using hk) (by simp)
  rwa [Nat.zero_add] at h

theorem programmed_config : BcConfig.ofWords (imageWords (programmed mem 0 config.words) (2 * 20)) = config := by
  apply BcConfig.ofWords_words
  intro i hi
  have hword := imageWords_get (programmed mem 0 config.words) (2 * 20) ⟨i, by omega⟩
  rw [vector_get] at hword
  rw [hword, if_pos (by simpa using hi), programmed_words mem hi]

theorem programmed_crc : storedCrc (programmed mem 0 config.words) = config.crc := by
  have h0 : programmed mem 0 config.words (BitVec.ofNat 8 (0 + 0x1C)) = config.words.getD 0 0 :=
    programmed_words mem (by omega)
  have h1 : programmed mem 0 config.words (BitVec.ofNat 8 (1 + 0x1C)) = config.words.getD 1 0 :=
    programmed_words mem (by omega)
  unfold storedCrc
  rw [show (0x1C : U8) = BitVec.ofNat 8 (0 + 0x1C) from rfl, show (0x1D : U8) = BitVec.ofNat 8 (1 + 0x1C) from rfl, h0, h1]
  exact halves_append config.crc

theorem programmed_body : body (programmed mem 0 config.words) (2 * 20) = config.bytes.drop 4 := by
  have hwords : ∀ i ∈ List.range ((2 * 20 - 4) / 2),
      Buf.ofU16 (programmed mem 0 config.words (BitVec.ofNat 8 (0x1E + i))) = Buf.ofU16 (config.words.getD (i + 2) 0) := by
    intro i hi
    have hlt : i < 18 := by simpa using hi
    rw [show 0x1E + i = i + 2 + 0x1C by omega, programmed_words mem (by omega)]
  unfold body
  rw [List.flatMap_congr hwords]
  rfl

/-- `bcGet` of a board that holds the structure. -/
theorem boardOf_programmed (hsize : config.size.toNat / 2 = 20) (hversion : config.version ≠ 0) (out : BcConfig) :
    boardOf (programmed mem 0 config.words) out =
      .ok (if config.Sealed then IOS_ERROR_OK else IOS_ERROR_INVALID, config) := by
  have hword : programmed mem 0 config.words 0x1E = config.size := programmed_words mem (k := 2) (by omega)
  have haccepted : Accepted 20 (imageWords (programmed mem 0 config.words) (2 * 20)) ↔ config.Sealed := by
    rw [accepted_iff _ (by omega) (by omega), programmed_crc, programmed_body]
    rfl
  have hpatched : patched (imageWords (programmed mem 0 config.words) (2 * 20)) = config := by
    unfold patched
    rw [programmed_config, if_neg hversion]
  unfold boardOf
  simp only [hword, hsize, haccepted, hpatched]
  rfl

end Words

/-- What a client has given a board, "bc" reads back, on whatever SEEPROM and from whatever
    state of the driver; the answer is BSP_RVAL_OK exactly for a structure that is sealed. -/
theorem provisioned_reads_back {x : Ext ε} {dev : ε → Device} (hx : Board x dev) {b : Process ε} {m : EeMachine}
    (h : Stands dev b m) {config : BcConfig} (hsize : config.size.toNat / 2 = 20) (hversion : config.version ≠ 0)
    (inst : U32) (out : BcConfig) :
    ∃ t b', Run.iter (eeStep x) b (provision config.words ++ [.bcRead inst out]) =
      ⟨t ++ [(.bcRead inst out, .config (if config.Sealed then BSP_RVAL_OK else BSP_RVAL_CFG_CORRUPTED) config)], .ok b'⟩ ∧
      (dev b'.drv.env).store.enabled = false := by
  have hprovision := provision_run config.words m
  have hread : EeMachine.run { m with status := .opened, store := ⟨programmed m.store.mem 0 config.words, false⟩ }
      (.bcRead inst out) =
      .ok (.config (if config.Sealed then BSP_RVAL_OK else BSP_RVAL_CFG_CORRUPTED) config,
        { m with status := .opened, store := ⟨programmed m.store.mem 0 config.words, false⟩ }) := by
    simp only [EeMachine.run, if_true, boardOf_programmed _ hsize hversion out, Res.ok_bind]
    by_cases hs : config.Sealed
    · simp [hs]
    · simp [hs]
      decide
  have hlast : Run.iter EeMachine.step { m with status := .opened, store := ⟨programmed m.store.mem 0 config.words, false⟩ }
      [.bcRead inst out] = ⟨[(.bcRead inst out, .config (if config.Sealed then BSP_RVAL_OK else BSP_RVAL_CFG_CORRUPTED) config)],
        .ok { m with status := .opened, store := ⟨programmed m.store.mem 0 config.words, false⟩ }⟩ := by
    unfold Run.iter
    rw [EeMachine.step_ok hread]
    rfl
  have hsim := Run.sim_iter (fun _ _ c h => step_follows hx h c) (provision config.words ++ [.bcRead inst out]) h
  rw [Run.iter_append EeMachine.step, Run.bind_ok _ hprovision, hlast] at hsim
  obtain ⟨b', hrun, hstands⟩ := hsim.eq_ok
  exact ⟨_, b', hrun, by rw [hstands.store]⟩

/-- A structure with nothing in it but a size and a version, on a blank board. -/
theorem blank_reads_back :
    ∃ t b', Run.iter (eeStep (Ext.quiet seeprom 0 0)) (Process.start (Device.fresh (fun _ => 0xFFFF) false))
        (provision ({ BcConfig.zero with size := 0x28, version := 1 } : BcConfig).words ++ [.bcRead 0 BcConfig.zero]) =
      ⟨t ++ [(.bcRead 0 BcConfig.zero, .config
        (if ({ BcConfig.zero with size := 0x28, version := 1 } : BcConfig).Sealed then BSP_RVAL_OK else BSP_RVAL_CFG_CORRUPTED)
        { BcConfig.zero with size := 0x28, version := 1 })], .ok b'⟩ ∧ b'.drv.env.store.enabled = false :=
  provisioned_reads_back seeprom_board (start_stands _ _) (by decide) (by decide) 0 BcConfig.zero

end Iosu.Bsp
