/-
  Iosu.Bsp.Clock — the system clock (`bspGetSystemClockInfo`, `bsp_main.c`).

  The frequency of a Hollywood is told by HW_CLOCKS, that of a Latte by its board
  configuration and LT_PLLSYS. A version that is in the cache answers without a look at
  anything else (`clockInfo_cached`).

  A Bollywood, and a Latte whose PLL speed is not one of two, get the default, which is
  zero, and BSP_RVAL_OK with it: `clockInfo_runs_iff` says for which versions and
  configurations the answer is a clock.
-/

import Iosu.Bsp.Detectors

namespace Iosu.Bsp

open Iosu.Lib Iosu.Lib.Microwire Iosu.Entity Iosu.Ios Iosu.Eeprom

variable {ε : Type}

/-- With the contents of HW_CLOCKS and LT_PLLSYS. -/
structure ClockExt (ε : Type) extends Ext ε where
  hwClocks : ε → U32
  ltPllsys : ε → U32

def HW_CLOCKS_SPEED : U32 := 1 <<< 1
def LT_PLLSYS_HALFSPEED : U32 := 1 <<< 0

structure BspSystemClockInfo where
  systemClockFrequency : U32
  timerFrequency : U32
  deriving DecidableEq, Repr

def BSPDefaultClockdata : BspSystemClockInfo := ⟨0, 0⟩

section Functions

variable (x : ClockExt ε)

/-- `clock->systemClockFrequency` of a Hollywood. -/
def hollywoodClock (hwver : U32) : BspM ε U32 := do
  let clocks ← readReg x.hwClocks
  let frequency := if clocks &&& HW_CLOCKS_SPEED ≠ 0 then 162000000 else 243000000
  if hwver = BSP_HARDWARE_VERSION_HOLLYWOOD_CORTADO_ESPRESSO ∨ hwver = BSP_HARDWARE_VERSION_HOLLYWOOD_CORTADO then
    return 167000000
  return frequency

/-- That of a Latte at full speed; a speed that is not listed leaves the default. -/
def latteClock (config : BcConfig) : U32 :=
  if 2 < config.version then
    if config.sysPllSpeed = 0xF0 then 239625000
    else if config.sysPllSpeed = 0xF8 then 248625000
    else BSPDefaultClockdata.systemClockFrequency
  else 243000000

/-- The answer and `*clock`. -/
def bspGetSystemClockInfo : BspM ε (BspRval × BspSystemClockInfo) := do
  let clock := BSPDefaultClockdata
  let (ret, hwver) ← bspMethodGetHardwareVersion x.toExt
  if ret ≠ BSP_RVAL_OK then return (ret, clock)
  let frequency ←
    if BSP_IS_HOLLYWOOD hwver ∨ BSP_IS_HOLLYWOOD_ES1 hwver then hollywoodClock x hwver
    else if BSP_IS_LATTE hwver then do
      let full := latteClock (← get).bspBoardConfig
      let pllsys ← readReg x.ltPllsys
      pure (if pllsys &&& LT_PLLSYS_HALFSPEED ≠ 0 then full / 2 else full)
    else pure clock.systemClockFrequency
  return (BSP_RVAL_OK, ⟨frequency, frequency / 128⟩)

end Functions

section Runs

variable {x : ClockExt ε} {b : Process ε}

/-- The frequency of a Hollywood, by HW_CLOCKS; a Cortado has one of its own. -/
def hollywoodFrequency (x : ClockExt ε) (hwver : U32) (env : ε) : U32 :=
  if hwver = BSP_HARDWARE_VERSION_HOLLYWOOD_CORTADO_ESPRESSO ∨ hwver = BSP_HARDWARE_VERSION_HOLLYWOOD_CORTADO then 167000000
  else if x.hwClocks env &&& HW_CLOCKS_SPEED ≠ 0 then 162000000 else 243000000

theorem hollywoodClock_reads (hwver : U32) (b : Process ε) :
    hollywoodClock x hwver b = .ok (hollywoodFrequency x hwver b.drv.env, b) := by
  unfold hollywoodClock hollywoodFrequency
  rw [bspM_bind_ok (show readReg x.hwClocks b = .ok (x.hwClocks b.drv.env, b) from rfl)]
  split
  · rfl
  · rfl

/-- Nothing is changed. -/
theorem clockInfo_cached (h : b.bspHardwareVersion ≠ 0) :
    ∃ clock, bspGetSystemClockInfo x b = .ok ((BSP_RVAL_OK, clock), b) := by
  unfold bspGetSystemClockInfo
  dsimp only
  rw [bspM_bind_ok (method_cached h)]
  dsimp only
  rw [if_neg (by decide)]
  split
  · rw [bspM_bind_ok (hollywoodClock_reads b.bspHardwareVersion b)]
    exact ⟨_, rfl⟩
  split
  · exact ⟨_, rfl⟩
  · exact ⟨_, rfl⟩

/-! ## A clock that runs -/

/-- `clock->systemClockFrequency` with BSP_RVAL_OK. -/
def systemClock (x : ClockExt ε) (hwver : U32) (b : Process ε) : U32 :=
  if BSP_IS_HOLLYWOOD hwver ∨ BSP_IS_HOLLYWOOD_ES1 hwver then hollywoodFrequency x hwver b.drv.env
  else if BSP_IS_LATTE hwver then
    if x.ltPllsys b.drv.env &&& LT_PLLSYS_HALFSPEED ≠ 0 then latteClock b.bspBoardConfig / 2
    else latteClock b.bspBoardConfig
  else 0

/-- The clock of a version that is known. -/
theorem clockInfo_known {hwver : U32} {b₁ : Process ε}
    (h : bspMethodGetHardwareVersion x.toExt b = .ok ((BSP_RVAL_OK, hwver), b₁)) :
    bspGetSystemClockInfo x b =
      .ok ((BSP_RVAL_OK, ⟨systemClock x hwver b₁, systemClock x hwver b₁ / 128⟩), b₁) := by
  unfold bspGetSystemClockInfo systemClock
  dsimp only
  rw [bspM_bind_ok h]
  dsimp only
  rw [if_neg (by decide)]
  split
  · rw [bspM_bind_ok (hollywoodClock_reads hwver b₁)]
    rfl
  split
  · rfl
  · rfl

/-- Without a version there is no clock. -/
theorem clockInfo_ok {clock : BspSystemClockInfo} {b' : Process ε}
    (h : bspGetSystemClockInfo x b = .ok ((BSP_RVAL_OK, clock), b')) :
    ∃ hwver, bspMethodGetHardwareVersion x.toExt b = .ok ((BSP_RVAL_OK, hwver), b') ∧
      clock = ⟨systemClock x hwver b', systemClock x hwver b' / 128⟩ := by
  have hinfo := h
  unfold bspGetSystemClockInfo at h
  dsimp only at h
  rw [bspM_bind] at h
  obtain ⟨⟨⟨ret, hwver⟩, b₁⟩, hver, hrest⟩ := Res.bind_eq_ok.mp h
  by_cases hret : ret = BSP_RVAL_OK
  · subst hret
    rw [clockInfo_known hver] at hinfo
    cases hinfo
    exact ⟨hwver, hver, rfl⟩
  · dsimp only at hrest
    rw [if_pos hret] at hrest
    cases hrest
    exact absurd rfl hret

/-- The versions and configurations with a clock. -/
def HasClock (hwver : U32) (config : BcConfig) : Prop :=
  BSP_IS_HOLLYWOOD hwver ∨ BSP_IS_HOLLYWOOD_ES1 hwver ∨
    (BSP_IS_LATTE hwver ∧ (config.version ≤ 2 ∨ config.sysPllSpeed = 0xF0 ∨ config.sysPllSpeed = 0xF8))

theorem latteClock_cases (config : BcConfig) :
    (config.version ≤ 2 ∨ config.sysPllSpeed = 0xF0 ∨ config.sysPllSpeed = 0xF8) ∧
        (latteClock config = 239625000 ∨ latteClock config = 248625000 ∨ latteClock config = 243000000) ∨
      ¬ (config.version ≤ 2 ∨ config.sysPllSpeed = 0xF0 ∨ config.sysPllSpeed = 0xF8) ∧ latteClock config = 0 := by
  unfold latteClock
  split
  · next hver =>
    split
    · next hf0 => exact Or.inl ⟨Or.inr (Or.inl hf0), Or.inl rfl⟩
    split
    · next hf8 => exact Or.inl ⟨Or.inr (Or.inr hf8), Or.inr (Or.inl rfl)⟩
    · next hf0 hf8 =>
      refine Or.inr ⟨fun hlisted => ?_, rfl⟩
      rcases hlisted with hle | hf0' | hf8'
      · exact BitVec.not_le.mpr hver hle
      · exact hf0 hf0'
      · exact hf8 hf8'
  · next hver => exact Or.inl ⟨Or.inl (BitVec.not_lt.mp hver), Or.inr (Or.inr rfl)⟩

theorem systemClock_runs {hwver : U32} {b : Process ε} (h : HasClock hwver b.bspBoardConfig) :
    systemClock x hwver b ≠ 0 ∧ systemClock x hwver b / 128 ≠ 0 := by
  unfold systemClock
  split
  · unfold hollywoodFrequency
    split
    · decide
    split
    · decide
    · decide
  · next hnot =>
    obtain ⟨hlatte, hspeed⟩ := (h.resolve_left fun hh => hnot (Or.inl hh)).resolve_left fun hh => hnot (Or.inr hh)
    rw [if_pos hlatte]
    obtain ⟨-, hclock⟩ := (latteClock_cases b.bspBoardConfig).resolve_right fun hh => hh.1 hspeed
    rcases hclock with hclock | hclock | hclock
    all_goals
      rw [hclock]
      split
      · decide
      · decide

theorem systemClock_stops {hwver : U32} {b : Process ε} (h : ¬ HasClock hwver b.bspBoardConfig) :
    systemClock x hwver b = 0 := by
  unfold HasClock at h
  unfold systemClock
  rw [if_neg fun hh => h (hh.elim Or.inl fun hes1 => Or.inr (Or.inl hes1))]
  split
  · next hlatte =>
    obtain ⟨-, hclock⟩ := (latteClock_cases b.bspBoardConfig).resolve_left fun hh =>
      h (Or.inr (Or.inr ⟨hlatte, hh.1⟩))
    rw [hclock]
    split
    · rfl
    · rfl
  · rfl

/-- With BSP_RVAL_OK, both frequencies are there and go together exactly when the version
    and the board configuration behind its detection have a clock. -/
theorem clockInfo_runs_iff (x : ClockExt ε) (b : Process ε) :
    (∀ clock b', bspGetSystemClockInfo x b = .ok ((BSP_RVAL_OK, clock), b') →
        clock.systemClockFrequency ≠ 0 ∧ clock.timerFrequency ≠ 0 ∧
          clock.timerFrequency = clock.systemClockFrequency / 128) ↔
      ∀ hwver b₁, bspMethodGetHardwareVersion x.toExt b = .ok ((BSP_RVAL_OK, hwver), b₁) →
        HasClock hwver b₁.bspBoardConfig := by
  refine ⟨fun h hwver b₁ hver => ?_, fun h clock b' hinfo => ?_⟩
  · by_contra hnone
    exact (h _ _ (clockInfo_known hver)).1 (systemClock_stops hnone)
  · obtain ⟨hwver, hver, rfl⟩ := clockInfo_ok hinfo
    obtain ⟨hsystem, htimer⟩ := systemClock_runs (x := x) (h hwver b' hver)
    exact ⟨hsystem, htimer, rfl⟩

end Runs

/-- A Bollywood is told of a clock at 0 Hz. -/
def bollywoodClock : ClockExt Device := { Ext.quiet seeprom 0x20 0 with hwClocks := fun _ => 0, ltPllsys := fun _ => 0 }

theorem bollywood_stops :
    ¬ ∀ clock b', bspGetSystemClockInfo bollywoodClock (boardProcess fun _ => 0) = .ok ((BSP_RVAL_OK, clock), b') →
      clock.systemClockFrequency ≠ 0 ∧ clock.timerFrequency ≠ 0 ∧
        clock.timerFrequency = clock.systemClockFrequency / 128 := by
  intro h
  have hver : bspMethodGetHardwareVersion bollywoodClock.toExt (boardProcess fun _ => 0) =
      .ok ((BSP_RVAL_OK, BSP_HARDWARE_VERSION_BOLLYWOOD),
        { boardProcess fun _ => 0 with bspHardwareVersion := BSP_HARDWARE_VERSION_BOLLYWOOD }) := rfl
  obtain ⟨hsystem, -⟩ := h _ _ (clockInfo_known hver)
  exact hsystem rfl

end Iosu.Bsp
