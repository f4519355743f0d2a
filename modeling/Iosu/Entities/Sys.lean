/-
  Iosu.Entities.Sys — the IOP's clock multiplier (`bspSys_iop2x_write`, `bspSys_iop2x_read`,
  `bsp_sys.c`).

  A write asks for 1x or 2x, or, without data, for what the board's configuration has. It is
  the kernel that changes the clock, for a Latte from A3X on, and 2x is not to be had in power
  mode 2. An error of the request is kept in `ret` and the power mode is asked for all the
  same, so what is returned is that error and BSPGetPowerMode's in one word. `iop2x_run`: over
  any writes the register shows what the kernel took last, and that was asked for.
-/

import Iosu.Bsp.Ready

namespace Iosu.Entities

open Iosu.Lib Iosu.Libc Iosu.Entity Iosu.Ios Iosu.Bsp

variable {ε : Type}

def BSP_RVAL_OS_ERROR : BspRval := 64

def BSP_LATTE_REV_A3X : U32 := 0x23

def BSP_LATTE_REV (hwver : U32) : U32 := (hwver &&& 0xFF000000) >>> 24

def LT_IOP2X_ENABLE : U32 := 0x04

/-- What lies outside of the source here, besides. -/
structure SysExt (ε : Type) extends Ext ε where
  /-- The answer, and what it leaves in `*power`. -/
  bspGetPowerMode : ε → BspRval × U32 × ε
  iosSetIop2xState : Bool → ε → IosError × ε
  /-- The contents of LT_IOP2X. -/
  ltIop2x : ε → U32

/-- A call of one of the two. -/
inductive SysCall where
  | getPowerMode (ret : BspRval) (power : U32)
  | setIop2xState (iop2x : Bool) (ret : IosError)
  deriving DecidableEq

abbrev SysM (ε : Type) := StateT (Process ε) (Run SysCall Fault)

/-! ## The methods -/

section Functions

variable (x : SysExt ε)

/-- `ret` and `iop2x` behind the two ways of asking. -/
def iop2xRequest (pWrittenData : Option Buf) (config : BcConfig) : BspRval × Bool :=
  match pWrittenData with
  | some newIop =>
    if newIop 0 = 1 then (BSP_RVAL_OK, false)
    else if newIop 0 = 2 then (BSP_RVAL_OK, true)
    else (BSP_RVAL_INVALID_PARAMETER, false)
  | none =>
    if config.iopClockMultiplier = 1 then (BSP_RVAL_OK, false)
    else if config.iopClockMultiplier = 2 then (BSP_RVAL_OK, true)
    else (BSP_RVAL_BOARD_CONFIG_INVALID, false)

def bspGetPowerMode : SysM ε (BspRval × U32) := fun b => do
  let (ret, power, env) := x.bspGetPowerMode b.drv.env
  Run.emit (.getPowerMode ret power)
  return ((ret, power), { b with drv := { b.drv with env := env } })

def iosSetIop2xState (iop2x : Bool) : SysM ε IosError := fun b => do
  let (ret, env) := x.iosSetIop2xState iop2x b.drv.env
  Run.emit (.setIop2xState iop2x ret)
  return (ret, { b with drv := { b.drv with env := env } })

/-- The write from BSPGetPowerMode on. -/
def iop2xSet (ret : BspRval) (iop2x : Bool) : SysM ε BspRval := do
  let (err, power) ← bspGetPowerMode x
  let ret := ret ||| err
  if ret ≠ BSP_RVAL_OK then return ret
  let iop2x := if power = 2 then false else iop2x
  let ret ← iosSetIop2xState x iop2x
  if ret ≠ IOS_ERROR_OK then return BSP_RVAL_OS_ERROR
  return BSP_RVAL_OK

def bspSys_iop2x_write (pWrittenData : Option Buf) : SysM ε BspRval := do
  let (ret, hwver) ← fun b => Run.lift (bspMethodGetHardwareVersion x.toExt b)
  if ret ≠ BSP_RVAL_OK then return ret
  if BSP_IS_LATTE hwver = false then return BSP_RVAL_OK
  if BSP_LATTE_REV hwver < BSP_LATTE_REV_A3X then return BSP_RVAL_OK
  let (ret, iop2x) := iop2xRequest pWrittenData (← get).bspBoardConfig
  iop2xSet x ret iop2x

/-- LT_IOP2X has its enable bit set. -/
def doubled (env : ε) : Bool := x.ltIop2x env &&& LT_IOP2X_ENABLE ≠ 0

def bspSys_iop2x_read : BspM ε (BspRval × U8) := do
  let iop2x := if doubled x (← get).drv.env then 2 else 1
  return (BSP_RVAL_OK, iop2x)

end Functions

/-! ## One write -/

/-- A Latte that has the multiplier. -/
def Scales (hwver : U32) : Prop := BSP_IS_LATTE hwver = true ∧ ¬ BSP_LATTE_REV hwver < BSP_LATTE_REV_A3X

instance (hwver : U32) : Decidable (Scales hwver) := inferInstanceAs (Decidable (_ ∧ _))

/-- A write, with the calls that it made and its answer. -/
structure IopWrite where
  pWrittenData : Option Buf
  calls : List SysCall
  ret : BspRval

/-- What a write comes to, by the version and the board's configuration. -/
inductive Iop2xDoes (hwver : U32) (config : BcConfig) : IopWrite → Prop
  /-- Without the multiplier, all that is asked for is well. -/
  | ignored {data : Option Buf} : ¬ Scales hwver → Iop2xDoes hwver config ⟨data, [], BSP_RVAL_OK⟩
  | failed {data : Option Buf} {err : BspRval} {power : U32} :
      Scales hwver → (iop2xRequest data config).1 ||| err ≠ BSP_RVAL_OK →
      Iop2xDoes hwver config ⟨data, [.getPowerMode err power], (iop2xRequest data config).1 ||| err⟩
  | set {data : Option Buf} {power : U32} {ret : IosError} :
      Scales hwver → (iop2xRequest data config).1 = BSP_RVAL_OK →
      Iop2xDoes hwver config ⟨data, [.getPowerMode BSP_RVAL_OK power,
        .setIop2xState (if power = 2 then false else (iop2xRequest data config).2) ret],
        if ret ≠ IOS_ERROR_OK then BSP_RVAL_OS_ERROR else BSP_RVAL_OK⟩

/-- What the kernel took of the calls, if anything. -/
def takenOf : List SysCall → Option Bool
  | [] => none
  | .getPowerMode _ _ :: calls => takenOf calls
  | .setIop2xState iop2x ret :: calls => (takenOf calls).or (if ret = IOS_ERROR_OK then some iop2x else none)

/-- IOS_SetIOP2xState sets the bit, or says that it does not; BSPGetPowerMode leaves it. -/
structure TakesIop2x (x : SysExt ε) : Prop where
  set : ∀ iop2x env, doubled x (x.iosSetIop2xState iop2x env).2 =
    if (x.iosSetIop2xState iop2x env).1 = IOS_ERROR_OK then iop2x else doubled x env
  getPowerMode : ∀ env, doubled x (x.bspGetPowerMode env).2.2 = doubled x env

section Writes

variable {x : SysExt ε} {b b' : Process ε}

theorem iop2xSet_does (hx : TakesIop2x x) (ret : BspRval) (iop2x : Bool) (b : Process ε) :
    (∃ err power env, ret ||| err ≠ BSP_RVAL_OK ∧ doubled x env = doubled x b.drv.env ∧
      iop2xSet x ret iop2x b = ⟨[.getPowerMode err power], .ok (ret ||| err, b.inEnv env)⟩) ∨
    (∃ power set env, ret = BSP_RVAL_OK ∧
      doubled x env = (takenOf [.setIop2xState (if power = 2 then false else iop2x) set]).getD (doubled x b.drv.env) ∧
      iop2xSet x ret iop2x b =
        ⟨[.getPowerMode BSP_RVAL_OK power, .setIop2xState (if power = 2 then false else iop2x) set],
          .ok (if set ≠ IOS_ERROR_OK then BSP_RVAL_OS_ERROR else BSP_RVAL_OK, b.inEnv env)⟩) := by
  have hmode := hx.getPowerMode b.drv.env
  rcases hpower : x.bspGetPowerMode b.drv.env with ⟨err, power, env⟩
  rw [hpower] at hmode
  have hcall : bspGetPowerMode x b = ⟨[.getPowerMode err power], .ok ((err, power), b.inEnv env)⟩ := by
    unfold bspGetPowerMode
    rw [hpower]
    rfl
  unfold iop2xSet
  rw [Run.stateful_bind_ok hcall]
  dsimp only
  by_cases hret : ret ||| err ≠ BSP_RVAL_OK
  · refine Or.inl ⟨err, power, env, hret, hmode, ?_⟩
    rw [if_pos hret]
    rfl
  · obtain ⟨rfl, rfl⟩ := BitVec.or_eq_zero_iff.mp (not_not.mp hret)
    have hset := hx.set (if power = 2 then false else iop2x) env
    rcases hstate : x.iosSetIop2xState (if power = 2 then false else iop2x) env with ⟨set, env'⟩
    rw [hstate] at hset
    have hcall' : iosSetIop2xState x (if power = 2 then false else iop2x) (b.inEnv env) =
        ⟨[.setIop2xState (if power = 2 then false else iop2x) set], .ok (set, b.inEnv env')⟩ := by
      unfold iosSetIop2xState
      rw [show (b.inEnv env).drv.env = env from rfl, hstate]
      rfl
    refine Or.inr ⟨power, set, env', rfl, ?_, ?_⟩
    · rw [hset, hmode]
      by_cases hok : set = IOS_ERROR_OK <;> simp [takenOf, hok]
    · rw [if_neg hret, Run.stateful_bind_ok hcall']
      by_cases hok : set ≠ IOS_ERROR_OK
      · simp only [if_pos hok]
        rfl
      · simp only [if_neg hok]
        rfl

/-- With the version known, a write ends, and the clock shows what the kernel took of it. -/
theorem iop2x_write_does (hx : TakesIop2x x) (hknown : b.bspHardwareVersion ≠ 0) (data : Option Buf) :
    ∃ ret env, (bspSys_iop2x_write x data b).res = .ok (ret, b.inEnv env) ∧
      doubled x env = (takenOf (bspSys_iop2x_write x data b).trace).getD (doubled x b.drv.env) ∧
      Iop2xDoes b.bspHardwareVersion b.bspBoardConfig ⟨data, (bspSys_iop2x_write x data b).trace, ret⟩ := by
  have hversion : (fun b => Run.lift (bspMethodGetHardwareVersion x.toExt b) : SysM ε (BspRval × U32)) b =
      ⟨[], .ok ((BSP_RVAL_OK, b.bspHardwareVersion), b)⟩ := by
    show Run.lift (bspMethodGetHardwareVersion x.toExt b) = _
    rw [getHardwareVersion_known hknown]
    rfl
  unfold bspSys_iop2x_write
  rw [Run.stateful_bind_silent hversion]
  dsimp only
  rw [if_neg (by decide)]
  by_cases hlatte : BSP_IS_LATTE b.bspHardwareVersion = false
  · rw [if_pos hlatte]
    exact ⟨_, b.drv.env, rfl, rfl, .ignored fun h => absurd (h.1.symm.trans hlatte) (by decide)⟩
  rw [if_neg hlatte]
  by_cases hrev : BSP_LATTE_REV b.bspHardwareVersion < BSP_LATTE_REV_A3X
  · rw [if_pos hrev]
    exact ⟨_, b.drv.env, rfl, rfl, .ignored fun h => h.2 hrev⟩
  have hscales : Scales b.bspHardwareVersion := ⟨Bool.eq_true_of_not_eq_false hlatte, hrev⟩
  rw [if_neg hrev, Run.stateful_bind_silent (Run.stateful_get b)]
  rcases iop2xSet_does hx (iop2xRequest data b.bspBoardConfig).1 (iop2xRequest data b.bspBoardConfig).2 b with
    ⟨err, power, env, herr, hclock, heq⟩ | ⟨power, set, env, hok, hclock, heq⟩
  · rw [heq]
    exact ⟨_, env, rfl, hclock, .failed hscales herr⟩
  · rw [heq]
    exact ⟨_, env, rfl, hclock, .set hscales hok⟩

/-! ## Every run -/

/-- A write, logged. -/
def iop2xTurn (x : SysExt ε) (b : Process ε) (pWrittenData : Option Buf) : Run IopWrite Fault (Process ε) := do
  let (ret, b') ← Run.lift (bspSys_iop2x_write x pWrittenData b).res
  Run.emit ⟨pWrittenData, (bspSys_iop2x_write x pWrittenData b).trace, ret⟩
  return b'

/-- What the kernel took last. -/
def lastTaken : List IopWrite → Option Bool
  | [] => none
  | w :: ws => (lastTaken ws).or (takenOf w.calls)

theorem iop2xTurn_eq (hx : TakesIop2x x) (hknown : b.bspHardwareVersion ≠ 0) (data : Option Buf) :
    ∃ w env, iop2xTurn x b data = ⟨[w], .ok (b.inEnv env)⟩ ∧ w.pWrittenData = data ∧
      doubled x env = (takenOf w.calls).getD (doubled x b.drv.env) ∧
      Iop2xDoes b.bspHardwareVersion b.bspBoardConfig w := by
  obtain ⟨ret, env, hres, hclock, hdoes⟩ := iop2x_write_does hx hknown data
  refine ⟨_, env, ?_, rfl, hclock, hdoes⟩
  unfold iop2xTurn
  rw [hres]
  rfl

theorem lastTaken_append (ws ws' : List IopWrite) : lastTaken (ws ++ ws') = (lastTaken ws').or (lastTaken ws) := by
  induction ws with
  | nil => simp [lastTaken]
  | cons w ws ih => rw [List.cons_append, lastTaken, lastTaken, ih, Option.or_assoc]

theorem lastTaken_none {ws : List IopWrite} : lastTaken ws = none ↔ ∀ w ∈ ws, takenOf w.calls = none := by
  induction ws with
  | nil => simp [lastTaken]
  | cons w ws ih => simp [lastTaken, Option.or_eq_none_iff, ih, and_comm]

/-- The last that was taken, and nothing behind it. -/
theorem lastTaken_some {ws : List IopWrite} {iop2x : Bool} : lastTaken ws = some iop2x ↔
    ∃ before w after, ws = before ++ w :: after ∧ takenOf w.calls = some iop2x ∧ ∀ w' ∈ after, takenOf w'.calls = none := by
  constructor
  · intro h
    induction ws with
    | nil => cases h
    | cons w ws ih =>
      rcases Option.or_eq_some_iff.mp h with hlater | ⟨hlater, hfirst⟩
      · obtain ⟨before, w', after, rfl, htaken, hafter⟩ := ih hlater
        exact ⟨w :: before, w', after, rfl, htaken, hafter⟩
      · exact ⟨[], w, ws, rfl, hfirst, lastTaken_none.mp hlater⟩
  · rintro ⟨before, w, after, rfl, htaken, hafter⟩
    rw [lastTaken_append, lastTaken, lastTaken_none.mpr hafter, htaken]
    rfl

/-- A write of 2x that was granted. -/
structure Doubles (hwver : U32) (config : BcConfig) (w : IopWrite) : Prop where
  scales : Scales hwver
  asked : iop2xRequest w.pWrittenData config = (BSP_RVAL_OK, true)
  calls : ∃ power, power ≠ 2 ∧ w.calls = [.getPowerMode BSP_RVAL_OK power, .setIop2xState true IOS_ERROR_OK]
  ret : w.ret = BSP_RVAL_OK

theorem Doubles.taken {hwver : U32} {config : BcConfig} {w : IopWrite} (h : Doubles hwver config w) :
    takenOf w.calls = some true := by
  obtain ⟨power, -, hcalls⟩ := h.calls
  rw [hcalls]
  rfl

theorem Iop2xDoes.doubles {hwver : U32} {config : BcConfig} {w : IopWrite} (h : Iop2xDoes hwver config w)
    (htaken : takenOf w.calls = some true) : Doubles hwver config w := by
  cases h with
  | ignored _ => cases htaken
  | failed _ _ => cases htaken
  | @set data power ret hscales hok =>
    have hret : ret = IOS_ERROR_OK := by
      by_contra hne
      simp [takenOf, hne] at htaken
    subst hret
    have hasked : (if power = 2 then false else (iop2xRequest data config).2) = true := by
      simpa [takenOf] using htaken
    by_cases hpower : power = 2
    · rw [if_pos hpower] at hasked
      cases hasked
    · rw [if_neg hpower] at hasked
      exact ⟨hscales, Prod.ext hok hasked, ⟨power, hpower, by rw [if_neg hpower, hasked]⟩, rfl⟩

/-- Over any writes, on a board whose version is known: each does what `Iop2xDoes` says, in
    the order in which they come, and the clock is then read as the kernel took it last. -/
theorem iop2x_run (hx : TakesIop2x x) (hknown : b.bspHardwareVersion ≠ 0) (writes : List (Option Buf)) :
    ∃ b', (Run.iter (iop2xTurn x) b writes).res = .ok b' ∧
      (Run.iter (iop2xTurn x) b writes).trace.map IopWrite.pWrittenData = writes ∧
      (∀ w ∈ (Run.iter (iop2xTurn x) b writes).trace, Iop2xDoes b.bspHardwareVersion b.bspBoardConfig w) ∧
      bspSys_iop2x_read x b' = .ok ((BSP_RVAL_OK,
        if (lastTaken (Run.iter (iop2xTurn x) b writes).trace).getD (doubled x b.drv.env) then 2 else 1), b') := by
  induction writes generalizing b with
  | nil => exact ⟨b, rfl, rfl, fun _ hw => absurd hw List.not_mem_nil, rfl⟩
  | cons data writes ih =>
    obtain ⟨w, env, hturn, hdata, hclock, hdoes⟩ := iop2xTurn_eq hx hknown data
    obtain ⟨b', hres, hdatas, hall, hread⟩ := ih (b := b.inEnv env) hknown
    have hiter : Run.iter (iop2xTurn x) b (data :: writes) =
        ⟨w :: (Run.iter (iop2xTurn x) (b.inEnv env) writes).trace, (Run.iter (iop2xTurn x) (b.inEnv env) writes).res⟩ := by
      show iop2xTurn x b data >>= _ = _
      rw [hturn]
      rfl
    rw [hiter]
    refine ⟨b', hres, by rw [List.map_cons, hdata, hdatas], ?_, ?_⟩
    · intro w' hw'
      rcases List.mem_cons.mp hw' with rfl | hw'
      · exact hdoes
      · exact hall w' hw'
    · rw [hread, show (b.inEnv env).drv.env = env from rfl, hclock]
      cases hlast : lastTaken (Run.iter (iop2xTurn x) (b.inEnv env) writes).trace <;> simp [lastTaken, hlast]

/-- The clock is read as 2x exactly if a write has asked for that on a Latte that has the
    multiplier, and not in power mode 2, and was granted it, and the kernel has taken nothing
    since; or if it was at 2x and the kernel has taken nothing at all. -/
theorem iop2x_doubled_iff (hx : TakesIop2x x) (hknown : b.bspHardwareVersion ≠ 0) (writes : List (Option Buf))
    (hrun : (Run.iter (iop2xTurn x) b writes).res = .ok b') :
    bspSys_iop2x_read x b' = .ok ((BSP_RVAL_OK, 2), b') ↔
      (∃ before w after, (Run.iter (iop2xTurn x) b writes).trace = before ++ w :: after ∧
        Doubles b.bspHardwareVersion b.bspBoardConfig w ∧ ∀ w' ∈ after, takenOf w'.calls = none) ∨
      (doubled x b.drv.env = true ∧ ∀ w ∈ (Run.iter (iop2xTurn x) b writes).trace, takenOf w.calls = none) := by
  obtain ⟨b₁, hres, -, hall, hread⟩ := iop2x_run hx hknown writes
  cases hrun.symm.trans hres
  have htwo : bspSys_iop2x_read x b' = .ok ((BSP_RVAL_OK, 2), b') ↔
      (lastTaken (Run.iter (iop2xTurn x) b writes).trace).getD (doubled x b.drv.env) = true := by
    rw [hread]
    cases (lastTaken (Run.iter (iop2xTurn x) b writes).trace).getD (doubled x b.drv.env) <;> simp
  rw [htwo, ← lastTaken_none]
  cases hlast : lastTaken (Run.iter (iop2xTurn x) b writes).trace with
  | none =>
    refine ⟨fun h => Or.inr ⟨h, rfl⟩, ?_⟩
    rintro (⟨before, w, after, hsplit, hw, hafter⟩ | ⟨h, -⟩)
    · exact absurd (hlast.symm.trans (lastTaken_some.mpr ⟨before, w, after, hsplit, hw.taken, hafter⟩)) (by simp)
    · exact h
  | some iop2x =>
    constructor
    · intro h
      obtain rfl : iop2x = true := h
      obtain ⟨before, w, after, hsplit, htaken, hafter⟩ := lastTaken_some.mp hlast
      have hw : w ∈ (Run.iter (iop2xTurn x) b writes).trace := by simp [hsplit]
      exact Or.inl ⟨before, w, after, hsplit, (hall w hw).doubles htaken, hafter⟩
    · rintro (⟨before, w, after, hsplit, hw, hafter⟩ | ⟨-, h⟩)
      · exact Option.some.inj (hlast.symm.trans (lastTaken_some.mpr ⟨before, w, after, hsplit, hw.taken, hafter⟩))
      · cases h

end Writes

/-- A world that is the enable bit. -/
def iopBoard : SysExt Bool where
  toExt := Ext.quiet ⟨fun _ _ env => (BSP_RVAL_OK, env), fun env => (BSP_RVAL_OK, 1, env)⟩ 0 0
  bspGetPowerMode := fun env => (BSP_RVAL_OK, 1, env)
  iosSetIop2xState := fun iop2x _ => (IOS_ERROR_OK, iop2x)
  ltIop2x := fun env => if env then LT_IOP2X_ENABLE else 0

theorem iopBoard_takes : TakesIop2x iopBoard where
  set := by
    intro iop2x env
    rw [if_pos (show (iopBoard.iosSetIop2xState iop2x env).1 = IOS_ERROR_OK from rfl)]
    change doubled iopBoard iop2x = iop2x
    cases iop2x <;> decide
  getPowerMode := fun _ => rfl

/-- 2x on an A3X, and a write of neither behind it. -/
theorem iopBoard_doubled :
    ∃ before w after, (Run.iter (iop2xTurn iopBoard) { Process.start false with bspHardwareVersion := 0x23100028 }
        [some fun _ => 2, some fun _ => 3]).trace = before ++ w :: after ∧ Doubles 0x23100028 BcConfig.zero w ∧
      ∀ w' ∈ after, takenOf w'.calls = none := by
  have hiff := iop2x_doubled_iff (b := { Process.start false with bspHardwareVersion := 0x23100028 }) iopBoard_takes (by decide)
    [some fun _ => 2, some fun _ => 3] rfl
  rcases hiff.mp rfl with h | ⟨h, -⟩
  · exact h
  · exact absurd h (by decide)

end Iosu.Entities
