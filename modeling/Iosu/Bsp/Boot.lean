/-
  Iosu.Bsp.Boot — what `bspInitEssential` reaches, and in which order.

  The functions that can reach the board configuration are written once more, over runs
  whose trace shows each call of `bspReadBoardConfig`, each access of a pin and each
  entity that is registered; with the trace left out they are the functions of
  `Iosu.Bsp.HwRev` (`method_erases`). The pins are those of the EEPROM driver, which are
  driven through the GPIO entity: they are not to be touched before it is there.
-/

import Iosu.Bsp.Detectors

namespace Iosu.Bsp

open Iosu.Lib Iosu.Lib.Microwire Iosu.Libc Iosu.Entity Iosu.Ios Iosu.Eeprom

variable {ε : Type}

/-! ## Runs with a trace -/

inductive BootEvent where
  | readBoardConfig
  | pin (e : WireEvent)
  | registerEntity (entity : CStr)
  deriving DecidableEq

abbrev BootM (ε : Type) := StateT (Process ε) (Run BootEvent Fault)

namespace Boot

/-- The accesses of the pins that led from `b` to the outcome. -/
def newPins {α : Type} (b : Process ε) : Res Fault (α × Process ε) → List BootEvent
  | .ok (_, b') => (b'.drv.wire.drop b.drv.wire.length).map BootEvent.pin
  | .fault _ => []
  | .spin => []

/-- A function of the process, with its accesses of the pins in the trace. -/
def observed {α : Type} (m : BspM ε α) : BootM ε α := fun b => ⟨newPins b (m b), m b⟩

def emit (e : BootEvent) : BootM ε Unit := fun b => ⟨[e], .ok ((), b)⟩

/-- What `bspInitEssential` needs besides: the entity list is `bspRegisterEntity`'s. -/
structure BootExt (ε : Type) extends Ext ε where
  /-- `bspEntityCount = 0` and the `memset` of `bspEntityList`. -/
  clearEntities : ε → ε
  /-- The bits set in HW_RSTB and HW_AIP_PROT. -/
  enableExi : ε → ε
  bspRegisterEntity : CStr → ε → BspRval × ε

section Functions

variable (x : BootExt ε)

/-! ## The functions -/

def bspReadBoardConfig (config : BcConfig) : BootM ε (BspRval × BcConfig) := do
  emit .readBoardConfig
  observed (Bsp.bspReadBoardConfig x.toExt config)

def bspMethodGetHardwareVersion : BootM ε (BspRval × U32) := do
  let cached := (← get).bspHardwareVersion
  if cached ≠ 0 then return (BSP_RVAL_OK, cached)
  let (ret, version) ← observed (determineWoodBasedHardwareVersion x.toExt true)
  if ret ≠ BSP_RVAL_OK then return (ret, version)
  if version = BSP_HARDWARE_VERSION_BOLLYWOOD_PROD_FOR_WII then
    let (ret, version) ← observed (determineLatteBasedHardwareVersion x.toExt version)
    if ret ≠ BSP_RVAL_OK then
      modify fun b => { b with bspHardwareVersion := version }
      return (BSP_RVAL_OK, version)
    let version := version &&& 0xFFFF0000
    let (ret, config) ← bspReadBoardConfig x (← get).bspBoardConfig
    modify fun b => { b with bspBoardConfig := config }
    let version := if ret ≠ BSP_RVAL_OK then version ||| BSP_VARIANT_EV_Y else version ||| boardVariant config.boardType
    modify fun b => { b with bspHardwareVersion := version }
    return (BSP_RVAL_OK, version)
  modify fun b => { b with bspHardwareVersion := version }
  return (BSP_RVAL_OK, version)

def bspRegisterEntity (entity : CStr) : BootM ε BspRval := do
  emit (.registerEntity entity)
  observed (callExt (x.bspRegisterEntity entity))

def bspGPIOInstall : BootM ε BspRval := do
  let (ret, hwver) ← bspMethodGetHardwareVersion x
  if ret ≠ BSP_RVAL_OK then return ret
  if BSP_IS_LATTE hwver = false then return BSP_RVAL_UNKNOWN_HARDWARE_VERSION
  bspRegisterEntity x (cstr "gpio_latte_entity")

def bspInitEssential : BootM ε BspRval := do
  observed (callExt fun env => ((), x.clearEntities env))
  let _ ← observed (log_open x.toExt (cstr "BSP") 1 3)
  observed (callExt fun env => ((), x.enableExi env))
  let (error, version) ← observed (InitASICVersion x.toExt)
  modify fun b => { b with bspHardwareVersion := version }
  let ret ← bspGPIOInstall x
  let error := error ||| ret
  modify fun b => { b with bspHardwareVersion := 0 }
  let (ret, version) ← bspMethodGetHardwareVersion x
  modify fun b => { b with bspHardwareVersion := version }
  return error ||| ret

end Functions

/-! ## Running -/

section Running

variable {α β : Type}

theorem observed_silent {m : BspM ε α} {a : α} {b b' : Process ε} (h : m b = .ok (a, b'))
    (hwire : b'.drv.wire = b.drv.wire) : observed m b = ⟨[], .ok (a, b')⟩ := by
  unfold observed
  rw [h]
  simp [newPins, hwire]

/-- The function with its trace left out. -/
def Erases (m : BootM ε α) (m' : BspM ε α) : Prop := ∀ b, (m b).res = m' b

theorem erases_pure (a : α) : Erases (pure a : BootM ε α) (pure a) := fun _ => rfl

theorem erases_get : Erases (get : BootM ε (Process ε)) get := fun _ => rfl

theorem erases_modify (f : Process ε → Process ε) : Erases (modify f : BootM ε PUnit) (modify f) := fun _ => rfl

theorem erases_observed (m : BspM ε α) : Erases (observed m) m := fun _ => rfl

theorem Erases.bind {m : BootM ε α} {m' : BspM ε α} {k : α → BootM ε β} {k' : α → BspM ε β} (hm : Erases m m')
    (hk : ∀ a, Erases (k a) (k' a)) : Erases (m >>= k) (m' >>= k') := by
  intro b
  rw [Run.stateful_bind, bspM_bind, ← hm b]
  cases hr : (m b).res with
  | ok p =>
    rw [Run.bind_ok _ hr]
    exact hk p.1 p.2
  | fault f => rw [Run.bind_fault _ hr, Res.fault_bind]
  | spin => rw [Run.bind_spin _ hr, Res.spin_bind]

theorem Erases.ite {c : Prop} [Decidable c] {m n : BootM ε α} {m' n' : BspM ε α} (hm : Erases m m') (hn : Erases n n') :
    Erases (if c then m else n) (if c then m' else n') := by
  split
  · exact hm
  · exact hn

end Running

section Traces

variable {x : BootExt ε} {b : Process ε}

theorem readBoard_eq (config : BcConfig) (b : Process ε) :
    bspReadBoardConfig x config b =
      ⟨.readBoardConfig :: newPins b (Bsp.bspReadBoardConfig x.toExt config b), Bsp.bspReadBoardConfig x.toExt config b⟩ := by
  unfold bspReadBoardConfig
  rw [Run.stateful_bind_ok (show emit .readBoardConfig b = ⟨[.readBoardConfig], .ok ((), b)⟩ from rfl)]
  rfl

/-- The version query is the one of `bsp_hwrev.c`. -/
theorem method_erases (x : BootExt ε) : Erases (bspMethodGetHardwareVersion x) (Bsp.bspMethodGetHardwareVersion x.toExt) := by
  have hboard : ∀ config, Erases (bspReadBoardConfig x config) (Bsp.bspReadBoardConfig x.toExt config) := by
    intro config b
    rw [readBoard_eq]
  unfold bspMethodGetHardwareVersion Bsp.bspMethodGetHardwareVersion
  refine erases_get.bind fun b => Erases.ite (erases_pure _) ?_
  refine (erases_observed _).bind fun p => ?_
  obtain ⟨ret, version⟩ := p
  dsimp only
  refine Erases.ite (erases_pure _) (Erases.ite ?_ ((erases_modify _).bind fun _ => erases_pure _))
  refine (erases_observed _).bind fun p => ?_
  obtain ⟨ret, version⟩ := p
  dsimp only
  refine Erases.ite ((erases_modify _).bind fun _ => erases_pure _) ?_
  refine erases_get.bind fun b => (hboard _).bind fun p => ?_
  obtain ⟨ret, config⟩ := p
  dsimp only
  exact (erases_modify _).bind fun _ => (erases_modify _).bind fun _ => erases_pure _

/-- With a version in the cache, or no Latte in the registers, the query touches nothing. -/
theorem method_silent (h : b.bspHardwareVersion ≠ 0 ∨ ¬ latteDetected x.toExt b.drv.env) :
    (bspMethodGetHardwareVersion x b).trace = [] := by
  unfold bspMethodGetHardwareVersion
  rw [Run.stateful_bind_silent (Run.stateful_get b)]
  dsimp only
  by_cases h0 : b.bspHardwareVersion = 0
  · have hlatte : ¬ latteDetected x.toExt b.drv.env := h.resolve_left (not_not.mpr h0)
    rw [if_neg (not_not.mpr h0)]
    cases hrev : woodRevision (verlo x.toExt b.drv.env) with
    | none =>
      rw [Run.stateful_bind_silent (observed_silent (wood_unknown hrev true) rfl)]
      rfl
    | some upper =>
      obtain ⟨version, b', hwood, -, hupper, hb'⟩ := wood_known hrev true
      rw [Run.stateful_bind_silent (observed_silent hwood hb'.wire)]
      dsimp only
      rw [if_neg (by decide)]
      by_cases hv : version = BSP_HARDWARE_VERSION_BOLLYWOOD_PROD_FOR_WII
      · obtain ⟨hsame, hchip⟩ := (wood_stands hlatte hrev hupper hwood).resolve_left (not_not.mpr hv)
        rw [if_pos hv, hsame, Run.stateful_bind_silent (observed_silent (latte_none hchip version) rfl)]
        rfl
      · rw [if_neg hv]
        rfl
  · rw [if_pos h0]
    rfl

/-- On a Latte that is not known yet, it reads the board configuration. -/
theorem method_reads (h0 : b.bspHardwareVersion = 0) (h : latteDetected x.toExt b.drv.env) :
    (bspMethodGetHardwareVersion x b).trace =
      .readBoardConfig :: newPins b (Bsp.bspReadBoardConfig x.toExt b.bspBoardConfig b) := by
  unfold bspMethodGetHardwareVersion
  rw [Run.stateful_bind_silent (Run.stateful_get b)]
  dsimp only
  rw [if_neg (not_not.mpr h0), Run.stateful_bind_silent (observed_silent (wood_bollywood h.1 true) rfl)]
  dsimp only
  rw [if_neg (by decide), if_pos rfl, Run.stateful_bind_silent (observed_silent (latte_found h.2 _) rfl)]
  dsimp only
  rw [if_neg (by decide), Run.stateful_bind_silent (Run.stateful_get b), Run.stateful_bind_tail _ (fun _ _ => rfl),
    readBoard_eq]

/-! ## The GPIO entity -/

theorem gpioInstall_latte (hlatte : BSP_IS_LATTE b.bspHardwareVersion = true) :
    ∃ ret env, bspGPIOInstall x b = ⟨[.registerEntity (cstr "gpio_latte_entity")],
      .ok (ret, { b with drv := { b.drv with env := env } })⟩ := by
  have hne : b.bspHardwareVersion ≠ 0 := by
    intro h0
    rw [h0] at hlatte
    exact absurd hlatte (by decide)
  have hmethod : bspMethodGetHardwareVersion x b = ⟨[], .ok ((BSP_RVAL_OK, b.bspHardwareVersion), b)⟩ :=
    Run.ext' (method_silent (Or.inl hne)) ((method_erases x b).trans (method_cached hne))
  refine ⟨(x.bspRegisterEntity (cstr "gpio_latte_entity") b.drv.env).1,
    (x.bspRegisterEntity (cstr "gpio_latte_entity") b.drv.env).2, ?_⟩
  unfold bspGPIOInstall
  rw [Run.stateful_bind_silent hmethod]
  dsimp only
  rw [if_neg (by decide), hlatte, if_neg (by decide)]
  unfold bspRegisterEntity
  rw [Run.stateful_bind_ok (show emit (.registerEntity (cstr "gpio_latte_entity")) b = ⟨[_], .ok ((), b)⟩ from rfl),
    observed_silent (show callExt (x.bspRegisterEntity (cstr "gpio_latte_entity")) b = .ok (_, _) from rfl) rfl]
  rfl

/-- Without a Latte in the cache or in the registers, nothing is registered. -/
theorem gpioInstall_none (hlatte : ¬ latteDetected x.toExt b.drv.env)
    (hcache : b.bspHardwareVersion = 0 ∨ b.bspHardwareVersion ∈ woodVersions) :
    ∃ b', bspGPIOInstall x b = ⟨[], .ok (BSP_RVAL_UNKNOWN_HARDWARE_VERSION, b')⟩ := by
  have hsilent := method_silent (x := x) (Or.inr hlatte)
  have hnotLatte : ∀ {version : U32}, version ∈ woodVersions → BSP_IS_LATTE version = false := by
    intro version hmem
    have hall : (woodVersions.all fun v => decide (BSP_IS_LATTE v = false)) = true := by decide
    exact of_decide_eq_true (List.all_eq_true.mp hall version hmem)
  have hwood : ∀ {version : U32} {b' : Process ε}, version ∈ woodVersions →
      Bsp.bspMethodGetHardwareVersion x.toExt b = .ok ((BSP_RVAL_OK, version), b') →
      bspGPIOInstall x b = ⟨[], .ok (BSP_RVAL_UNKNOWN_HARDWARE_VERSION, b')⟩ := by
    intro version b' hmem hmethod
    unfold bspGPIOInstall
    rw [Run.stateful_bind_silent (Run.ext' hsilent ((method_erases x b).trans hmethod))]
    dsimp only
    rw [if_neg (by decide), if_pos (hnotLatte hmem)]
    rfl
  by_cases h0 : b.bspHardwareVersion = 0
  · cases hrev : woodRevision (verlo x.toExt b.drv.env) with
    | none =>
      refine ⟨b, ?_⟩
      unfold bspGPIOInstall
      rw [Run.stateful_bind_silent (Run.ext' hsilent ((method_erases x b).trans (method_unknown h0 hrev)))]
      rfl
    | some upper =>
      obtain ⟨version, b', hmethod, hmem, -, -⟩ := method_wood h0 hrev hlatte
      exact ⟨_, hwood hmem hmethod⟩
  · exact ⟨b, hwood (hcache.resolve_left h0) (method_cached h0)⟩

/-! ## The order of the boot -/

/-- The board configuration is read once at most, and neither that nor an access of a pin
    comes before the Latte's GPIO entity is registered. -/
def PinsBehindGpio (t : List BootEvent) : Prop :=
  t.count .readBoardConfig ≤ 1 ∧ ∀ before e after, t = before ++ e :: after →
    (e = .readBoardConfig ∨ ∃ w, e = .pin w) → .registerEntity (cstr "gpio_latte_entity") ∈ before

theorem pinsBehindGpio_nil : PinsBehindGpio [] := by
  refine ⟨by simp, ?_⟩
  intro before e after h
  exact absurd h (by simp)

theorem newPins_pins {α : Type} {b : Process ε} {r : Res Fault (α × Process ε)} {e : BootEvent} (h : e ∈ newPins b r) :
    ∃ w, e = .pin w := by
  unfold newPins at h
  split at h
  · obtain ⟨w, -, rfl⟩ := List.mem_map.mp h
    exact ⟨w, rfl⟩
  · cases h
  · cases h

theorem pinsBehindGpio_latte {pins : List BootEvent} (hpins : ∀ e ∈ pins, ∃ w, e = .pin w) :
    PinsBehindGpio (.registerEntity (cstr "gpio_latte_entity") :: .readBoardConfig :: pins) := by
  refine ⟨?_, ?_⟩
  · have hnone : pins.count .readBoardConfig = 0 := by
      rw [List.count_eq_zero]
      intro hmem
      obtain ⟨w, hw⟩ := hpins _ hmem
      cases hw
    simp [hnone]
  · intro before e after hsplit he
    cases before with
    | nil =>
      cases hsplit
      rcases he with he | ⟨w, he⟩ <;> cases he
    | cons first before =>
      obtain ⟨rfl, -⟩ := List.cons_eq_cons.mp hsplit
      exact List.mem_cons_self

/-- `bspInitEssential` behind its `log_open`. -/
def bootVersions (x : BootExt ε) : BootM ε BspRval := do
  let (error, version) ← observed (InitASICVersion x.toExt)
  modify fun b => { b with bspHardwareVersion := version }
  let ret ← bspGPIOInstall x
  let error := error ||| ret
  modify fun b => { b with bspHardwareVersion := 0 }
  let (ret, version) ← bspMethodGetHardwareVersion x
  modify fun b => { b with bspHardwareVersion := version }
  return error ||| ret

theorem observed_callExt (f : ε → α × ε) (b : Process ε) :
    observed (callExt f) b = ⟨[], .ok ((f b.drv.env).1, { b with drv := { b.drv with env := (f b.drv.env).2 } })⟩ :=
  observed_silent (bspM_callExt f b) rfl

/-- Up to the detection it shows nothing, and only logs. -/
theorem initEssential_opens (x : BootExt ε) (b : Process ε) :
    ∃ log_fd log env, ∀ {α : Type} (k : U32 → BootM ε α),
      (do observed (callExt fun env => ((), x.clearEntities env))
          let log_fd ← observed (log_open x.toExt (cstr "BSP") 1 3)
          observed (callExt fun env => ((), x.enableExi env))
          k log_fd) b = k log_fd (b.logged log env) := by
  obtain ⟨log_fd, log, env, hlog⟩ := log_open_onlyLogs x.toExt (cstr "BSP") 1 3
    { b with drv := { b.drv with env := x.clearEntities b.drv.env } }
  refine ⟨log_fd, log, x.enableExi env, fun k => ?_⟩
  rw [Run.stateful_bind_silent (observed_callExt _ _), Run.stateful_bind_silent (observed_silent hlog rfl),
    Run.stateful_bind_silent (observed_callExt _ _)]
  rfl

theorem initEssential_eq (x : BootExt ε) (b : Process ε) :
    ∃ b₁, b₁.bspHardwareVersion = b.bspHardwareVersion ∧ bspInitEssential x b = bootVersions x b₁ := by
  obtain ⟨_, log, env, hopens⟩ := initEssential_opens x b
  exact ⟨b.logged log env, rfl, hopens fun _ => bootVersions x⟩

/-- The chip registers show the same whatever happens. -/
def FixedRegisters (x : Ext ε) : Prop :=
  ∀ env env', x.hwChiprevid env = x.hwChiprevid env' ∧ x.ltChiprevid env = x.ltChiprevid env'

theorem FixedRegisters.detected {x : Ext ε} (h : FixedRegisters x) {env env' : ε} (hlatte : latteDetected x env) :
    latteDetected x env' := by
  obtain ⟨hhw, hlt⟩ := h env env'
  unfold latteDetected verlo latteChip at hlatte ⊢
  rw [← hhw, ← hlt]
  exact hlatte

/-- On a Latte: the GPIO entity first, then the board configuration. -/
theorem bootVersions_latte (hfixed : FixedRegisters x.toExt) (h0 : b.bspHardwareVersion = 0)
    (hlatte : latteDetected x.toExt b.drv.env) :
    ∃ pins, (bootVersions x b).trace = .registerEntity (cstr "gpio_latte_entity") :: .readBoardConfig :: pins ∧
      ∀ e ∈ pins, ∃ w, e = .pin w := by
  have hversion : BSP_IS_LATTE (latteVersion x.toExt b.drv.env ||| 0x11) = true := by
    refine latteVersion_cases (x := x.toExt) (fun v => BSP_IS_LATTE (v ||| 0x11) = true) ?_ b.drv.env
    intro v hv
    rcases hv with rfl | rfl | rfl | rfl | rfl | rfl | rfl
    all_goals rfl
  obtain ⟨ret, env, hgpio⟩ := gpioInstall_latte (x := x)
    (b := { b with bspHardwareVersion := latteVersion x.toExt b.drv.env ||| 0x11 }) hversion
  obtain ⟨pins, hpins, hreads⟩ : ∃ pins, (∀ e ∈ pins, ∃ w, e = .pin w) ∧
      (bspMethodGetHardwareVersion x { b with bspHardwareVersion := 0, drv := { b.drv with env := env } }).trace =
        .readBoardConfig :: pins := ⟨_, fun e he => newPins_pins he, method_reads rfl (hfixed.detected hlatte)⟩
  refine ⟨pins, ?_, hpins⟩
  unfold bootVersions
  rw [Run.stateful_bind_silent (observed_silent (initASIC_latte h0 hlatte) rfl)]
  dsimp only
  rw [Run.stateful_bind_silent (Run.stateful_modify _ b), Run.stateful_bind_ok hgpio]
  dsimp only
  rw [Run.stateful_bind_silent (Run.stateful_modify _ _), Run.stateful_bind_tail _ (fun _ _ => rfl), hreads]
  rfl

/-- Without a Latte, the query comes back and touches nothing. -/
theorem method_other (h0 : b.bspHardwareVersion = 0) (hlatte : ¬ latteDetected x.toExt b.drv.env) :
    ∃ p, bspMethodGetHardwareVersion x b = ⟨[], .ok p⟩ := by
  have hsilent := method_silent (x := x) (Or.inr hlatte)
  cases hrev : woodRevision (verlo x.toExt b.drv.env) with
  | none => exact ⟨_, Run.ext' hsilent ((method_erases x b).trans (method_unknown h0 hrev))⟩
  | some upper =>
    obtain ⟨version, b', hmethod, -, -, -⟩ := method_wood h0 hrev hlatte
    exact ⟨_, Run.ext' hsilent ((method_erases x b).trans hmethod)⟩

/-- The first detector, without a Latte: it finds a Wood or nothing. -/
theorem initASIC_other (h0 : b.bspHardwareVersion = 0) (hlatte : ¬ latteDetected x.toExt b.drv.env) :
    ∃ ret version b', observed (InitASICVersion x.toExt) b = ⟨[], .ok ((ret, version), b')⟩ ∧
      (version = 0 ∨ version ∈ woodVersions) := by
  cases hrev : woodRevision (verlo x.toExt b.drv.env) with
  | none => exact ⟨_, _, _, observed_silent (initASIC_unknown h0 hrev) rfl, Or.inl rfl⟩
  | some upper =>
    obtain ⟨version, b', hinit, hmem, -, hb'⟩ := initASIC_wood h0 hrev hlatte
    exact ⟨_, version, b', observed_silent hinit hb'.wire, Or.inr hmem⟩

/-- On anything but a Latte, neither. -/
theorem bootVersions_other (hfixed : FixedRegisters x.toExt) (h0 : b.bspHardwareVersion = 0)
    (hlatte : ¬ latteDetected x.toExt b.drv.env) : ∃ p, bootVersions x b = ⟨[], .ok p⟩ := by
  have hnone : ∀ env, ¬ latteDetected x.toExt env := fun env h => hlatte (hfixed.detected h)
  obtain ⟨error, version, b₁, hinit, hcache⟩ := initASIC_other h0 hlatte
  obtain ⟨b₂, hgpio⟩ := gpioInstall_none (x := x) (b := { b₁ with bspHardwareVersion := version }) (hnone _) hcache
  obtain ⟨⟨⟨ret, version'⟩, b₃⟩, hmethod⟩ := method_other (x := x) (b := { b₂ with bspHardwareVersion := 0 }) rfl (hnone _)
  refine ⟨((error ||| BSP_RVAL_UNKNOWN_HARDWARE_VERSION) ||| ret, { b₃ with bspHardwareVersion := version' }), ?_⟩
  unfold bootVersions
  rw [Run.stateful_bind_silent hinit]
  dsimp only
  rw [Run.stateful_bind_silent (Run.stateful_modify _ b₁), Run.stateful_bind_silent hgpio]
  rw [Run.stateful_bind_silent (Run.stateful_modify _ b₂), Run.stateful_bind_silent hmethod]
  rfl

/-- Every run of `bspInitEssential` from a version that is not known, with registers that
    show the same throughout, reads the board configuration once at most, and that and
    every access of a pin behind the registration of the Latte's GPIO entity. A run that
    does not come to its end is one that reads it. -/
theorem boot_order (x : BootExt ε) (b : Process ε) (hfixed : FixedRegisters x.toExt) (h0 : b.bspHardwareVersion = 0) :
    PinsBehindGpio (bspInitEssential x b).trace ∧
      ((∀ p, (bspInitEssential x b).res ≠ .ok p) → .readBoardConfig ∈ (bspInitEssential x b).trace) := by
  obtain ⟨b₁, hver, heq⟩ := initEssential_eq x b
  rw [heq]
  by_cases hlatte : latteDetected x.toExt b₁.drv.env
  · obtain ⟨pins, htrace, hpins⟩ := bootVersions_latte hfixed (hver.trans h0) hlatte
    rw [htrace]
    exact ⟨pinsBehindGpio_latte hpins, fun _ => List.mem_cons_of_mem _ List.mem_cons_self⟩
  · obtain ⟨p, hrun⟩ := bootVersions_other hfixed (hver.trans h0) hlatte
    rw [hrun]
    exact ⟨pinsBehindGpio_nil, fun h => absurd rfl (h p)⟩

/-- A Latte with a SEEPROM, and a `bspRegisterEntity` that does nothing. -/
def latteBoard : BootExt Device where
  toExt := Ext.quiet seeprom 0x21 0xCAFE0010
  clearEntities := id
  enableExi := id
  bspRegisterEntity := fun _ env => (BSP_RVAL_OK, env)

/-- On a structure of one word it comes to its end: the entity is registered, the board
    configuration is read, and behind these come the accesses of the pins. -/
theorem latteBoard_order :
    (bspInitEssential latteBoard (Process.start (Device.fresh tinyImage false))).res.Returns ∧
      (bspInitEssential latteBoard (Process.start (Device.fresh tinyImage false))).trace.take 2 =
        [.registerEntity (cstr "gpio_latte_entity"), .readBoardConfig] ∧
      2 < (bspInitEssential latteBoard (Process.start (Device.fresh tinyImage false))).trace.length ∧
      PinsBehindGpio (bspInitEssential latteBoard (Process.start (Device.fresh tinyImage false))).trace := by
  refine ⟨?_, ?_, ?_,
    (boot_order latteBoard (Process.start (Device.fresh tinyImage false)) (fun _ _ => ⟨rfl, rfl⟩) rfl).1⟩
  · decide +kernel
  · decide +kernel
  · decide +kernel

end Traces

end Boot

end Iosu.Bsp
