/-
  Iosu.Bsp.BoardWords — `bcGet` by the words that the SEEPROM delivers.

  An open driver answers every read with IOS_ERROR_OK and some word (`delivered`), so
  `bcGet` is a function of these words: of the one at 0x1e, half of which is how many
  words from 0x1c on are loaded (`wordCount`), and of the ones loaded, the rest of the
  array being zero (`loadedWords`). The CRC is asked for two bytes less than were loaded,
  from byte 4 of the array on: a span that leaves the array when nothing was loaded, or
  all of it was (`bcGet_returns_iff`).
-/

import Iosu.Bsp.BoardConfig
import Iosu.Eeprom.Store

namespace Iosu.Bsp

open Iosu.Lib Iosu.Lib.Microwire Iosu.Libc Iosu.Entity Iosu.Ios Iosu.Eeprom Iosu.Libraries

variable {ε : Type}

/-! ## `log_open` and `bcInit` -/

/-- `b` with another log and another world. -/
def Process.logged (b : Process ε) (log : LogState) (env : ε) : Process ε :=
  { b with log := log, drv := { b.drv with env := env } }

/-- The function comes back, and leaves everything but the log and the world alone. -/
def OnlyLogs {α : Type} (m : BspM ε α) : Prop := ∀ b, ∃ a log env, m b = .ok (a, b.logged log env)

section OnlyLogs

variable {α β : Type}

theorem onlyLogs_pure (a : α) : OnlyLogs (pure a : BspM ε α) := fun b => ⟨a, b.log, b.drv.env, rfl⟩

theorem onlyLogs_get : OnlyLogs (get : BspM ε (Process ε)) := fun b => ⟨b, b.log, b.drv.env, rfl⟩

theorem onlyLogs_modify (f : Process ε → LogState) :
    OnlyLogs (modify fun b => { b with log := f b } : BspM ε PUnit) := fun b => ⟨PUnit.unit, f b, b.drv.env, rfl⟩

theorem onlyLogs_callExt (f : ε → α × ε) : OnlyLogs (callExt f : BspM ε α) := fun b =>
  ⟨(f b.drv.env).1, b.log, (f b.drv.env).2, rfl⟩

theorem OnlyLogs.bind {m : BspM ε α} {k : α → BspM ε β} (hm : OnlyLogs m) (hk : ∀ a, OnlyLogs (k a)) :
    OnlyLogs (m >>= k) := by
  intro b
  obtain ⟨a, log₁, env₁, h₁⟩ := hm b
  obtain ⟨c, log₂, env₂, h₂⟩ := hk a (b.logged log₁ env₁)
  refine ⟨c, log₂, env₂, ?_⟩
  rw [bspM_bind_ok h₁, h₂]
  rfl

/-- The slot that `log_open` takes is one of the table's. -/
theorem findLog_lt (name : CStr) (fds : List LogFd) (i : Nat) (ndx : Option Nat) (hndx : ∀ k, ndx = some k → k < i + fds.length)
    {k : Nat} {found : Bool} (h : findLog name fds i ndx = (some k, found)) : k < i + fds.length := by
  induction fds generalizing i ndx with
  | nil =>
    cases h
    exact hndx k rfl
  | cons fd fds ih =>
    have hlen : (fd :: fds).length = fds.length + 1 := rfl
    rw [hlen] at hndx ⊢
    unfold findLog at h
    split at h
    · have := ih (i + 1) (ndx.or (some i)) (by
        intro j hj
        cases ndx with
        | none =>
          obtain rfl : i = j := Option.some.inj hj
          omega
        | some l =>
          obtain rfl : l = j := Option.some.inj hj
          have := hndx l rfl
          omega) h
      omega
    · split at h
      · cases h
        omega
      · have := ih (i + 1) ndx (fun j hj => by have := hndx j hj; omega) h
        omega

theorem log_open_onlyLogs (x : Ext ε) (name : CStr) (unk1 unk2 : U32) : OnlyLogs (log_open x name unk1 unk2) := by
  unfold log_open
  refine onlyLogs_get.bind fun b => ?_
  dsimp only
  split
  on_goal 1 => refine (onlyLogs_callExt _).bind fun _ => (onlyLogs_modify _).bind fun _ => ?_
  -- from here on the two paths are one
  all_goals
    refine onlyLogs_get.bind fun _ => ?_
    split
    · exact onlyLogs_pure _
    refine (onlyLogs_callExt _).bind fun err => ?_
    split
    · exact onlyLogs_pure _
    refine onlyLogs_get.bind fun b => ?_
    split
    · exact (onlyLogs_callExt _).bind fun _ => onlyLogs_pure _
    rename_i ndx found hfind
    have hlt := findLog_lt name b.log.log_fds.toList 0 none (fun k hk => absurd hk (by simp)) hfind
    have hndx : ndx < 0x20 := by simpa using hlt
    rw [dif_pos hndx]
    exact (onlyLogs_modify _).bind fun _ => (onlyLogs_callExt _).bind fun _ => onlyLogs_pure _

end OnlyLogs

/-- `bcInit` behind its `log_open`. -/
def bcOpen (x : Ext ε) : BspM ε IosError := do
  if (← get).bc_initialised then return IOS_ERROR_OK
  let err ← callDrv (eepromDrvInit x.gpio 0)
  if err ≠ IOS_ERROR_OK then return err
  let err ← callDrv (eepromDrvOpen x.gpio 0)
  if err = IOS_ERROR_OK then modify fun b => { b with bc_initialised := true }
  return err

/-- What `bcInit` leaves alone before it looks at `bc_initialised`. -/
def LoggedFrom (b b₁ : Process ε) : Prop :=
  ∃ handle log env, b₁ = { b.logged log env with bc_log_handle := handle }

theorem LoggedFrom.initialised {b b₁ : Process ε} (h : LoggedFrom b b₁) : b₁.bc_initialised = b.bc_initialised := by
  obtain ⟨handle, log, env, rfl⟩ := h
  rfl

theorem LoggedFrom.status {b b₁ : Process ε} (h : LoggedFrom b b₁) : b₁.drv.status = b.drv.status := by
  obtain ⟨handle, log, env, rfl⟩ := h
  rfl

theorem bcInit_eq (x : Ext ε) (b : Process ε) : ∃ b₁, LoggedFrom b b₁ ∧ bcInit x b = bcOpen x b₁ := by
  obtain ⟨handle, log, env, h⟩ := log_open_onlyLogs x (cstr "BC") 0 1 b
  refine ⟨{ b.logged log env with bc_log_handle := handle }, ⟨handle, log, env, rfl⟩, ?_⟩
  unfold bcInit
  rw [bspM_bind_ok h]
  rfl

section BcOpen

variable {x : Ext ε}

theorem bcOpen_again {b : Process ε} (h : b.bc_initialised = true) : bcOpen x b = .ok (IOS_ERROR_OK, b) := by
  unfold bcOpen
  show (ite (b.bc_initialised = true) _ _ : BspM ε IosError) b = _
  rw [if_pos h]
  rfl

/-- The driver behind an opening. -/
def reopened (g : Gpio ε) (d : Drv ε) : Drv ε :=
  { lowered g { lowered g { d with status := .uninitialised } with status := .initialised } with status := .opened }

theorem bcOpen_opens {b : Process ε} (h : b.bc_initialised = false) (hok : x.gpio.AllOk lowerScript b.drv.env) :
    bcOpen x b = .ok (IOS_ERROR_OK, { b with drv := reopened x.gpio b.drv, bc_initialised := true }) := by
  unfold bcOpen
  show (ite (b.bc_initialised = true) _ _ : BspM ε IosError) b = _
  rw [if_neg (by simp [h]), bspM_bind_ok (call_init x.gpio b), init_ok hok]
  show (callDrv (eepromDrvOpen x.gpio 0) >>= _) _ = _
  rw [bspM_bind_ok (call_open x.gpio _), openCtx_opened (Or.inr rfl)]
  rfl

theorem bcOpen_fails {b : Process ε} (h : b.bc_initialised = false) (hfail : ¬ x.gpio.AllOk lowerScript b.drv.env) :
    ∃ err, err ≠ IOS_ERROR_OK ∧
      bcOpen x b = .ok (err, { b with drv := lowered x.gpio { b.drv with status := .uninitialised } }) := by
  obtain ⟨herr, hdrv⟩ := init_fails hfail
  refine ⟨(init x.gpio b.drv).1, herr, ?_⟩
  unfold bcOpen
  show (ite (b.bc_initialised = true) _ _ : BspM ε IosError) b = _
  rw [if_neg (by simp [h]), bspM_bind_ok (call_init x.gpio b), if_pos herr, hdrv]
  rfl

end BcOpen

/-! ## The words -/

/-- The words that `n` reads deliver, from the one for `data[i]` on, and the driver
    behind them. -/
def deliveredFrom (g : Gpio ε) : Nat → Nat → Drv ε → List U16 × Drv ε
  | 0, _, d => ([], d)
  | n + 1, i, d =>
    let addr := BitVec.ofNat 8 (i + 0x1c)
    let rest := deliveredFrom g n (i + 1) (readWord g addr d).2
    (delivered g addr d :: rest.1, rest.2)

/-- The array with `ws` at its start. -/
def padded (ws : List U16) : Vector U16 0x24 := Vector.ofFn fun i => ws.getD i 0

theorem vector_get {α : Type} {n : Nat} (v : Vector α n) (i : Fin n) : v.get i = v[i.val] := rfl

theorem padded_get (ws : List U16) (i : Fin 0x24) : (padded ws).get i = ws.getD i 0 := by
  rw [vector_get, padded, Vector.getElem_ofFn]

theorem deliveredFrom_length (g : Gpio ε) (n i : Nat) (d : Drv ε) : (deliveredFrom g n i d).1.length = n := by
  induction n generalizing i d with
  | zero => rfl
  | succ n ih => simp [deliveredFrom, ih]

theorem deliveredFrom_status {g : Gpio ε} (n i : Nat) {d : Drv ε} (h : d.status = .opened) :
    (deliveredFrom g n i d).2.status = .opened := by
  induction n generalizing i d with
  | zero => exact h
  | succ n ih =>
    obtain ⟨-, -, -, hstatus⟩ := readWord_opened (g := g) (BitVec.ofNat 8 (i + 0x1c)) h
    exact ih (i + 1) (hstatus.trans h)

section Board

variable (x : Ext ε)

/-- The size word in 16-bit words, as a read of 0x1e delivers it. -/
def wordCount (b : Process ε) : Nat := (delivered x.gpio 0x1E b.drv).toNat / 2

/-- The reads behind the one of the size word. -/
def loads (b : Process ε) : List U16 × Drv ε := deliveredFrom x.gpio (wordCount x b) 0 (readWord x.gpio 0x1E b.drv).2

def loadedWords (b : Process ε) : Vector U16 0x24 := padded (loads x b).1

/-- `*config` behind the `memcpy`. -/
def patched (data : Vector U16 0x24) : BcConfig :=
  if (BcConfig.ofWords data).version = 0 then { BcConfig.ofWords data with ddr3Vendor := 0x5521 }
  else BcConfig.ofWords data

/-- `crc32Input(&data[2], n * 2 - 2)`, with what it leaves in `s_crc32Value`. -/
def boardCrc (n : Nat) (data : Vector U16 0x24) : U32 × U32 :=
  crc32Input crc32Reset (((wordBytes data).drop 4).take (2 * n - 2))

/-- The CRC is the one in the first two words. -/
def Accepted (n : Nat) (data : Vector U16 0x24) : Prop := (boardCrc n data).1 = (BcConfig.ofWords data).crc

instance (n : Nat) (data : Vector U16 0x24) : Decidable (Accepted n data) := instDecidableEqBitVec _ _

variable {x}

/-! ## `bcGet` -/

/-- The loop stores the words it reads, as long as they have room. -/
theorem readWords_opened (n i : Nat) (data : Vector U16 0x24) {b : Process ε} (h : b.drv.status = .opened)
    (hroom : i + n ≤ 0x24) :
    ∃ data', readWords x n i data b =
        .ok ((IOS_ERROR_OK, data'), { b with drv := (deliveredFrom x.gpio n i b.drv).2 }) ∧
      ∀ j : Fin 0x24, data'.get j =
        if i ≤ j ∧ j < i + n then (deliveredFrom x.gpio n i b.drv).1.getD (j - i) 0 else data.get j := by
  induction n generalizing i data b with
  | zero =>
    refine ⟨data, rfl, fun j => ?_⟩
    rw [if_neg (by omega)]
  | succ n ih =>
    have hi : i < 0x24 := by omega
    obtain ⟨hval, -, -, hstatus⟩ := readWord_opened (g := x.gpio) (BitVec.ofNat 8 (i + 0x1c)) h
    obtain ⟨data', hrest, hget⟩ := ih (i + 1) (data.set i (delivered x.gpio (BitVec.ofNat 8 (i + 0x1c)) b.drv))
      (b := { b with drv := (readWord x.gpio (BitVec.ofNat 8 (i + 0x1c)) b.drv).2 }) (hstatus.trans h) (by omega)
    refine ⟨data', ?_, ?_⟩
    · unfold readWords
      rw [dif_pos hi, bspM_bind_ok (call_readWord x.gpio b _), hval]
      exact hrest
    · intro j
      rw [hget j]
      by_cases hj : (j : Nat) = i
      · rw [if_neg (by omega), if_pos (by omega), show (j : Nat) - i = 0 by omega]
        simp [vector_get, hj, deliveredFrom]
      · by_cases hlater : i + 1 ≤ (j : Nat) ∧ (j : Nat) < i + 1 + n
        · rw [if_pos hlater, if_pos (by omega), show (j : Nat) - i = (j - (i + 1)) + 1 by omega]
          rfl
        · rw [if_neg hlater, if_neg (by omega)]
          simp [vector_get, Ne.symm hj]

/-- The load of the array. -/
theorem readWords_loaded {b : Process ε} (h : b.drv.status = .opened) (hn : wordCount x b ≤ 0x24) :
    readWords x (wordCount x b) 0 (Vector.replicate 0x24 0) { b with drv := (readWord x.gpio 0x1E b.drv).2 } =
      .ok ((IOS_ERROR_OK, loadedWords x b), { b with drv := (loads x b).2 }) := by
  obtain ⟨-, -, -, hstatus⟩ := readWord_opened (g := x.gpio) 0x1E h
  obtain ⟨data', hrun, hget⟩ := readWords_opened (x := x) (wordCount x b) 0 (Vector.replicate 0x24 0)
    (b := { b with drv := (readWord x.gpio 0x1E b.drv).2 }) (hstatus.trans h) (by omega)
  have hdata : data' = loadedWords x b := by
    apply Vector.ext
    intro j hj
    have hj' := hget ⟨j, hj⟩
    have hpad := padded_get (loads x b).1 ⟨j, hj⟩
    show data'.get ⟨j, hj⟩ = (loadedWords x b).get ⟨j, hj⟩
    unfold loadedWords
    rw [hj', hpad]
    by_cases hlt : j < wordCount x b
    · rw [if_pos (by simp; omega)]
      rfl
    · have hlen : (loads x b).1.length ≤ j := by
        unfold loads
        rw [deliveredFrom_length]
        omega
      rw [if_neg (by simp; omega)]
      simp [vector_get, hlen]
  rw [hrun, hdata]
  rfl

theorem bcGet_notReady {b : Process ε} (h : b.drv.status ≠ .opened) (config : BcConfig) :
    bcGet x config b = .ok ((IOS_ERROR_NOTREADY, config), b) := by
  unfold bcGet
  rw [bspM_bind_ok (call_readWord x.gpio b 0x1E), readWord_refused h]
  rfl

/-- The size word says more than there is room for. -/
theorem bcGet_tooLong {b : Process ε} (h : b.drv.status = .opened) (hn : 0x24 < wordCount x b) (config : BcConfig) :
    bcGet x config b = .ok ((IOS_ERROR_INVALID, config), { b with drv := (readWord x.gpio 0x1E b.drv).2 }) := by
  obtain ⟨hval, -, -, -⟩ := readWord_opened (g := x.gpio) 0x1E h
  unfold bcGet
  rw [bspM_bind_ok (call_readWord x.gpio b 0x1E), hval]
  show (ite (0x24 < wordCount x b) _ _ : BspM ε (IosError × BcConfig)) _ = _
  rw [if_pos hn]
  rfl

/-- The byte count of the CRC, as a `size_t`. -/
theorem crcSize {n : Nat} (hn : n ≤ 0x24) :
    0x48 < 4 + (BitVec.ofNat 32 (n * 2) - 2).toNat ↔ n = 0 ∨ n = 0x24 := by
  rw [BitVec.toNat_sub, BitVec.toNat_ofNat]
  simp
  omega

theorem crcSize_eq {n : Nat} (h0 : 0 < n) (hn : n ≤ 0x24) : (BitVec.ofNat 32 (n * 2) - 2).toNat = 2 * n - 2 := by
  rw [BitVec.toNat_sub, BitVec.toNat_ofNat]
  simp
  omega

/-- Behind the load, what is left of `bcGet`. -/
theorem bcGet_load {b : Process ε} (h : b.drv.status = .opened) (hn : wordCount x b ≤ 0x24) (config : BcConfig) :
    bcGet x config b = (do
      let size := (BitVec.ofNat 32 (wordCount x b * 2) - 2).toNat
      if 0x48 < 4 + size then raise .frameIndex
      let (crc, value) := crc32Input crc32Reset (((wordBytes (loadedWords x b)).drop 4).take size)
      modify fun b => { b with s_crc32Value := value }
      if crc ≠ (loadedWords x b).get 0 ++ (loadedWords x b).get 1 then return (IOS_ERROR_INVALID, patched (loadedWords x b))
      return (IOS_ERROR_OK, patched (loadedWords x b)) : BspM ε (IosError × BcConfig)) { b with drv := (loads x b).2 } := by
  obtain ⟨hval, -, -, -⟩ := readWord_opened (g := x.gpio) 0x1E h
  unfold bcGet
  rw [bspM_bind_ok (call_readWord x.gpio b 0x1E), hval]
  show (ite (0x24 < wordCount x b) _ _ : BspM ε (IosError × BcConfig)) _ = _
  rw [if_neg (by omega)]
  show (readWords x (wordCount x b) 0 (Vector.replicate 0x24 0) >>= _) _ = _
  rw [bspM_bind_ok (readWords_loaded h hn)]
  rfl

theorem bcGet_overruns {b : Process ε} (h : b.drv.status = .opened) (hn : wordCount x b = 0 ∨ wordCount x b = 0x24)
    (config : BcConfig) : bcGet x config b = .fault .frameIndex := by
  rw [bcGet_load h (by omega) config]
  show (ite (0x48 < 4 + (BitVec.ofNat 32 (wordCount x b * 2) - 2).toNat) _ _ : BspM ε (IosError × BcConfig)) _ = _
  rw [if_pos ((crcSize (by omega)).mpr hn)]
  rfl

theorem bcGet_loaded {b : Process ε} (h : b.drv.status = .opened) (h0 : 0 < wordCount x b) (hn : wordCount x b < 0x24)
    (config : BcConfig) :
    bcGet x config b =
      .ok ((if Accepted (wordCount x b) (loadedWords x b) then IOS_ERROR_OK else IOS_ERROR_INVALID,
        patched (loadedWords x b)),
        { b with drv := (loads x b).2, s_crc32Value := (boardCrc (wordCount x b) (loadedWords x b)).2 }) := by
  rw [bcGet_load h (by omega) config]
  show (ite (0x48 < 4 + (BitVec.ofNat 32 (wordCount x b * 2) - 2).toNat) _ _ : BspM ε (IosError × BcConfig)) _ = _
  rw [if_neg (by rw [crcSize (by omega)]; omega), crcSize_eq h0 (by omega)]
  show (ite (¬ Accepted (wordCount x b) (loadedWords x b)) _ _ : BspM ε (IosError × BcConfig)) _ = _
  by_cases hacc : Accepted (wordCount x b) (loadedWords x b)
  · rw [if_neg (not_not.mpr hacc), if_pos hacc]
    rfl
  · rw [if_pos hacc, if_neg hacc]
    rfl

/-- `bcGet` comes back, with every access of its array inside it, exactly when the driver
    is not open or the size word is neither 0 or 1 nor 0x48 or 0x49. -/
theorem bcGet_returns_iff (x : Ext ε) (config : BcConfig) (b : Process ε) :
    (bcGet x config b).Returns ↔ (b.drv.status = .opened → wordCount x b ≠ 0 ∧ wordCount x b ≠ 0x24) := by
  by_cases h : b.drv.status = .opened
  · by_cases hlong : 0x24 < wordCount x b
    · rw [bcGet_tooLong h hlong]
      exact ⟨fun _ _ => by omega, fun _ => ⟨_, rfl⟩⟩
    · by_cases hover : wordCount x b = 0 ∨ wordCount x b = 0x24
      · rw [bcGet_overruns h hover]
        refine ⟨?_, fun hno => absurd (hno h) (by omega)⟩
        intro hsome
        obtain ⟨r, hr⟩ := hsome
        cases hr
      · rw [bcGet_loaded h (by omega) (by omega)]
        exact ⟨fun _ _ => by omega, fun _ => ⟨_, rfl⟩⟩
  · rw [bcGet_notReady h]
    exact ⟨fun _ ho => absurd ho h, fun _ => ⟨_, rfl⟩⟩

/-! ## The words of an image -/

/-- The reads of `bcGet` deliver the words of `image`. -/
structure Delivers (x : Ext ε) (image : U8 → U16) (b : Process ε) : Prop where
  size : delivered x.gpio 0x1E b.drv = image 0x1E
  words : (loads x b).1 = (List.range (wordCount x b)).map fun i => image (BitVec.ofNat 8 (i + 0x1c))

section Attached

variable {dev : ε → Device}

theorem deliveredFrom_attached (ha : Attached x.gpio dev) (n i : Nat) {d : Drv ε} (h : d.status = .opened)
    (hrest : (dev d.env).AtRest) :
    (deliveredFrom x.gpio n i d).1 = (List.range' i n).map fun j => (dev d.env).store.mem (BitVec.ofNat 8 (j + 0x1c)) := by
  induction n generalizing i d with
  | zero => rfl
  | succ n ih =>
    obtain ⟨-, -, -, hstatus⟩ := readWord_opened (g := x.gpio) (BitVec.ofNat 8 (i + 0x1c)) h
    obtain ⟨hstore, hrest'⟩ := device_read ha (BitVec.ofNat 8 (i + 0x1c)) h hrest
    show delivered x.gpio (BitVec.ofNat 8 (i + 0x1c)) d :: (deliveredFrom x.gpio n (i + 1) _).1 = _
    rw [delivered_eq ha _ hrest, ih (i + 1) (hstatus.trans h) hrest', hstore]
    rfl

/-- A SEEPROM at rest delivers what it holds. -/
theorem delivers_attached (ha : Attached x.gpio dev) {b : Process ε} (h : b.drv.status = .opened)
    (hrest : (dev b.drv.env).AtRest) : Delivers x (dev b.drv.env).store.mem b where
  size := delivered_eq ha 0x1E hrest
  words := by
    obtain ⟨-, -, -, hstatus⟩ := readWord_opened (g := x.gpio) 0x1E h
    obtain ⟨hstore, hrest'⟩ := device_read ha 0x1E h hrest
    unfold loads
    rw [deliveredFrom_attached ha _ _ (hstatus.trans h) hrest', hstore, List.range_eq_range']

end Attached

theorem Delivers.wordCount_eq {image : U8 → U16} {b : Process ε} (hd : Delivers x image b) :
    wordCount x b = (image 0x1E).toNat / 2 := by
  unfold wordCount
  rw [hd.size]

/-- The SEEPROM of a process that has nothing else. -/
def seepromProcess (image : U8 → U16) : Process Device := Process.opened (Device.fresh image false)

theorem seeprom_delivers (image : U8 → U16) : Delivers (Ext.quiet seeprom 0 0) image (seepromProcess image) :=
  @delivers_attached Device (Ext.quiet seeprom 0 0) id seeprom_attached (seepromProcess image) rfl
    (Device.fresh_atRest image false)

/-- On a SEEPROM of zeros the size comes to nothing, and the CRC is asked for 2^32 - 2
    bytes. -/
theorem bcGet_emptyBoard :
    ¬ (bcGet (Ext.quiet seeprom 0 0) BcConfig.zero (seepromProcess fun _ => 0)).Returns := by
  have hsize : wordCount (Ext.quiet seeprom 0 0) (seepromProcess fun _ => 0) = 0 := (seeprom_delivers fun _ => 0).wordCount_eq
  rw [bcGet_overruns rfl (Or.inl hsize)]
  intro hsome
  obtain ⟨r, hr⟩ := hsome
  cases hr

end Board

end Iosu.Bsp
