/-
  Iosu.Bsp.Streaming — data streaming on the 60Xe bus (`bsp_ppc.c`).

  LT_60XE_CFG reads back what was last written to it, and is kept beside the process. A
  one that is written should clear its streaming bit and anything else set it; the bit is
  or-ed in, though, and never taken out (`written_streaming`). So a one is read back only
  where nothing but ones was ever written (`roundTrips_iff`).
-/

import Iosu.Bsp.Detectors

namespace Iosu.Bsp

open Iosu.Lib Iosu.Lib.Microwire Iosu.Entity Iosu.Ios Iosu.Eeprom

variable {ε : Type}

def LT_60XE_CFG_STREAMING : U32 := 1 <<< 3
def LT_60XE_CFG_LATCH : U32 := 1 <<< 12

/-- With `BSPSleep`, which the source does not define. -/
structure SleepExt (ε : Type) extends Ext ε where
  bspSleep : U32 → ε → ε

structure StreamState (ε : Type) where
  proc : Process ε
  lt60xeCfg : U32

abbrev StreamM (ε : Type) := StateT (StreamState ε) (Res Fault)

/-- A function of the process. -/
def onProcess {α : Type} (m : BspM ε α) : StreamM ε α := fun s => do
  let (a, proc) ← m s.proc
  .ok (a, { s with proc := proc })

def setCfg (word : U32) : StreamM ε Unit := modify fun s => { s with lt60xeCfg := word }

section Functions

variable (x : SleepExt ε)

def bspPPC_Read60XeDataStreaming (_inst : U32) (pReadData : Buf) : StreamM ε (BspRval × Buf) := do
  let (ret, hwver) ← onProcess (bspMethodGetHardwareVersion x.toExt)
  if ret ≠ BSP_RVAL_OK then return (ret, pReadData)
  if BSP_IS_LATTE hwver = false then return (BSP_RVAL_UNSUPPORTED_METHOD, pReadData)
  let streaming : U8 := if (← get).lt60xeCfg &&& LT_60XE_CFG_STREAMING = 0 then 1 else 0
  return (BSP_RVAL_OK, pReadData.store [streaming])

def bspPPC_Write60XeDataStreaming (_inst : U32) (pWrittenData : Buf) : StreamM ε BspRval := do
  let (ret, hwver) ← onProcess (bspMethodGetHardwareVersion x.toExt)
  if ret ≠ BSP_RVAL_OK then return ret
  if BSP_IS_LATTE hwver = false then return BSP_RVAL_UNSUPPORTED_METHOD
  let reg := (← get).lt60xeCfg
  setCfg (reg ||| LT_60XE_CFG_LATCH)
  onProcess (callExt fun env => ((), x.bspSleep 10 env))
  let cmd := pWrittenData 0
  let streaming := if cmd = 1 then 0 else LT_60XE_CFG_STREAMING
  setCfg (reg ||| streaming ||| LT_60XE_CFG_LATCH)
  setCfg ((reg ||| streaming) &&& ~~~ LT_60XE_CFG_LATCH)
  return BSP_RVAL_OK

/-- A write for each of the buffers: the answers. -/
def streamingWrites (inst : U32) : List Buf → StreamM ε (List BspRval)
  | [] => return []
  | d :: ds => do
    let ret ← bspPPC_Write60XeDataStreaming x inst d
    let rets ← streamingWrites inst ds
    return ret :: rets

/-- The writes, and a read behind them. -/
def writesThenRead (inst : U32) (ds : List Buf) (pReadData : Buf) : StreamM ε (List BspRval × BspRval × Buf) := do
  let rets ← streamingWrites x inst ds
  let (ret, buf) ← bspPPC_Read60XeDataStreaming x inst pReadData
  return (rets, ret, buf)

end Functions

/-! ## The register -/

/-- What a write leaves in the register. -/
def written (reg : U32) (cmd : U8) : U32 :=
  (reg ||| (if cmd = 1 then 0 else LT_60XE_CFG_STREAMING)) &&& ~~~ LT_60XE_CFG_LATCH

/-- The bits that the two functions have no part in. -/
def LT_60XE_CFG_OTHERS : U32 := ~~~ (LT_60XE_CFG_STREAMING ||| LT_60XE_CFG_LATCH)

theorem written_latch (reg : U32) (cmd : U8) : written reg cmd &&& LT_60XE_CFG_LATCH = 0 := by
  unfold written
  rw [BitVec.and_assoc, show ~~~ LT_60XE_CFG_LATCH &&& LT_60XE_CFG_LATCH = 0#32 by decide]
  exact BitVec.and_zero

theorem written_others (reg : U32) (cmd : U8) : written reg cmd &&& LT_60XE_CFG_OTHERS = reg &&& LT_60XE_CFG_OTHERS := by
  unfold written
  rw [BitVec.and_assoc, show ~~~ LT_60XE_CFG_LATCH &&& LT_60XE_CFG_OTHERS = LT_60XE_CFG_OTHERS by decide,
    BitVec.and_or_distrib_right]
  split
  · rw [show (0 : U32) &&& LT_60XE_CFG_OTHERS = 0#32 by decide]
    exact BitVec.or_zero
  · rw [show LT_60XE_CFG_STREAMING &&& LT_60XE_CFG_OTHERS = 0#32 by decide]
    exact BitVec.or_zero

/-- The streaming bit stays clear only where a one is written over a clear bit. -/
theorem written_streaming (reg : U32) (cmd : U8) :
    written reg cmd &&& LT_60XE_CFG_STREAMING = 0 ↔ reg &&& LT_60XE_CFG_STREAMING = 0 ∧ cmd = 1 := by
  unfold written
  rw [BitVec.and_assoc, show ~~~ LT_60XE_CFG_LATCH &&& LT_60XE_CFG_STREAMING = LT_60XE_CFG_STREAMING by decide,
    BitVec.and_or_distrib_right]
  refine BitVec.or_eq_zero_iff.trans (and_congr_right fun _ => ?_)
  by_cases h : cmd = 1
  · rw [if_pos h]
    exact ⟨fun _ => h, fun _ => by decide⟩
  · rw [if_neg h]
    exact ⟨fun h0 => absurd h0 (by decide), fun h1 => absurd h1 h⟩

theorem foldl_written (reg : U32) (ds : List Buf) (d : Buf) :
    let reg' := (ds ++ [d]).foldl (fun reg d => written reg (d 0)) reg
    (reg' &&& LT_60XE_CFG_STREAMING = 0 ↔ reg &&& LT_60XE_CFG_STREAMING = 0 ∧ ∀ e ∈ ds ++ [d], e 0 = 1) ∧
      reg' &&& LT_60XE_CFG_LATCH = 0 ∧ reg' &&& LT_60XE_CFG_OTHERS = reg &&& LT_60XE_CFG_OTHERS := by
  induction ds generalizing reg with
  | nil =>
    refine ⟨(written_streaming reg (d 0)).trans ?_, written_latch reg (d 0), written_others reg (d 0)⟩
    simp
  | cons e ds ih =>
    obtain ⟨hstreaming, hlatch, hothers⟩ := ih (written reg (e 0))
    refine ⟨hstreaming.trans ?_, hlatch, hothers.trans (written_others reg (e 0))⟩
    rw [written_streaming, List.cons_append, List.forall_mem_cons, and_assoc]

/-! ## Runs -/

/-- The hardware is, or is found to be, a Latte. -/
def OnLatte (x : Ext ε) (b : Process ε) : Prop :=
  ∃ version b', bspMethodGetHardwareVersion x b = .ok ((BSP_RVAL_OK, version), b') ∧ BSP_IS_LATTE version = true

section Runs

variable {x : SleepExt ε}

/-- Once found, it stays one. -/
theorem onLatte_of_found {b b₁ b₂ : Process ε} {version : U32}
    (h : bspMethodGetHardwareVersion x.toExt b = .ok ((BSP_RVAL_OK, version), b₁)) (hlatte : BSP_IS_LATTE version = true)
    (hsame : b₂.bspHardwareVersion = b₁.bspHardwareVersion) : OnLatte x.toExt b₂ := by
  obtain ⟨hver, hne⟩ := method_caches h
  exact ⟨version, b₂, method_stable hver hne x.toExt b₂ hsame, hlatte⟩

theorem onProcess_ok {α : Type} {m : BspM ε α} {s : StreamState ε} {a : α} {b : Process ε} (h : m s.proc = .ok (a, b)) :
    onProcess m s = .ok (a, { s with proc := b }) := by
  unfold onProcess
  rw [h]
  rfl

theorem streamM_bind_ok {α β : Type} {m : StreamM ε α} {a : α} {s s' : StreamState ε} (h : m s = .ok (a, s'))
    (k : α → StreamM ε β) : (m >>= k) s = k a s' := by
  show (m s >>= fun p => k p.1 p.2) = _
  rw [h]
  rfl

/-- A write of a Latte's. -/
theorem write_onLatte {s : StreamState ε} (h : OnLatte x.toExt s.proc) (inst : U32) (d : Buf) :
    ∃ s', bspPPC_Write60XeDataStreaming x inst d s = .ok (BSP_RVAL_OK, s') ∧ s'.lt60xeCfg = written s.lt60xeCfg (d 0) ∧
      OnLatte x.toExt s'.proc := by
  obtain ⟨version, b, hmethod, hlatte⟩ := h
  have hnext : OnLatte x.toExt { b with drv := { b.drv with env := x.bspSleep 10 b.drv.env } } :=
    onLatte_of_found hmethod hlatte rfl
  refine ⟨⟨_, written s.lt60xeCfg (d 0)⟩, ?_, rfl, hnext⟩
  unfold bspPPC_Write60XeDataStreaming
  rw [streamM_bind_ok (onProcess_ok hmethod)]
  dsimp only
  rw [if_neg (by decide), hlatte]
  rfl

theorem read_onLatte {s : StreamState ε} (h : OnLatte x.toExt s.proc) (inst : U32) (pReadData : Buf) :
    ∃ b, bspPPC_Read60XeDataStreaming x inst pReadData s =
      .ok ((BSP_RVAL_OK, pReadData.store [if s.lt60xeCfg &&& LT_60XE_CFG_STREAMING = 0 then 1 else 0]),
        { s with proc := b }) := by
  obtain ⟨version, b, hmethod, hlatte⟩ := h
  refine ⟨b, ?_⟩
  unfold bspPPC_Read60XeDataStreaming
  rw [streamM_bind_ok (onProcess_ok hmethod)]
  dsimp only
  rw [if_neg (by decide), hlatte]
  rfl

theorem writes_onLatte {s : StreamState ε} (h : OnLatte x.toExt s.proc) (inst : U32) (ds : List Buf) :
    ∃ rets s', streamingWrites x inst ds s = .ok (rets, s') ∧ (∀ ret ∈ rets, ret = BSP_RVAL_OK) ∧
      s'.lt60xeCfg = ds.foldl (fun reg d => written reg (d 0)) s.lt60xeCfg ∧ OnLatte x.toExt s'.proc := by
  induction ds generalizing s with
  | nil => exact ⟨[], s, rfl, by simp, rfl, h⟩
  | cons d ds ih =>
    obtain ⟨s₁, hwrite, hcfg, h₁⟩ := write_onLatte h inst d
    obtain ⟨rets, s₂, hwrites, hok, hcfg₂, h₂⟩ := ih h₁
    refine ⟨BSP_RVAL_OK :: rets, s₂, ?_, ?_, ?_, h₂⟩
    · unfold streamingWrites
      rw [streamM_bind_ok hwrite, streamM_bind_ok hwrites]
      rfl
    · simpa using hok
    · rw [hcfg₂, hcfg]
      rfl

end Runs

/-! ## Round trips -/

/-- Behind the writes, the last one's value is read: 1 for a one and 0 for anything else.
    The latch is clear, and the other bits of the register are as they were. -/
def RoundTrips (x : SleepExt ε) (inst : U32) (ds : List Buf) (d pReadData : Buf) (s : StreamState ε) : Prop :=
  ∃ rets buf s', writesThenRead x inst (ds ++ [d]) pReadData s = .ok ((rets, BSP_RVAL_OK, buf), s') ∧
    (∀ ret ∈ rets, ret = BSP_RVAL_OK) ∧ buf 0 = (if d 0 = 1 then 1 else 0) ∧
    s'.lt60xeCfg &&& LT_60XE_CFG_LATCH = 0 ∧ s'.lt60xeCfg &&& LT_60XE_CFG_OTHERS = s.lt60xeCfg &&& LT_60XE_CFG_OTHERS

/-- On a Latte the last write is read back exactly when it is not of a one, or nothing
    but ones was written before it, over a clear streaming bit. -/
theorem roundTrips_iff (x : SleepExt ε) (inst : U32) (ds : List Buf) (d pReadData : Buf) {s : StreamState ε}
    (h : OnLatte x.toExt s.proc) :
    RoundTrips x inst ds d pReadData s ↔
      d 0 ≠ 1 ∨ (s.lt60xeCfg &&& LT_60XE_CFG_STREAMING = 0 ∧ ∀ e ∈ ds, e 0 = 1) := by
  obtain ⟨rets, s₁, hwrites, hok, hcfg, h₁⟩ := writes_onLatte h inst (ds ++ [d])
  obtain ⟨b, hread⟩ := read_onLatte h₁ inst pReadData
  obtain ⟨hstreaming, hlatch, hothers⟩ := foldl_written s.lt60xeCfg ds d
  rw [← hcfg] at hstreaming hlatch hothers
  have hrun : writesThenRead x inst (ds ++ [d]) pReadData s =
      .ok ((rets, BSP_RVAL_OK, pReadData.store [if s₁.lt60xeCfg &&& LT_60XE_CFG_STREAMING = 0 then 1 else 0]),
        { s₁ with proc := b }) := by
    unfold writesThenRead
    rw [streamM_bind_ok hwrites, streamM_bind_ok hread]
    rfl
  have hbyte : RoundTrips x inst ds d pReadData s ↔
      (if s₁.lt60xeCfg &&& LT_60XE_CFG_STREAMING = 0 then (1 : U8) else 0) = if d 0 = 1 then 1 else 0 := by
    refine ⟨?_, fun hb => ⟨rets, _, _, hrun, hok, hb, hlatch, hothers⟩⟩
    intro hsome
    obtain ⟨rets', buf, s', hrun', -, hb, -, -⟩ := hsome
    rw [hrun] at hrun'
    cases hrun'
    exact hb
  rw [hbyte]
  by_cases hd : d 0 = 1
  · rw [if_pos hd]
    have hall : (∀ e ∈ ds ++ [d], e 0 = 1) ↔ ∀ e ∈ ds, e 0 = 1 := by
      refine ⟨fun h e he => h e (List.mem_append_left _ he), fun h e he => ?_⟩
      rcases List.mem_append.mp he with he | he
      · exact h e he
      · rw [List.mem_singleton.mp he]
        exact hd
    rw [hall] at hstreaming
    rw [← hstreaming]
    by_cases hclear : s₁.lt60xeCfg &&& LT_60XE_CFG_STREAMING = 0
    · rw [if_pos hclear]
      exact ⟨fun _ => Or.inr hclear, fun _ => rfl⟩
    · rw [if_neg hclear]
      exact ⟨fun h01 => absurd h01 (by decide), fun hor => absurd (hor.resolve_left (not_not.mpr hd)) hclear⟩
  · have hset : ¬ s₁.lt60xeCfg &&& LT_60XE_CFG_STREAMING = 0 := by
      rw [hstreaming]
      intro hboth
      exact hd (hboth.2 d (by simp))
    rw [if_neg hset, if_neg hd]
    exact ⟨fun _ => Or.inl hd, fun _ => rfl⟩

/-- The surroundings of a SEEPROM, with a sleep that passes at once. -/
def seepromSleep : SleepExt Device := { Ext.quiet seeprom 0x21 0xCAFE0050 with bspSleep := fun _ env => env }

/-- A Latte that was found to be one. -/
def latteState (cfg : U32) : StreamState Device where
  proc := { seepromProcess (fun _ => 0) with bspHardwareVersion := latteRevision 0x50 ||| BSP_VARIANT_CAFE }
  lt60xeCfg := cfg

theorem latteState_onLatte (cfg : U32) : OnLatte seepromSleep.toExt (latteState cfg).proc := by
  have hne : latteRevision 0x50 ||| BSP_VARIANT_CAFE ≠ 0 := by decide
  have hlatte : BSP_IS_LATTE (latteRevision 0x50 ||| BSP_VARIANT_CAFE) = true := by decide
  exact ⟨_, _, method_cached hne, hlatte⟩

/-- Two ones in a row are read back. -/
theorem ones_roundTrip : RoundTrips seepromSleep 0 [fun _ => 1] (fun _ => 1) (fun _ => 0) (latteState 0x1000) :=
  (roundTrips_iff seepromSleep 0 [fun _ => 1] (fun _ => 1) (fun _ => 0) (latteState_onLatte 0x1000)).mpr
    (Or.inr ⟨by decide, fun e he => by rw [List.mem_singleton.mp he]⟩)

/-- A one behind a zero is not: what is read is 0. -/
theorem zero_sticks : ¬ RoundTrips seepromSleep 0 [fun _ => 0] (fun _ => 1) (fun _ => 0xFF) (latteState 0) := by
  intro hsome
  obtain ⟨rets, buf, s', hrun, -, hbyte, -, -⟩ := hsome
  have hread : ∃ s₁, writesThenRead seepromSleep 0 [fun _ => 0, fun _ => 1] (fun _ => 0xFF) (latteState 0) =
      .ok (([BSP_RVAL_OK, BSP_RVAL_OK], BSP_RVAL_OK, Buf.store (fun _ => 0xFF) [0]), s₁) := ⟨_, rfl⟩
  obtain ⟨s₁, hread⟩ := hread
  rw [List.singleton_append, hread] at hrun
  cases hrun
  exact absurd hbyte (by decide)

end Iosu.Bsp
