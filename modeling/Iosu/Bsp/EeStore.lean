/-
  Iosu.Bsp.EeStore — the EE entity as a store of words.

  `EeOp` is a read or a write of "access" at some instance, or a write of "control". On
  an open driver with a SEEPROM on its pins, each is the operation of the device's store
  that its name says (`call_spec`). So a read returns what the history says
  (`MostRecent`): the word last written to its address while the device was
  write-enabled, or what the device held at the start.
-/

import Iosu.Bsp.Ee
import Iosu.Eeprom.Store
import Iosu.Lib.Slots

namespace Iosu.Bsp

open Iosu.Lib Iosu.Lib.Serial Iosu.Lib.Microwire Iosu.Lib.Microwire.Device Iosu.Lib.Slots Iosu.Entity Iosu.Ios Iosu.Eeprom

variable {ε : Type}

/-! ## Operations and their history -/

inductive EeOp where
  | read (inst : U32) (pReadData : Buf)
  | write (inst : U32) (pWrittenData : Buf)
  | control (inst : U32) (pWrittenData : Buf)

namespace EeOp

/-- The callback. -/
def call (x : Ext ε) : EeOp → BspM ε BspRval
  | .read inst pReadData => do
    let (ret, _) ← bspEE_access_read x inst pReadData
    return ret
  | .write inst pWrittenData => bspEE_access_write x inst pWrittenData
  | .control inst pWrittenData => bspEE_control_write x inst pWrittenData

def callAll (x : Ext ε) : List EeOp → BspM ε Unit
  | [] => return
  | op :: ops => do
    let _ ← op.call x
    callAll x ops

/-- Whether the device is write-enabled behind the operation. -/
def enables (enabled : Bool) : EeOp → Bool
  | .control _ p => if p.load32 0 = 1 then true else if p.load32 0 = 2 then false else enabled
  | .read _ _ => enabled
  | .write _ _ => enabled

/-- The word it writes, if the device is write-enabled. -/
def touches (enabled : Bool) : EeOp → List (Touch U8 U16)
  | .write inst p => if enabled then [.opened (eeAddress inst) (p.load16 0)] else []
  | .read _ _ => []
  | .control _ _ => []

/-- The writes of a run that find the device write-enabled, in order. -/
def history : Bool → List EeOp → List (Touch U8 U16)
  | _, [] => []
  | enabled, op :: ops => op.touches enabled ++ history (op.enables enabled) ops

/-- What a callback answers. -/
def answer : EeOp → BspRval
  | .control _ p => if p.load32 0 = 1 ∨ p.load32 0 = 2 then BSP_RVAL_OK else BSP_RVAL_INVALID_PARAMETER
  | .read _ _ => BSP_RVAL_OK
  | .write _ _ => BSP_RVAL_OK

/-- The store behind the operation. -/
def store (s : Store) : EeOp → Store
  | .write inst p => s.program (Function.update s.mem (eeAddress inst) (p.load16 0))
  | .control inst p => { s with enabled := (EeOp.control inst p).enables s.enabled }
  | .read _ _ => s

end EeOp

/-- `w` was written to the address last, or nothing was and it is the initial word. -/
def MostRecent (init : U8 → U16) (ts : List (Touch U8 U16)) (addr : U8) (w : U16) : Prop :=
  LastOpened addr w ts ∨ ((∀ t ∈ ts, t.slot ≠ addr) ∧ w = init addr)

/-! ## The store and the history -/

theorem EeOp.store_enabled (s : Store) (op : EeOp) : (op.store s).enabled = op.enables s.enabled := by
  cases op with
  | read inst p => rfl
  | write inst p => exact Store.program_enabled s _
  | control inst p => rfl

/-- No operation changes any address but the one it writes. -/
theorem EeOp.store_frame (s : Store) (op : EeOp) {a : U8} (h : ∀ inst p, op = .write inst p → eeAddress inst ≠ a) :
    (op.store s).mem a = s.mem a := by
  cases op with
  | read inst p => rfl
  | control inst p => rfl
  | write inst p =>
    show (s.program (Function.update s.mem (eeAddress inst) (p.load16 0))).mem a = s.mem a
    unfold Store.program
    split
    · exact Function.update_of_ne (Ne.symm (h inst p rfl)) _ _
    · rfl

/-- The array as the history left it. -/
def replay (init : U8 → U16) (h : U8 → Option U16) : U8 → U16 := fun a => (h a).getD (init a)

theorem EeOp.store_mem (init : U8 → U16) (h : U8 → Option U16) (enabled : Bool) (op : EeOp) :
    (op.store ⟨replay init h, enabled⟩).mem = replay init ((op.touches enabled).foldl apply h) := by
  cases op with
  | read inst p => rfl
  | control inst p => rfl
  | write inst p =>
    cases enabled with
    | false => rfl
    | true =>
      funext a
      show Function.update (replay init h) (eeAddress inst) (p.load16 0) a =
        ((Function.update h (eeAddress inst) (some (p.load16 0))) a).getD (init a)
      by_cases ha : a = eeAddress inst
      · subst ha
        rw [Function.update_self, Function.update_self]
        rfl
      · rw [Function.update_of_ne ha, Function.update_of_ne ha]
        rfl

/-- The store behind a run. -/
def EeOp.storeAll (s : Store) (ops : List EeOp) : Store := ops.foldl EeOp.store s

theorem EeOp.storeAll_mem (init : U8 → U16) (ops : List EeOp) (h : U8 → Option U16) (enabled : Bool) :
    (EeOp.storeAll ⟨replay init h, enabled⟩ ops).mem = replay init ((EeOp.history enabled ops).foldl apply h) := by
  induction ops generalizing h enabled with
  | nil => rfl
  | cons op ops ih =>
    have hstep : op.store ⟨replay init h, enabled⟩ =
        ⟨replay init ((op.touches enabled).foldl apply h), op.enables enabled⟩ := by
      have hmem := EeOp.store_mem init h enabled op
      have hen := EeOp.store_enabled ⟨replay init h, enabled⟩ op
      cases hs : op.store ⟨replay init h, enabled⟩ with
      | mk mem en =>
        rw [hs] at hmem hen
        rw [← hmem, ← hen]
    show (EeOp.storeAll (op.store ⟨replay init h, enabled⟩) ops).mem = _
    rw [hstep, ih, EeOp.history, List.foldl_append]

theorem mostRecent_replay (init : U8 → U16) (ts : List (Touch U8 U16)) (addr : U8)
    (hopened : ∀ t ∈ ts, t.holder ≠ none) : MostRecent init ts addr (replay init (holders ts) addr) := by
  unfold replay
  cases hh : holders ts addr with
  | some w => exact Or.inl ((holders_eq_some_iff addr w ts).mp hh)
  | none =>
    refine Or.inr ⟨?_, rfl⟩
    rcases exists_last_touch addr ts with hnone | ⟨before, t, after, hts, ht, hafter⟩
    · exact hnone
    · cases hholder : t.holder with
      | none => exact absurd hholder (hopened t (by rw [hts]; simp))
      | some w =>
        have hlast : LastOpened addr w ts := ⟨before, after, by rw [hts, Touch.eq_opened_iff.mpr ⟨ht, hholder⟩], hafter⟩
        rw [(holders_eq_some_iff addr w ts).mpr hlast] at hh
        cases hh

theorem EeOp.history_opened (enabled : Bool) (ops : List EeOp) : ∀ t ∈ EeOp.history enabled ops, t.holder ≠ none := by
  induction ops generalizing enabled with
  | nil =>
    intro t ht
    cases ht
  | cons op ops ih =>
    intro t ht
    rcases List.mem_append.mp ht with ht | ht
    · cases op with
      | read inst p => cases ht
      | control inst p => cases ht
      | write inst p =>
        cases enabled with
        | false => cases ht
        | true =>
          rw [List.mem_singleton.mp ht]
          simp [Touch.holder]
    · exact ih _ t ht

/-! ## The callbacks on a SEEPROM -/

section Attached

variable {x : Ext ε} {dev : ε → Device}

/-- The driver is open, and the device behind its pins at rest. -/
def Ready (dev : ε → Device) (b : Process ε) : Prop := b.drv.status = .opened ∧ AtRest (dev b.drv.env)

theorem access_read_spec (ha : Attached x.gpio dev) (inst : U32) (p : Buf) {b : Process ε} (hb : Ready dev b) :
    ∃ b', bspEE_access_read x inst p b =
        .ok ((BSP_RVAL_OK, p.store (Buf.ofU16 ((dev b.drv.env).store.mem (eeAddress inst)))), b') ∧
      Ready dev b' ∧ (dev b'.drv.env).store = (dev b.drv.env).store := by
  obtain ⟨hval, -, -, hstatus⟩ := readWord_opened (g := x.gpio) (eeAddress inst) hb.1
  obtain ⟨hstore, hrest⟩ := device_read ha (eeAddress inst) hb.1 hb.2
  refine ⟨{ b with drv := (readWord x.gpio (eeAddress inst) b.drv).2 }, ?_, ⟨hstatus.trans hb.1, hrest⟩, hstore⟩
  unfold bspEE_access_read
  rw [bspM_bind_ok (call_readWord x.gpio b (eeAddress inst)), hval, delivered_eq ha (eeAddress inst) hb.2]
  rfl

theorem access_write_spec (ha : Attached x.gpio dev) (inst : U32) (p : Buf) {b : Process ε} (hb : Ready dev b) :
    ∃ b', bspEE_access_write x inst p b = .ok (BSP_RVAL_OK, b') ∧
      Ready dev b' ∧ (dev b'.drv.env).store = (EeOp.write inst p).store (dev b.drv.env).store := by
  obtain ⟨⟨k, ⟨-, -, hstatus⟩, -⟩, -⟩ := writeWord_opened (g := x.gpio) (eeAddress inst) (p.load16 0) hb.1
  obtain ⟨hok, hstore, hrest⟩ := device_write ha (eeAddress inst) (p.load16 0) hb.1 hb.2
  refine ⟨{ b with drv := (writeWord x.gpio (eeAddress inst) (p.load16 0) b.drv).2 }, ?_,
    ⟨hstatus.trans hb.1, hrest⟩, hstore⟩
  unfold bspEE_access_write
  rw [bspM_bind_ok (call_writeWord x.gpio b (eeAddress inst) (p.load16 0)), hok]
  rfl

theorem control_write_spec (ha : Attached x.gpio dev) (inst : U32) (p : Buf) {b : Process ε} (hb : Ready dev b) :
    ∃ b', bspEE_control_write x inst p b = .ok ((EeOp.control inst p).answer, b') ∧
      Ready dev b' ∧ (dev b'.drv.env).store = (EeOp.control inst p).store (dev b.drv.env).store := by
  unfold bspEE_control_write controlCommand EeOp.answer EeOp.store EeOp.enables
  -- 1 is EWEN, 2 is EWDS; anything else is turned away before the driver is called
  by_cases h1 : p.load32 0 = 1
  · obtain ⟨⟨-, -, hstatus⟩, -⟩ :=
      setWriteControl_switch (g := x.gpio) EEPROM_WRITE_ENABLE (f := ewen) hb.1 (by decide) rfl
    obtain ⟨hok, hstore, hrest⟩ :=
      device_switch ha EEPROM_WRITE_ENABLE (f := ewen) hb.1 (by decide) rfl hb.2
    simp only [h1]
    refine ⟨{ b with drv := (setWriteControl x.gpio EEPROM_WRITE_ENABLE b.drv).2 }, ?_, ⟨hstatus.trans hb.1, hrest⟩, hstore⟩
    show (callDrv (eepromDrvSetWriteControl x.gpio 0 EEPROM_WRITE_ENABLE) >>= _) b = _
    rw [bspM_bind_ok (call_setWriteControl x.gpio b EEPROM_WRITE_ENABLE), hok]
    rfl
  · by_cases h2 : p.load32 0 = 2
    · obtain ⟨⟨-, -, hstatus⟩, -⟩ :=
        setWriteControl_switch (g := x.gpio) EEPROM_WRITE_DISABLE (f := ewds) hb.1 (by decide) rfl
      obtain ⟨hok, hstore, hrest⟩ :=
        device_switch ha EEPROM_WRITE_DISABLE (f := ewds) hb.1 (by decide) rfl hb.2
      simp only [h2]
      refine ⟨{ b with drv := (setWriteControl x.gpio EEPROM_WRITE_DISABLE b.drv).2 }, ?_,
        ⟨hstatus.trans hb.1, hrest⟩, hstore⟩
      show (callDrv (eepromDrvSetWriteControl x.gpio 0 EEPROM_WRITE_DISABLE) >>= _) b = _
      rw [bspM_bind_ok (call_setWriteControl x.gpio b EEPROM_WRITE_DISABLE), hok]
      rfl
    · simp only [h1, h2, if_false, or_self]
      exact ⟨b, rfl, hb, rfl⟩

/-- Each callback is the operation of the store that its name says. -/
theorem EeOp.call_spec (ha : Attached x.gpio dev) (op : EeOp) {b : Process ε} (hb : Ready dev b) :
    ∃ b', op.call x b = .ok (op.answer, b') ∧ Ready dev b' ∧ (dev b'.drv.env).store = op.store (dev b.drv.env).store := by
  cases op with
  | read inst p =>
    obtain ⟨b', hcall, hready, hstore⟩ := access_read_spec ha inst p hb
    refine ⟨b', ?_, hready, hstore⟩
    show (bspEE_access_read x inst p >>= _) b = _
    rw [bspM_bind_ok hcall]
    rfl
  | write inst p => exact access_write_spec ha inst p hb
  | control inst p => exact control_write_spec ha inst p hb

/-- A run of callbacks is the run of their operations. -/
theorem EeOp.callAll_spec (ha : Attached x.gpio dev) (ops : List EeOp) {b : Process ε} (hb : Ready dev b) :
    ∃ b', EeOp.callAll x ops b = .ok ((), b') ∧ Ready dev b' ∧
      (dev b'.drv.env).store = EeOp.storeAll (dev b.drv.env).store ops := by
  induction ops generalizing b with
  | nil => exact ⟨b, rfl, hb, rfl⟩
  | cons op ops ih =>
    obtain ⟨b₁, hcall, hb₁, hstore₁⟩ := op.call_spec ha hb
    obtain ⟨b₂, hrest, hb₂, hstore₂⟩ := ih hb₁
    refine ⟨b₂, ?_, hb₂, ?_⟩
    · rw [EeOp.callAll, bspM_bind_ok hcall]
      exact hrest
    · rw [hstore₂, hstore₁]
      rfl

/-- On an open driver with a SEEPROM on its pins, after any run of callbacks: a read
    stores the word last written to its address while the device was write-enabled, or
    what the device held at the start; and no callback but a write to the address
    changes the word there. -/
theorem access_read_mostRecent (ha : Attached x.gpio dev) {b : Process ε} (hb : Ready dev b) (ops : List EeOp) :
    ∃ b', EeOp.callAll x ops b = .ok ((), b') ∧
      (∀ inst p, ∃ w b'', bspEE_access_read x inst p b' = .ok ((BSP_RVAL_OK, p.store (Buf.ofU16 w)), b'') ∧
        MostRecent (dev b.drv.env).store.mem (EeOp.history (dev b.drv.env).store.enabled ops) (eeAddress inst) w) ∧
      (∀ op : EeOp, ∃ b'', op.call x b' = .ok (op.answer, b'') ∧
        ∀ a, (∀ inst p, op = .write inst p → eeAddress inst ≠ a) →
          (dev b''.drv.env).store.mem a = (dev b'.drv.env).store.mem a) := by
  obtain ⟨b', hrun, hb', hstore⟩ := EeOp.callAll_spec ha ops hb
  refine ⟨b', hrun, ?_, ?_⟩
  · intro inst p
    obtain ⟨b'', hread, -, -⟩ := access_read_spec ha inst p hb'
    refine ⟨_, b'', hread, ?_⟩
    have hmem : (dev b'.drv.env).store.mem =
        replay (dev b.drv.env).store.mem (holders (EeOp.history (dev b.drv.env).store.enabled ops)) := by
      rw [hstore]
      exact EeOp.storeAll_mem (dev b.drv.env).store.mem ops (fun _ => none) (dev b.drv.env).store.enabled
    rw [hmem]
    exact mostRecent_replay _ _ _ (EeOp.history_opened _ ops)
  · intro op
    obtain ⟨b'', hcall, -, hstore'⟩ := op.call_spec ha hb'
    refine ⟨b'', hcall, fun a ha' => ?_⟩
    rw [hstore']
    exact op.store_frame _ ha'

/-- Behind EWEN, the word written at instance 0x1e is read back at 0x11e, which has the
    same address. -/
theorem seeprom_reads_back :
    ∃ b' b'', EeOp.callAll (Ext.quiet seeprom 0 0)
        [.control 0 (Buf.store (fun _ => 0) [0, 0, 0, 1]), .write 0x1e (Buf.store (fun _ => 0) [0xab, 0xcd])]
        (Process.opened (Device.fresh (fun _ => 0) false)) = .ok ((), b') ∧
      bspEE_access_read (Ext.quiet seeprom 0 0) 0x11e (fun _ => 0) b' =
        .ok ((BSP_RVAL_OK, Buf.store (fun _ => 0) [0xab, 0xcd]), b'') := by
  obtain ⟨b', hrun, hread, -⟩ := @access_read_mostRecent Device (Ext.quiet seeprom 0 0) id seeprom_attached
    (Process.opened (Device.fresh (fun _ => 0) false)) ⟨rfl, Device.fresh_atRest _ _⟩
    [.control 0 (Buf.store (fun _ => 0) [0, 0, 0, 1]), .write 0x1e (Buf.store (fun _ => 0) [0xab, 0xcd])]
  obtain ⟨w, b'', hw, hlast | ⟨hnone, -⟩⟩ := hread 0x11e (fun _ => 0)
  · have hholder := (holders_eq_some_iff _ _ _).mpr hlast
    obtain rfl : (0xabcd : U16) = w := Option.some.inj hholder
    exact ⟨b', b'', hrun, hw⟩
  · exact absurd rfl (hnone _ List.mem_cons_self)

end Attached

end Iosu.Bsp
