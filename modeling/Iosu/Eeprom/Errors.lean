/-
  Iosu.Eeprom.Errors — which failed accesses the driver reports.

  The setters of the pins answer an error, and `init` or-s the three answers together;
  everything else drops them, and a failed read of EEPROM_DI counts as a 0. So on an
  open driver a read, an EWDS and an EWEN answer IOS_ERROR_OK whatever happened on the
  pins, and a write and an ERAL do when a poll finds EEPROM_DI high afterwards.
  `honest_iff` says when IOS_ERROR_OK is to be believed.
-/

import Iosu.Eeprom.Calls

namespace Iosu.Eeprom

open Iosu.Lib Iosu.Lib.Serial Iosu.Entity Iosu.Ios

variable {ε : Type}

/-! ## What a call performed -/

/-- The accesses of a call that led from `d` to `d'`, and their answers. -/
def performed (d d' : Drv ε) : List (Access × BspRval) := (accesses d'.wire).drop (accesses d.wire).length

/-- The call answers IOS_ERROR_OK only if its first `n` accesses succeeded. -/
def Honest (n : Nat) (call : Drv ε → Res Fault (IosError × Drv ε)) (d : Drv ε) : Prop :=
  ∀ d', call d = .ok (IOS_ERROR_OK, d') → ∀ p ∈ (performed d d').take n, p.2 = BSP_RVAL_OK

/-- The call opens the driver only if all its accesses succeeded. -/
def OpensHonestly (call : Drv ε → Res Fault (IosError × Drv ε)) (d : Drv ε) : Prop :=
  ∀ err d', call d = .ok (err, d') → d.status ≠ .opened → d'.status = .opened →
    ∀ p ∈ performed d d', p.2 = BSP_RVAL_OK

/-- The answer of a read, without the word. -/
def readWordReply (g : Gpio ε) (eeprom_ndx : Int) (addr : U8) (d : Drv ε) : Res Fault (IosError × Drv ε) := do
  let ((err, _), d) ← eepromDrvReadWord g eeprom_ndx addr d
  .ok (err, d)

/-! ## Honesty -/

section Honesty

variable {g : Gpio ε}

theorem performed_log {d d' : Drv ε} {s : List Access} (h : accesses d'.wire = accesses d.wire ++ g.log s d.env) :
    performed d d' = g.log s d.env := by
  unfold performed
  rw [h, List.drop_left]

/-- The first accesses of a call are those of the script it starts with. -/
theorem forall_performed {d d' : Drv ε} {s r : List Access} {n : Nat} (hn : s.length = n)
    (h : accesses d'.wire = accesses d.wire ++ g.log (s ++ r) d.env) :
    (∀ p ∈ (performed d d').take n, p.2 = BSP_RVAL_OK) ↔ g.AllOk s d.env := by
  have hlen : (g.log s d.env).length = n := by rw [g.log_length, hn]
  rw [performed_log h, g.log_append, List.take_left' hlen]
  exact g.forall_mem_log

/-- Behind the check of the index, the call is the one on eeprom 0. -/
theorem onEeprom_eq_ok {α : Type} {eeprom_ndx : Int} {refused a : α} {m : DrvM ε α} {d d' : Drv ε} :
    onEeprom eeprom_ndx refused m d = .ok (a, d') ↔
      (1 ≤ eeprom_ndx ∧ a = refused ∧ d' = d) ∨ (eeprom_ndx = 0 ∧ m d = (a, d')) := by
  unfold onEeprom NUM_EEPROMS
  by_cases hge : eeprom_ndx < 1
  · rw [if_neg (not_not.mpr hge)]
    by_cases h0 : eeprom_ndx = 0
    · rw [if_pos h0]
      simp [h0]
    · rw [if_neg h0]
      have h1 : ¬ 1 ≤ eeprom_ndx := by omega
      simp [h0, h1]
  · rw [if_pos hge]
    have h0 : eeprom_ndx ≠ 0 := by omega
    have h1 : 1 ≤ eeprom_ndx := by omega
    simp only [h0, h1, false_and, or_false, true_and, Res.ok.injEq, Prod.mk.injEq]
    exact ⟨fun h => ⟨h.1.symm, h.2.symm⟩, fun h => ⟨h.1.symm, h.2.symm⟩⟩

theorem honest_onEeprom {n : Nat} {eeprom_ndx : Int} {m : DrvM ε IosError} {d : Drv ε} :
    Honest n (onEeprom eeprom_ndx IOS_ERROR_MAX m) d ↔
      (eeprom_ndx = 0 → (m d).1 = IOS_ERROR_OK → ∀ p ∈ (performed d (m d).2).take n, p.2 = BSP_RVAL_OK) := by
  unfold Honest
  refine ⟨?_, ?_⟩
  · intro h h0 hok
    refine h (m d).2 (onEeprom_eq_ok.mpr (Or.inr ⟨h0, ?_⟩))
    rw [← hok]
    rfl
  · intro h d' hcall
    rcases onEeprom_eq_ok.mp hcall with ⟨-, hmax, -⟩ | ⟨h0, hm⟩
    · exact absurd hmax (by decide)
    · have := h h0 (by rw [hm])
      rw [hm] at this
      exact this

theorem readWordReply_eq_ok {eeprom_ndx : Int} {addr : U8} {d d' : Drv ε} {err : IosError} :
    readWordReply g eeprom_ndx addr d = .ok (err, d') ↔
      ∃ data, eepromDrvReadWord g eeprom_ndx addr d = .ok ((err, data), d') := by
  unfold readWordReply
  rw [Res.bind_eq_ok]
  refine ⟨?_, ?_⟩
  · intro hsome
    obtain ⟨⟨⟨err', data⟩, d₁⟩, hread, heq⟩ := hsome
    cases heq
    exact ⟨data, hread⟩
  · intro hsome
    obtain ⟨data, hread⟩ := hsome
    exact ⟨((err, data), d'), hread, rfl⟩

/-- A read answers IOS_ERROR_OK on every open driver. -/
theorem readWord_honest_iff (eeprom_ndx : Int) (addr : U8) (d : Drv ε) :
    Honest (4 * (11 + 16)) (readWordReply g eeprom_ndx addr) d ↔
      (eeprom_ndx = 0 → d.status = .opened → g.AllOk (readScript addr) d.env) := by
  refine ⟨?_, ?_⟩
  · intro h h0 hopen
    obtain ⟨hval, hwire, -, -⟩ := readWord_opened (g := g) addr hopen
    have hread : eepromDrvReadWord g eeprom_ndx addr d =
        .ok ((IOS_ERROR_OK, some (delivered g addr d)), (readWord g addr d).2) :=
      onEeprom_eq_ok.mpr (Or.inr ⟨h0, Prod.ext hval rfl⟩)
    exact (forall_performed (readScript_length addr) hwire).mp (h _ (readWordReply_eq_ok.mpr ⟨_, hread⟩))
  · intro h d' hcall
    obtain ⟨data, hread⟩ := readWordReply_eq_ok.mp hcall
    rcases onEeprom_eq_ok.mp hread with ⟨-, hmax, -⟩ | ⟨h0, hm⟩
    · exact absurd (congrArg Prod.fst hmax) (by decide : IOS_ERROR_OK ≠ IOS_ERROR_MAX)
    by_cases hopen : d.status = .opened
    · obtain ⟨-, hwire, -, -⟩ := readWord_opened (g := g) addr hopen
      rw [hm] at hwire
      exact (forall_performed (readScript_length addr) hwire).mpr (h h0 hopen)
    · rw [readWord_refused hopen addr] at hm
      cases hm

theorem writeWord_honest_iff (eeprom_ndx : Int) (addr : U8) (data : U16) (d : Drv ε) :
    Honest (4 * 27) (eepromDrvWriteWord g eeprom_ndx addr data) d ↔
      (eeprom_ndx = 0 → d.status = .opened → g.BecomesReady (writeScript addr data) d.env →
        g.AllOk (writeScript addr data) d.env) := by
  unfold eepromDrvWriteWord
  rw [honest_onEeprom]
  refine imp_congr_right fun _ => ?_
  by_cases hopen : d.status = .opened
  · obtain ⟨⟨k, ⟨hwire, -, -⟩, -⟩, hok⟩ := writeWord_opened (g := g) addr data hopen
    rw [hok, forall_performed (writeScript_length addr data) hwire]
    exact ⟨fun h _ => h, fun h => h hopen⟩
  · rw [writeWord_refused hopen addr data]
    exact ⟨fun _ ho => absurd ho hopen, fun _ hok => absurd hok (by decide : IOS_ERROR_NOTREADY ≠ IOS_ERROR_OK)⟩

theorem setWriteControl_honest_iff (eeprom_ndx : Int) (control : U32) (d : Drv ε) :
    Honest (4 * 11) (eepromDrvSetWriteControl g eeprom_ndx control) d ↔
      (eeprom_ndx = 0 → d.status = .opened → ∀ f, controlFrame control = some f →
        (control = EEPROM_WRITE_ERASE → g.BecomesReady (f.flatMap cellScript) d.env) →
          g.AllOk (f.flatMap cellScript) d.env) := by
  unfold eepromDrvSetWriteControl
  rw [honest_onEeprom]
  refine imp_congr_right fun _ => ?_
  by_cases hopen : d.status = .opened
  · cases hf : controlFrame control with
    | none =>
      rw [setWriteControl_unknown hopen hf]
      exact ⟨fun _ _ f hf' => absurd hf' (by simp), fun _ hok => absurd hok (by decide : IOS_ERROR_INVALID ≠ IOS_ERROR_OK)⟩
    | some f =>
      have hlen : (f.flatMap cellScript).length = 4 * 11 := by
        rw [cells_length, controlFrame_length hf]
      have hiff : ((setWriteControl g control d).1 = IOS_ERROR_OK →
            ∀ p ∈ (performed d (setWriteControl g control d).2).take (4 * 11), p.2 = BSP_RVAL_OK) ↔
          ((control = EEPROM_WRITE_ERASE → g.BecomesReady (f.flatMap cellScript) d.env) →
            g.AllOk (f.flatMap cellScript) d.env) := by
        by_cases herase : control = EEPROM_WRITE_ERASE
        · subst herase
          cases hf
          obtain ⟨⟨k, ⟨hwire, -, -⟩, -⟩, hok⟩ := setWriteControl_erase (g := g) hopen
          rw [hok, forall_performed hlen hwire]
          exact ⟨fun h hr => h (hr rfl), fun h hr => h fun _ => hr⟩
        · obtain ⟨⟨hwire, -, -⟩, hok⟩ := setWriteControl_switch (g := g) control hopen herase hf
          rw [hok, forall_performed hlen hwire]
          exact ⟨fun h _ => h rfl, fun h _ => h fun he => absurd he herase⟩
      rw [hiff]
      refine ⟨?_, fun h => h hopen f rfl⟩
      intro h _ f' hf'
      cases hf'
      exact h
  · rw [setWriteControl_refused hopen control]
    exact ⟨fun _ ho => absurd ho hopen, fun _ hok => absurd hok (by decide : IOS_ERROR_NOTREADY ≠ IOS_ERROR_OK)⟩

/-- An open that succeeds performs the lowering of the pins, and nothing more. -/
theorem performed_open (d : Drv ε) : performed d { lowered g d with status := .opened } = g.log lowerScript d.env :=
  performed_log (lowered_follows (g := g) d).1

theorem openCtx_honest_iff (eeprom_ndx : Int) (d : Drv ε) :
    OpensHonestly (eepromDrvOpen g eeprom_ndx) d ↔
      (eeprom_ndx = 0 → d.status = .closed ∨ d.status = .initialised → g.AllOk lowerScript d.env) := by
  refine ⟨?_, ?_⟩
  · intro h h0 hgate
    have hclosed : d.status ≠ .opened := by
      intro ho
      rw [ho] at hgate
      rcases hgate with hc | hc <;> cases hc
    have hopen : eepromDrvOpen g eeprom_ndx d = .ok (IOS_ERROR_OK, { lowered g d with status := .opened }) :=
      onEeprom_eq_ok.mpr (Or.inr ⟨h0, openCtx_opened hgate⟩)
    have hall := h _ _ hopen hclosed rfl
    rw [performed_open] at hall
    exact g.forall_mem_log.mp hall
  · intro h err d' hcall hclosed hopened
    rcases onEeprom_eq_ok.mp hcall with ⟨-, -, rfl⟩ | ⟨h0, hm⟩
    · exact absurd hopened hclosed
    by_cases hgate : d.status = .closed ∨ d.status = .initialised
    · rw [openCtx_opened hgate] at hm
      cases hm
      rw [performed_open]
      exact g.forall_mem_log.mpr (h h0 hgate)
    · rw [openCtx_refused hgate] at hm
      cases hm
      exact absurd hopened hclosed

/-- Whether IOS_ERROR_OK of a read, a write or a change of the write control means that
    the accesses up to the last bit of its frame succeeded, and whether an open driver
    means that opening it did: for a read and for opening, exactly when those accesses
    do succeed; for a write and an ERAL also when no poll finds EEPROM_DI high. -/
theorem honest_iff (g : Gpio ε) (eeprom_ndx : Int) (d : Drv ε) :
    (∀ addr, Honest (4 * (11 + 16)) (readWordReply g eeprom_ndx addr) d ↔
      (eeprom_ndx = 0 → d.status = .opened → g.AllOk (readScript addr) d.env)) ∧
    (∀ addr data, Honest (4 * 27) (eepromDrvWriteWord g eeprom_ndx addr data) d ↔
      (eeprom_ndx = 0 → d.status = .opened → g.BecomesReady (writeScript addr data) d.env →
        g.AllOk (writeScript addr data) d.env)) ∧
    (∀ control, Honest (4 * 11) (eepromDrvSetWriteControl g eeprom_ndx control) d ↔
      (eeprom_ndx = 0 → d.status = .opened → ∀ f, controlFrame control = some f →
        (control = EEPROM_WRITE_ERASE → g.BecomesReady (f.flatMap cellScript) d.env) →
          g.AllOk (f.flatMap cellScript) d.env)) ∧
    (OpensHonestly (eepromDrvOpen g eeprom_ndx) d ↔
      (eeprom_ndx = 0 → d.status = .closed ∨ d.status = .initialised → g.AllOk lowerScript d.env)) :=
  ⟨fun addr => readWord_honest_iff eeprom_ndx addr d, fun addr data => writeWord_honest_iff eeprom_ndx addr data d,
    fun control => setWriteControl_honest_iff eeprom_ndx control d, openCtx_honest_iff eeprom_ndx d⟩

/-- Pins that answer nothing but BSP_RVAL_DEVICE_ERROR. -/
def deadGpio : Gpio Unit where
  write := fun _ _ env => (BSP_RVAL_DEVICE_ERROR, env)
  readDI := fun env => (BSP_RVAL_DEVICE_ERROR, 0, env)

/-- A read of dead pins answers IOS_ERROR_OK, with a word of failed samples. -/
theorem deadGpio_reads :
    (readWord deadGpio 0x1e (Drv.start .opened ())).1 =
        (IOS_ERROR_OK, some (delivered deadGpio 0x1e (Drv.start .opened ()))) ∧
      ¬ Honest (4 * (11 + 16)) (readWordReply deadGpio 0 0x1e) (Drv.start .opened ()) := by
  refine ⟨(readWord_opened 0x1e rfl).1, ?_⟩
  intro h
  have hall := (readWord_honest_iff 0 0x1e _).mp h rfl rfl
  have hmem : BSP_RVAL_DEVICE_ERROR ∈ deadGpio.answers (readScript 0x1e) () := List.mem_cons_self
  exact absurd (hall _ hmem) (by decide)

end Honesty

end Iosu.Eeprom
