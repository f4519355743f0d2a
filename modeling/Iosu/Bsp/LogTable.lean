/-
  Iosu.Bsp.LogTable — what `log_open` keeps of its table (`log.c`).

  The slots that are taken are the first of `log_fds`, `active_log_fds` is their number, and
  every wait that is granted has its signal, whatever the names are and whatever the
  semaphore's calls return (`log_table_kept`).

  The calls of the semaphore are seen in surroundings that keep a record of them.
-/

import Iosu.Bsp.LogHandles
import Iosu.Libc.Sprintf

namespace Iosu.Bsp

open Iosu.Lib Iosu.Libc Iosu.Entity Iosu.Ios Iosu.Eeprom

variable {ε : Type}

/-! ## A record of the semaphore -/

inductive SemEvent where
  | wait (mutex : U32) (err : IosError)
  | signal (mutex : U32)
  deriving DecidableEq, Repr

/-- A world, and what was called so far. -/
abbrev Recorded (ε : Type) := ε × List SemEvent

/-- A call, with what it shows in the record. -/
def recording {α : Type} (shows : α → List SemEvent) (f : ε → α × ε) : Recorded ε → α × Recorded ε :=
  fun e => ((f e.1).1, (f e.1).2, e.2 ++ shows (f e.1).1)

/-- A call of something else, with two results. -/
def unrecorded {α β : Type} (f : ε → α × β × ε) : Recorded ε → α × β × Recorded ε :=
  fun e => ((f e.1).1, (f e.1).2.1, (f e.1).2.2, e.2)

/-- The same surroundings, which keep the record. -/
def Ext.recorded (x : Ext ε) : Ext (Recorded ε) where
  gpio := { write := fun pin state => recording (fun _ => []) (x.gpio.write pin state), readDI := unrecorded x.gpio.readDI }
  hwChiprevid e := x.hwChiprevid e.1
  ltChiprevid e := x.ltChiprevid e.1
  bspCheckCortado := unrecorded x.bspCheckCortado
  bspEepromRead addr word := unrecorded (x.bspEepromRead addr word)
  iosCreateSemaphore := recording (fun _ => []) x.iosCreateSemaphore
  iosWaitSemaphore mutex := recording (fun err => [.wait mutex err]) (x.iosWaitSemaphore mutex)
  iosSignalSemaphore mutex e := (x.iosSignalSemaphore mutex e.1, e.2 ++ [.signal mutex])

/-- Every wait that was granted is followed by one signal of its semaphore, and there is no
    other signal. -/
inductive Released : List SemEvent → Prop where
  | nil : Released []
  | refused {t : List SemEvent} (mutex : U32) {err : IosError} : Released t → err ≠ IOS_ERROR_OK →
      Released (t ++ [.wait mutex err])
  | signalled {t : List SemEvent} (mutex : U32) : Released t → Released (t ++ [.wait mutex IOS_ERROR_OK, .signal mutex])

/-! ## The table -/

structure TableInv (log : LogState) : Prop where
  counted : log.active_log_fds.toInt = log.log_fds.toList.countP LogFd.active
  bounded : log.active_log_fds.toInt ≤ 32
  /-- The slots that are taken are a prefix. -/
  packed : ∀ i j : Fin 0x20, i ≤ j → (log.log_fds.get j).active = true → (log.log_fds.get i).active = true

/-- The first `n` slots are taken, and counted. -/
structure SlotsTaken (n : Nat) (log : LogState) : Prop where
  active : ∀ i : Fin 0x20, (log.log_fds.get i).active = decide (i.val < n)
  count : log.active_log_fds = BitVec.ofNat 32 n
  room : n ≤ 0x20

theorem slotsTaken_start (env : ε) : SlotsTaken 0 (Process.start env).log where
  active := fun i => by simp [Process.start, vector_get]
  count := rfl
  room := Nat.zero_le _

theorem countP_prefix {α : Type} {p : α → Bool} {l : List α} {n : Nat} (hn : n ≤ l.length)
    (h : ∀ i (hi : i < l.length), p l[i] = decide (i < n)) : l.countP p = n := by
  have htaken : (l.take n).countP p = (l.take n).length := by
    refine List.countP_eq_length.mpr fun a ha => ?_
    obtain ⟨i, hi, rfl⟩ := List.getElem_of_mem ha
    rw [List.length_take] at hi
    rw [List.getElem_take, h i (by omega)]
    exact decide_eq_true (by omega)
  have hfree : (l.drop n).countP p = 0 := by
    refine List.countP_eq_zero.mpr fun a ha => ?_
    obtain ⟨i, hi, rfl⟩ := List.getElem_of_mem ha
    rw [List.length_drop] at hi
    rw [List.getElem_drop, h (n + i) (by omega)]
    simp
  rw [← List.take_append_drop n l, List.countP_append, htaken, hfree, List.length_take]
  omega

section SlotsTaken

variable {n : Nat} {log : LogState}

theorem SlotsTaken.tableInv (h : SlotsTaken n log) : TableInv log := by
  have hroom := h.room
  have hcount : log.active_log_fds.toInt = n := by
    rw [h.count]
    exact (toInt_ofNat_iff n).mpr (by omega)
  have htaken : log.log_fds.toList.countP LogFd.active = n := by
    refine countP_prefix (by simpa using hroom) fun i hi => ?_
    rw [Vector.getElem_toList]
    exact h.active ⟨i, by simpa using hi⟩
  refine ⟨by rw [hcount, htaken], by rw [hcount]; omega, fun i j hij hj => ?_⟩
  rw [h.active] at hj ⊢
  have hlt := of_decide_eq_true hj
  exact decide_eq_true (by omega)

theorem SlotsTaken.again (h : SlotsTaken n log) (mutex : U32) (i : Fin 0x20) (c : LogCall) :
    SlotsTaken n (log.opened mutex i true c) where
  active := fun j => by rw [opened_active, h.active j]; simp
  count := h.count
  room := h.room

theorem SlotsTaken.taken (h : SlotsTaken n log) (mutex : U32) {i : Fin 0x20} (hi : i.val = n) (c : LogCall) :
    SlotsTaken (n + 1) (log.opened mutex i false c) where
  active := opened_next h.active mutex hi c
  count := by
    show log.active_log_fds + 1 = _
    rw [h.count, BitVec.ofNat_add]
    rfl
  room := hi ▸ i.isLt

end SlotsTaken

/-! ## The search -/

instance (name : CStr) (fd : LogFd) : Decidable (fd.isFor name) := inferInstanceAs (Decidable (_ ∧ _))

/-- A slot of the name is found if there is one. -/
theorem findLog_finds {name : CStr} {fds : List LogFd} (h : ∃ fd ∈ fds, fd.isFor name) :
    ∃ i < fds.length, findLog name fds 0 none = (some i, true) := by
  obtain ⟨fd, hmem, hfor⟩ := h
  cases hfind : fds.find? (fun fd => fd.isFor name) with
  | none => exact absurd (decide_eq_true hfor) (List.find?_eq_none.mp hfind fd hmem)
  | some fd' =>
    obtain ⟨hfor', pre, post, hsplit, hpre⟩ := List.find?_eq_some_iff_append.mp hfind
    refine ⟨pre.length, by rw [hsplit]; simp, ?_⟩
    have hfound := findLog_found pre (fun fd hfd => by simpa using hpre fd hfd) (of_decide_eq_true hfor') post 0 none
    rw [hsplit, hfound, Nat.zero_add]

/-- It ends at a slot of the name, at the next free one, or in a full table. -/
theorem SlotsTaken.search {n : Nat} {log : LogState} (h : SlotsTaken n log) (name : CStr) :
    (∃ i : Fin 0x20, findLog name log.log_fds.toList 0 none = (some i.val, true)) ∨
      (∃ i : Fin 0x20, i.val = n ∧ findLog name log.log_fds.toList 0 none = (some i.val, false)) ∨
      findLog name log.log_fds.toList 0 none = (none, false) := by
  by_cases hfor : ∃ fd ∈ log.log_fds.toList, fd.isFor name
  · obtain ⟨i, hi, hfound⟩ := findLog_finds hfor
    exact Or.inl ⟨⟨i, by simpa using hi⟩, hfound⟩
  have hno : ∀ fd ∈ log.log_fds.toList, ¬ fd.isFor name := fun fd hfd hname => hfor ⟨fd, hfd, hname⟩
  rw [findLog_free hno]
  rcases Nat.lt_or_ge n 0x20 with hn | hn
  · refine Or.inr (Or.inl ⟨⟨n, hn⟩, rfl, ?_⟩)
    rw [findIdx_free h.active hn]
    simp
  · refine Or.inr (Or.inr ?_)
    have hnone : log.log_fds.toList.findIdx? (fun fd => fd.active = false) = none := by
      refine List.findIdx?_eq_none_iff.mpr fun fd hfd => ?_
      obtain ⟨i, hi, rfl⟩ := List.getElem_of_mem hfd
      have hlt : i < 0x20 := by simpa using hi
      have hact : log.log_fds[i].active = decide (i < n) := h.active ⟨i, hlt⟩
      rw [Vector.getElem_toList, hact]
      simp
      omega
    rw [hnone]
    rfl

/-! ## One call -/

/-- What a call keeps, in the process and in its record. -/
structure LogKept (b : Process (Recorded ε)) : Prop where
  table : ∃ n, SlotsTaken n b.log
  released : Released b.drv.env.2

section Call

variable {x : Ext ε} {b : Process (Recorded ε)}

theorem LogKept.created (h : LogKept b) : LogKept (b.created x.recorded) where
  table := by
    obtain ⟨n, htaken⟩ := h.table
    exact ⟨n, htaken.active, htaken.count, htaken.room⟩
  released := by
    show Released (b.drv.env.2 ++ [])
    rw [List.append_nil]
    exact h.released

/-- The wait fails. -/
theorem log_open_refused {x : Ext ε} {b : Process ε} (c : LogCall) (hmutex : ¬ b.log.log_mutex.toInt < 0)
    (hwait : (x.iosWaitSemaphore b.log.log_mutex b.drv.env).1 ≠ IOS_ERROR_OK) :
    log_open x c.name c.unk1 c.unk2 b =
      .ok (-1, b.logged b.log (x.iosWaitSemaphore b.log.log_mutex b.drv.env).2) := by
  unfold log_open
  rw [bspM_bind_ok (bspM_get b), if_neg hmutex]
  dsimp only
  rw [bspM_bind_ok (bspM_get b), if_neg hmutex, bspM_bind_ok (bspM_callExt _ _), if_pos hwait]
  rfl

/-- The table is full. -/
theorem log_open_full {x : Ext ε} {b : Process ε} (c : LogCall) {found : Bool} (hmutex : ¬ b.log.log_mutex.toInt < 0)
    (hwait : (x.iosWaitSemaphore b.log.log_mutex b.drv.env).1 = IOS_ERROR_OK)
    (h : findLog c.name b.log.log_fds.toList 0 none = (none, found)) :
    log_open x c.name c.unk1 c.unk2 b =
      .ok (-1, b.logged b.log (x.iosSignalSemaphore b.log.log_mutex (x.iosWaitSemaphore b.log.log_mutex b.drv.env).2)) := by
  unfold log_open
  rw [bspM_bind_ok (bspM_get b), if_neg hmutex]
  dsimp only
  rw [bspM_bind_ok (bspM_get b), if_neg hmutex, bspM_bind_ok (bspM_callExt _ _), if_neg (not_not.mpr hwait),
    bspM_bind_ok (bspM_get _)]
  dsimp only
  rw [h]
  rfl

/-- There is no semaphore, and none can be created. -/
theorem log_open_uncreated {x : Ext ε} {b : Process ε} (c : LogCall) (hmutex : b.log.log_mutex.toInt < 0)
    (hcreated : (b.created x).log.log_mutex.toInt < 0) :
    log_open x c.name c.unk1 c.unk2 b = .ok (-1, b.created x) := by
  unfold log_open
  rw [bspM_bind_ok (bspM_get b), if_pos hmutex]
  show (ite ((b.created x).log.log_mutex.toInt < 0) _ _ : BspM ε U32) (b.created x) = _
  rw [if_pos hcreated]
  rfl

theorem slot_ne_none (i : Fin 0x20) : BitVec.ofNat 32 i.val ≠ -1 := by
  intro h
  have hnat : (BitVec.ofNat 32 i.val).toNat = (-1 : U32).toNat := congrArg BitVec.toNat h
  have hnone : (-1 : U32).toNat = 2 ^ 32 - 1 := rfl
  rw [BitVec.toNat_ofNat, hnone] at hnat
  omega

/-- A call that has the semaphore, by what the wait returns and where the search ends. -/
theorem LogKept.scans (h : LogKept b) (c : LogCall) (hmutex : ¬ b.log.log_mutex.toInt < 0) :
    ∃ handle b', log_open x.recorded c.name c.unk1 c.unk2 b = .ok (handle, b') ∧ LogKept b' ∧
      (handle = -1 → b'.log.log_fds = b.log.log_fds) := by
  obtain ⟨n, htaken⟩ := h.table
  have hrecord : ((x.recorded.iosWaitSemaphore b.log.log_mutex b.drv.env).2).2 =
      b.drv.env.2 ++ [.wait b.log.log_mutex (x.recorded.iosWaitSemaphore b.log.log_mutex b.drv.env).1] := rfl
  by_cases hwait : (x.recorded.iosWaitSemaphore b.log.log_mutex b.drv.env).1 = IOS_ERROR_OK
  · have hsignal : Released (x.recorded.iosSignalSemaphore b.log.log_mutex
        (x.recorded.iosWaitSemaphore b.log.log_mutex b.drv.env).2).2 := by
      show Released (_ ++ [.signal b.log.log_mutex])
      rw [hrecord, hwait, List.append_assoc]
      exact h.released.signalled b.log.log_mutex
    rcases htaken.search c.name with ⟨i, hfound⟩ | ⟨i, hi, hfree⟩ | hfull
    · exact ⟨_, _, log_open_scans c hmutex hwait hfound, ⟨⟨n, htaken.again _ i c⟩, hsignal⟩,
        fun hnone => absurd hnone (slot_ne_none i)⟩
    · exact ⟨_, _, log_open_scans c hmutex hwait hfree, ⟨⟨n + 1, htaken.taken _ hi c⟩, hsignal⟩,
        fun hnone => absurd hnone (slot_ne_none i)⟩
    · exact ⟨_, _, log_open_full c hmutex hwait hfull, ⟨⟨n, htaken⟩, hsignal⟩, fun _ => rfl⟩
  · refine ⟨_, _, log_open_refused c hmutex hwait, ⟨⟨n, htaken⟩, ?_⟩, fun _ => rfl⟩
    show Released ((x.recorded.iosWaitSemaphore b.log.log_mutex b.drv.env).2).2
    rw [hrecord]
    exact h.released.refused _ hwait

theorem LogKept.step (h : LogKept b) (c : LogCall) :
    ∃ handle b', log_open x.recorded c.name c.unk1 c.unk2 b = .ok (handle, b') ∧ LogKept b' ∧
      (handle = -1 → b'.log.log_fds = b.log.log_fds) := by
  by_cases hmutex : b.log.log_mutex.toInt < 0
  · have hkept : LogKept (b.created x.recorded) := h.created
    by_cases hcreated : (b.created x.recorded).log.log_mutex.toInt < 0
    · exact ⟨_, _, log_open_uncreated c hmutex hcreated, hkept, fun _ => rfl⟩
    · rw [log_open_creates c hmutex hcreated]
      exact hkept.scans c hcreated
  · exact h.scans c hmutex

theorem LogKept.run (h : LogKept b) (calls : List LogCall) :
    ∃ handles b', log_opens x.recorded calls b = .ok (handles, b') ∧ LogKept b' := by
  induction calls generalizing b with
  | nil => exact ⟨[], b, rfl, h⟩
  | cons c calls ih =>
    obtain ⟨handle, b₁, hopen, hkept, -⟩ := h.step c
    obtain ⟨handles, b', hopens, hend⟩ := ih hkept
    refine ⟨handle :: handles, b', ?_, hend⟩
    unfold log_opens
    rw [bspM_bind_ok hopen, bspM_bind_ok hopens]
    rfl

end Call

/-- Behind any calls, a call comes back with its invariant, and without a handle it left the
    slots as they were. -/
theorem log_table_kept (x : Ext ε) (env : ε) (done : List LogCall) (c : LogCall) :
    ∃ handles b₁ handle b₂, log_opens x.recorded done (Process.start (env, [])) = .ok (handles, b₁) ∧
      log_open x.recorded c.name c.unk1 c.unk2 b₁ = .ok (handle, b₂) ∧
      TableInv b₂.log ∧ Released b₂.drv.env.2 ∧ (handle = -1 → b₂.log.log_fds = b₁.log.log_fds) := by
  have hstart : LogKept (Process.start (env, [])) := ⟨⟨0, slotsTaken_start _⟩, Released.nil⟩
  obtain ⟨handles, b₁, hopens, hkept⟩ := hstart.run (x := x) done
  obtain ⟨handle, b₂, hopen, ⟨⟨n, htaken⟩, hreleased⟩, hnone⟩ := hkept.step (x := x) c
  exact ⟨handles, b₁, handle, b₂, hopens, hopen, htaken.tableInv, hreleased, hnone⟩

end Iosu.Bsp
