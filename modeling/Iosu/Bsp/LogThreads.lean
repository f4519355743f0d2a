/-
  Iosu.Bsp.LogThreads — `log_open` from several threads (`log.c`).

  `log_mutex` is there to keep the calls of a process's threads apart. Here a call is the
  accesses that it makes to the log's variables, one at a time, and the threads make theirs in
  any order; semaphores can be created, and a wait comes back once it is granted. If
  `log_mutex` holds a semaphore at first, the handles and the table are those of the same
  calls one after the other. If not, nothing keeps two first calls from making one each
  (`log_open_threads`); a first call that is made alone is enough (`log_open_alone`).
-/

import Iosu.Bsp.LogTable
import Iosu.Lib.Lock

namespace Iosu.Bsp

open Iosu.Lib Iosu.Lib.Lock Iosu.Lib.Microwire Iosu.Libc Iosu.Ios Iosu.Eeprom Relation

variable {ε τ : Type}

/-! ## The accesses of a call -/

/-- What `log_mutex` guards. -/
structure LogSlots where
  log_fds : Vector LogFd 0x20
  active_log_fds : U32

def LogState.slots (log : LogState) : LogSlots := ⟨log.log_fds, log.active_log_fds⟩

def LogState.semaphore (log : LogState) : Option Nat :=
  if log.log_mutex.toInt < 0 then none else some log.log_mutex.toNat

def LogSlots.update (slots : LogSlots) (i : Fin 0x20) (f : LogFd → LogFd) : LogSlots :=
  { slots with log_fds := slots.log_fds.set i.val (f (slots.log_fds.get i)) (slot_lt i) }

/-- The access that comes next. -/
inductive OpenAt where
  | active (i : Nat) (ndx : Option (Fin 0x20))
  | name (i : Fin 0x20) (ndx : Option (Fin 0x20))
  | unk1 (i : Fin 0x20) (found : Bool)
  | unk2 (i : Fin 0x20) (found : Bool)
  | take (i : Fin 0x20)
  /-- `active_log_fds++` reads, and then writes. -/
  | count (i : Fin 0x20)
  | counted (i : Fin 0x20) (n : U32)
  | signal (ret : U32)

def behindSearch : Option (Fin 0x20) × Bool → OpenAt
  | (none, _) => .signal (-1)
  | (some i, found) => .unk1 i found

def log_open_step (c : LogCall) (slots : LogSlots) : OpenAt → (OpenAt × LogSlots) ⊕ U32
  | .active i ndx =>
    if h : i < 0x20 then
      if slots.log_fds[i].active = false then .inl (.active (i + 1) (ndx.or (some ⟨i, h⟩)), slots)
      else .inl (.name ⟨i, h⟩ ndx, slots)
    else .inl (behindSearch (ndx, false), slots)
  | .name i ndx =>
    if strncmp (slots.log_fds.get i).name c.name 16 = 0 then .inl (.unk1 i true, slots)
    else .inl (.active (i.val + 1) ndx, slots)
  | .unk1 i found => .inl (.unk2 i found, slots.update i fun fd => { fd with unk1 := c.unk1 })
  | .unk2 i found =>
    .inl (if found then .signal (BitVec.ofNat 32 i.val) else .take i, slots.update i fun fd => { fd with unk2 := c.unk2 })
  | .take i => .inl (.count i, slots.update i fun fd => { fd with active := true })
  | .count i => .inl (.counted i slots.active_log_fds, slots)
  | .counted i n => .inl (.signal (BitVec.ofNat 32 i.val), { slots with active_log_fds := n + 1 })
  | .signal ret => .inr ret

def logSection : Section LogCall (LogCall × OpenAt) U32 LogSlots where
  enter c := (c, .active 0 none)
  step k slots := (log_open_step k.1 slots k.2).map (fun next => ((k.1, next.1), next.2)) id

abbrev LogThreads (τ : Type) := Lock.State τ LogCall (LogCall × OpenAt) U32 LogSlots

/-! ## One call by itself -/

section Alone

variable {c : LogCall} {slots : LogSlots}

theorem access_of {k k' : OpenAt} {slots' : LogSlots} (h : log_open_step c slots k = .inl (k', slots')) :
    Accesses logSection ((c, k), slots) ((c, k'), slots') := by
  refine .single ?_
  show (log_open_step c slots k).map _ _ = _
  rw [h]
  rfl

/-- The accesses of the search come to what `findLog` comes to. -/
theorem search_accesses (c : LogCall) (slots : LogSlots) (n i : Nat) (hi : i + n = 0x20) (ndx : Option (Fin 0x20)) :
    ∃ r : Option (Fin 0x20) × Bool, Accesses logSection ((c, .active i ndx), slots) ((c, behindSearch r), slots) ∧
      findLog c.name (slots.log_fds.toList.drop i) i (ndx.map Fin.val) = (r.1.map Fin.val, r.2) := by
  induction n generalizing i ndx with
  | zero =>
    refine ⟨(ndx, false), access_of (dif_neg (by omega)), ?_⟩
    rw [List.drop_of_length_le (by simp; omega)]
    rfl
  | succ n ih =>
    have hlt : i < 0x20 := by omega
    rw [List.drop_eq_getElem_cons (by simpa using hlt), findLog, Vector.getElem_toList]
    by_cases hactive : slots.log_fds[i].active = false
    · have hread : log_open_step c slots (.active i ndx) = .inl (.active (i + 1) (ndx.or (some ⟨i, hlt⟩)), slots) :=
        (dif_pos hlt).trans (if_pos hactive)
      obtain ⟨r, hrun, hfind⟩ := ih (i + 1) (by omega) (ndx.or (some ⟨i, hlt⟩))
      refine ⟨r, (access_of hread).trans hrun, ?_⟩
      rw [if_pos hactive, ← hfind]
      cases ndx <;> rfl
    · have hread : log_open_step c slots (.active i ndx) = .inl (.name ⟨i, hlt⟩ ndx, slots) :=
        (dif_pos hlt).trans (if_neg hactive)
      rw [if_neg hactive]
      by_cases hname : strncmp slots.log_fds[i].name c.name 16 = 0
      · refine ⟨(some ⟨i, hlt⟩, true), (access_of hread).trans (access_of (if_pos hname)), ?_⟩
        rw [if_pos hname]
        rfl
      · obtain ⟨r, hrun, hfind⟩ := ih (i + 1) (by omega) ndx
        refine ⟨r, ((access_of hread).trans (access_of (if_neg hname))).trans hrun, ?_⟩
        rw [if_neg hname, hfind]

theorem update_update (i : Fin 0x20) (f g : LogFd → LogFd) :
    (slots.update i f).update i g = slots.update i fun fd => g (f fd) := by
  simp [LogSlots.update, vector_get]

/-- The accesses behind the search, where it has found a slot. -/
theorem opened_accesses (log : LogState) (mutex : U32) (i : Fin 0x20) (found : Bool) :
    Accesses logSection ((c, .unk1 i found), log.slots)
      ((c, .signal (BitVec.ofNat 32 i.val)), (log.opened mutex i found c).slots) := by
  have hset : Accesses logSection ((c, .unk1 i found), log.slots)
      ((c, if found then .signal (BitVec.ofNat 32 i.val) else .take i),
        log.slots.update i fun fd => { fd with unk1 := c.unk1, unk2 := c.unk2 }) := by
    rw [← update_update i (fun fd => { fd with unk1 := c.unk1 }) fun fd => { fd with unk2 := c.unk2 }]
    exact (access_of rfl).trans (access_of rfl)
  cases found with
  | true => exact hset
  | false =>
    have htaken : (log.opened mutex i false c).slots =
        { (log.slots.update i fun fd => { fd with unk1 := c.unk1, unk2 := c.unk2 }).update i fun fd =>
          { fd with active := true } with active_log_fds := log.active_log_fds + 1 } := by
      rw [update_update]
      rfl
    rw [htaken]
    exact hset.trans (((access_of rfl).trans (access_of rfl)).trans (access_of rfl))

end Alone

section Calls

variable {x : Ext ε}

/-- A call by itself is the accesses, from the first to the answer. The semaphore is there
    behind it. -/
theorem log_open_done (hx : SemaphoresOk x) (c : LogCall) (b : Process ε) :
    ∃ a b', log_open x c.name c.unk1 c.unk2 b = .ok (a, b') ∧ Done logSection c b.log.slots a b'.log.slots ∧
      ¬ b'.log.log_mutex.toInt < 0 := by
  have hdone : ∀ b : Process ε, ¬ b.log.log_mutex.toInt < 0 →
      ∃ a b', log_open x c.name c.unk1 c.unk2 b = .ok (a, b') ∧ Done logSection c b.log.slots a b'.log.slots ∧
        ¬ b'.log.log_mutex.toInt < 0 := by
    intro b hmutex
    have hwait := hx.wait b.log.log_mutex b.drv.env
    obtain ⟨⟨ndx, found⟩, hrun, hfind⟩ := search_accesses c b.log.slots 0x20 0 rfl none
    cases ndx with
    | none => exact ⟨_, _, log_open_full c hmutex hwait hfind, ⟨_, hrun, rfl⟩, hmutex⟩
    | some i =>
      have hall := hrun.trans (opened_accesses b.log b.log.log_mutex i found)
      exact ⟨_, _, log_open_scans c hmutex hwait hfind, ⟨_, hall, rfl⟩, hmutex⟩
  by_cases hmutex : b.log.log_mutex.toInt < 0
  · have hcreated : ¬ (b.created x).log.log_mutex.toInt < 0 := Int.not_lt.mpr (hx.create b.drv.env)
    rw [log_open_creates c hmutex hcreated]
    exact hdone (b.created x) hcreated
  · exact hdone b hmutex

theorem log_opens_snoc {calls : List LogCall} {c : LogCall} {handles : List U32} {a : U32} {b b₁ b₂ : Process ε}
    (h : log_opens x calls b = .ok (handles, b₁)) (hlast : log_open x c.name c.unk1 c.unk2 b₁ = .ok (a, b₂)) :
    log_opens x (calls ++ [c]) b = .ok (handles ++ [a], b₂) := by
  induction calls generalizing b handles with
  | nil =>
    cases h
    rw [List.nil_append]
    unfold log_opens
    rw [bspM_bind_ok hlast]
    rfl
  | cons c' calls ih =>
    obtain ⟨⟨a', b'⟩, hopen, hrest⟩ := Res.bind_eq_ok.mp h
    obtain ⟨⟨as, b''⟩, hopens, hend⟩ := Res.bind_eq_ok.mp hrest
    cases hend
    rw [List.cons_append]
    unfold log_opens
    rw [bspM_bind_ok hopen, bspM_bind_ok (ih hopens)]
    rfl

theorem sequential_log_opens (hx : SemaphoresOk x) (b : Process ε) {history : List (LogCall × U32)} {slots : LogSlots}
    (h : Sequential logSection b.log.slots history slots) :
    ∃ b', log_opens x (history.map Prod.fst) b = .ok (history.map Prod.snd, b') ∧ b'.log.slots = slots := by
  induction h with
  | nil => exact ⟨b, rfl, rfl⟩
  | @snoc history slots slots' c a _ hdone ih =>
    obtain ⟨b₁, hopens, rfl⟩ := ih
    obtain ⟨a', b₂, hopen, hdone', -⟩ := log_open_done hx c b₁
    obtain ⟨rfl, rfl⟩ := hdone.unique hdone'
    refine ⟨b₂, ?_, rfl⟩
    rw [List.map_append, List.map_append]
    exact log_opens_snoc hopens hopen

end Calls

/-! ## Any order -/

/-- The calls that have ended have the handles that they have one after the other; with
    nobody in the table it is as these leave it, and the calls on their way do not block
    each other. -/
structure OneByOne [DecidableEq τ] (x : Ext ε) (b : Process ε) (s : LogThreads τ) : Prop where
  handles : ∃ b', log_opens x (s.history.map Prod.fst) b = .ok (s.history.map Prod.snd, b') ∧
    ((∀ t, ¬ (s.threads t).Inside) → s.shared = b'.log.slots)
  progress : ∀ t, s.threads t ≠ .idle → ∃ u s', s.threads u ≠ .idle ∧ Step logSection u s s'

theorem guarded_oneByOne [DecidableEq τ] {x : Ext ε} (hx : SemaphoresOk x) {b : Process ε} {m : Nat} {s : LogThreads τ}
    (h : Lock.Guarded logSection m b.log.slots s) : OneByOne x b s where
  handles := by
    cases h.phase with
    | free _ _ hseq =>
      obtain ⟨b', hopens, hslots⟩ := sequential_log_opens hx b hseq
      exact ⟨b', hopens, fun _ => hslots.symm⟩
    | @held t _ _ _ _ hinside _ hseq =>
      obtain ⟨b', hopens, -⟩ := sequential_log_opens hx b hseq
      exact ⟨b', hopens, fun hnone => absurd (by rw [hinside]; trivial) (hnone t)⟩
  progress _ := h.progress

theorem semaphore_guards [DecidableEq τ] {b : Process ε} {s s' : LogThreads τ} (hmutex : ¬ b.log.log_mutex.toInt < 0)
    (h : Start b.log.semaphore b.log.slots s) (hreach : Reach logSection s s') :
    Lock.Guarded logSection b.log.log_mutex.toNat b.log.slots s' := by
  unfold LogState.semaphore at h
  rw [if_neg hmutex] at h
  exact guarded_reach h.guarded hreach

theorem log_open_threads [DecidableEq τ] [Nontrivial τ] {x : Ext ε} (hx : SemaphoresOk x) {b : Process ε}
    {s : LogThreads τ} (h : Start b.log.semaphore b.log.slots s) :
    ((∀ s', Reach logSection s s' → Exclusive s') ↔ ¬ b.log.log_mutex.toInt < 0) ∧
      (¬ b.log.log_mutex.toInt < 0 → ∀ s', Reach logSection s s' → OneByOne x b s') := by
  have hsemaphore : b.log.semaphore ≠ none ↔ ¬ b.log.log_mutex.toInt < 0 := by
    unfold LogState.semaphore
    split <;> simp [*]
  have : Nonempty LogCall := ⟨⟨[], 0, 0⟩⟩
  exact ⟨(exclusive_iff h).trans hsemaphore, fun hmutex s' hreach =>
    guarded_oneByOne hx (semaphore_guards hmutex h hreach)⟩

/-- Two threads that have not called yet. -/
def twoThreads (b : Process Device) : LogThreads Bool where
  lock := b.log.semaphore
  created := 1
  free := fun _ => true
  shared := b.log.slots
  threads := fun _ => .idle
  history := []

theorem twoThreads_start (b : Process Device) : Start b.log.semaphore b.log.slots (twoThreads b) where
  lock := rfl
  free _ _ := rfl
  idle _ := rfl
  shared := rfl
  history := rfl

/-- The log as it is loaded, and once its semaphore is there. -/
def loadedLog : Process Device := Process.start (Device.fresh (fun _ => 0) false)

def createdLog : Process Device := loadedLog.created (Ext.quiet seeprom 0 0)

theorem loadedLog_races : ¬ (∀ s', Reach logSection (twoThreads loadedLog) s' → Exclusive s') ∧
    (∀ s', Reach logSection (twoThreads createdLog) s' → Exclusive s') ∧
    ∀ s', Reach logSection (twoThreads createdLog) s' → OneByOne (Ext.quiet seeprom 0 0) createdLog s' := by
  have hloaded := log_open_threads (quiet_semaphoresOk seeprom 0 0) (twoThreads_start loadedLog)
  have hcreated := log_open_threads (quiet_semaphoresOk seeprom 0 0) (twoThreads_start createdLog)
  have hmutex : ¬ createdLog.log.log_mutex.toInt < 0 := by decide
  exact ⟨fun h => hloaded.1.mp h (by decide), hcreated.1.mpr hmutex, hcreated.2 hmutex⟩

/-- One call that was made alone, as `bspInitEssential` makes the first, is enough: the
    threads behind it are kept apart. -/
theorem log_open_alone [DecidableEq τ] {x : Ext ε} (hx : SemaphoresOk x) (c : LogCall) (b : Process ε) :
    ∃ a b', log_open x c.name c.unk1 c.unk2 b = .ok (a, b') ∧ ∀ s : LogThreads τ,
      Start b'.log.semaphore b'.log.slots s → ∀ s', Reach logSection s s' → Exclusive s' ∧ OneByOne x b' s' := by
  obtain ⟨a, b', hopen, -, hmutex⟩ := log_open_done hx c b
  refine ⟨a, b', hopen, fun s h s' hreach => ?_⟩
  have hguarded := semaphore_guards hmutex h hreach
  exact ⟨hguarded.phase.exclusive, guarded_oneByOne hx hguarded⟩

end Iosu.Bsp
