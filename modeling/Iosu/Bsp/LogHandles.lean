/-
  Iosu.Bsp.LogHandles — the handles that `log_open` gives out (`log.c`).

  A name has one slot of `log_fds`, found again by its first 16 characters. `log_open`
  compares the names of the slots, but never stores one: every slot keeps the empty name
  it starts with. So an empty name is found in any slot that is taken, and another name
  never: it gets a new slot each time, under no name (`handlesKept_iff`).
-/

import Iosu.Bsp.BoardWords
import Iosu.Libc.StringOrder
import Mathlib.Data.List.Induction

namespace Iosu.Bsp

open Iosu.Lib Iosu.Lib.Microwire Iosu.Libc Iosu.Entity Iosu.Ios Iosu.Eeprom

variable {ε : Type}

/-! ## `log_get_fd` and calls of `log_open` -/

/-- `outside` is what lies in front of the table: a negative handle is not turned away. -/
def log_get_fd (outside : U32 → LogFd) (log_fds : Vector LogFd 0x20) (handle : U32) : Option LogFd :=
  if handle.toInt < 0x20 then
    let fd := if h : handle.toNat < 0x20 then log_fds[handle.toNat] else outside handle
    if fd.active then some fd else none
  else none

structure LogCall where
  name : CStr
  unk1 : U32
  unk2 : U32
  deriving DecidableEq, Repr

/-- The handles of some calls. -/
def log_opens (x : Ext ε) : List LogCall → BspM ε (List U32)
  | [] => return []
  | c :: cs => do
    let handle ← log_open x c.name c.unk1 c.unk2
    let handles ← log_opens x cs
    return handle :: handles

/-- The semaphore can be created, and waited for. -/
structure SemaphoresOk (x : Ext ε) : Prop where
  create : ∀ env, 0 ≤ (x.iosCreateSemaphore env).1.toInt
  wait : ∀ mutex env, (x.iosWaitSemaphore mutex env).1 = IOS_ERROR_OK

/-! ## Runs that keep their handles -/

def distinctNames (names : List CStr) : List CStr :=
  names.foldl (fun seen name => if seen.any fun s => strncmp s name 16 = 0 then seen else seen ++ [name]) []

/-- Nothing of the table is changed but the parameters of the handle's slot. -/
def UpdatesSlot (log log' : LogState) (c : LogCall) (handle : U32) : Prop :=
  ∃ i, ∃ h : i < 0x20, handle = BitVec.ofNat 32 i ∧
    log'.log_fds = log.log_fds.set i { log.log_fds[i] with unk1 := c.unk1, unk2 := c.unk2 } ∧
    log'.active_log_fds = log.active_log_fds

/-- The call `c` comes behind the calls `done`, with their handles. While there is room
    for all names that are used, it has the handle of the name it shares with one of
    them, and that of no other; without room for its name it has none. Every handle so
    far leads to the name that it was opened with. -/
structure CallKept (outside : U32 → LogFd) (done : List (LogCall × U32)) (log : LogState) (c : LogCall) (handle : U32)
    (log' : LogState) : Prop where
  again : (distinctNames (done.map (fun d => d.1.name) ++ [c.name])).length ≤ 32 →
    ∀ d ∈ done, strncmp d.1.name c.name 16 = 0 → handle = d.2 ∧ UpdatesSlot log log' c handle
  apart : (distinctNames (done.map (fun d => d.1.name) ++ [c.name])).length ≤ 32 →
    ∀ d ∈ done, strncmp d.1.name c.name 16 ≠ 0 → handle ≠ d.2
  full : 32 ≤ (distinctNames (done.map fun d => d.1.name)).length →
    (∀ d ∈ done, strncmp d.1.name c.name 16 ≠ 0) → handle = -1 ∧ log'.log_fds = log.log_fds
  named : (distinctNames (done.map (fun d => d.1.name) ++ [c.name])).length ≤ 32 →
    ∀ d ∈ done ++ [(c, handle)], ∃ fd, log_get_fd outside log'.log_fds d.2 = some fd ∧ strncmp fd.name d.1.name 16 = 0

/-- So for each of the calls. -/
def HandlesKept (x : Ext ε) (outside : U32 → LogFd) (calls : List LogCall) (b : Process ε) : Prop :=
  ∀ done c rest, calls = done ++ c :: rest → ∃ handles b₁ handle b₂, log_opens x done b = .ok (handles, b₁) ∧
    log_open x c.name c.unk1 c.unk2 b₁ = .ok (handle, b₂) ∧ CallKept outside (done.zip handles) b₁.log c handle b₂.log

/-! ## The search for a slot -/

/-- A slot of the name. -/
def LogFd.isFor (name : CStr) (fd : LogFd) : Prop := fd.active = true ∧ strncmp fd.name name 16 = 0

theorem findLog_found {name : CStr} (pre : List LogFd) {fd : LogFd} (hpre : ∀ fd ∈ pre, ¬ fd.isFor name)
    (hfd : fd.isFor name) (post : List LogFd) (i : Nat) (ndx : Option Nat) :
    findLog name (pre ++ fd :: post) i ndx = (some (i + pre.length), true) := by
  induction pre generalizing i ndx with
  | nil =>
    rw [List.nil_append, findLog, if_neg (by simp [hfd.1]), if_pos hfd.2]
    rfl
  | cons p pre ih =>
    have hp := hpre p List.mem_cons_self
    have hrest := ih (fun fd hfd => hpre fd (List.mem_cons_of_mem _ hfd))
    rw [List.cons_append, findLog, List.length_cons, Nat.add_comm pre.length 1, ← Nat.add_assoc]
    split
    · exact hrest (i + 1) _
    · rename_i hact
      rw [if_neg (fun hname => hp ⟨by simpa using hact, hname⟩)]
      exact hrest (i + 1) _

/-- Without one, the search ends with the first slot that is free. -/
theorem findLog_free {name : CStr} {fds : List LogFd} (hno : ∀ fd ∈ fds, ¬ fd.isFor name) (i : Nat) (ndx : Option Nat) :
    findLog name fds i ndx = (ndx.or ((fds.findIdx? fun fd => fd.active = false).map fun k => i + k), false) := by
  induction fds generalizing i ndx with
  | nil =>
    rw [findLog]
    simp
  | cons fd fds ih =>
    have hfd := hno fd List.mem_cons_self
    have hrest := ih (fun fd hfd => hno fd (List.mem_cons_of_mem _ hfd)) (i + 1)
    rw [findLog, List.findIdx?_cons]
    by_cases hact : fd.active = false
    · rw [if_pos hact, hrest]
      cases ndx <;> simp [hact]
    · rw [if_neg hact, if_neg (fun hname => hfd ⟨by simpa using hact, hname⟩), hrest]
      have hshift : ∀ k, i + 1 + k = i + (k + 1) := by omega
      simp [hact, Option.map_map, Function.comp_def, hshift]

/-! ## One call -/

theorem slot_lt (i : Fin 0x20) : i.val < 0x20 := i.isLt

/-- The table and the count behind a call that takes slot `i`. -/
def LogState.opened (log : LogState) (mutex : U32) (i : Fin 0x20) (found : Bool) (c : LogCall) : LogState where
  log_mutex := mutex
  log_fds :=
    let fd := { log.log_fds.get i with unk1 := c.unk1, unk2 := c.unk2 }
    log.log_fds.set i.val (if found then fd else { fd with active := true }) (slot_lt i)
  active_log_fds := if found then log.active_log_fds else log.active_log_fds + 1

/-- The search, with the semaphore at hand and granted. -/
theorem log_open_scans {x : Ext ε} (c : LogCall) {b : Process ε} {i : Fin 0x20} {found : Bool}
    (hmutex : ¬ b.log.log_mutex.toInt < 0) (hwait : (x.iosWaitSemaphore b.log.log_mutex b.drv.env).1 = IOS_ERROR_OK)
    (h : findLog c.name b.log.log_fds.toList 0 none = (some i.val, found)) :
    log_open x c.name c.unk1 c.unk2 b = .ok (BitVec.ofNat 32 i.val, b.logged (b.log.opened b.log.log_mutex i found c)
      (x.iosSignalSemaphore b.log.log_mutex (x.iosWaitSemaphore b.log.log_mutex b.drv.env).2)) := by
  unfold log_open
  rw [bspM_bind_ok (bspM_get b), if_neg hmutex]
  dsimp only
  rw [bspM_bind_ok (bspM_get b), if_neg hmutex, bspM_bind_ok (bspM_callExt _ _), if_neg (not_not.mpr hwait),
    bspM_bind_ok (bspM_get _)]
  dsimp only
  rw [h]
  dsimp only
  rw [dif_pos i.isLt]
  rfl

/-- The process once the semaphore is created. -/
def Process.created (x : Ext ε) (b : Process ε) : Process ε :=
  b.logged { b.log with log_mutex := (x.iosCreateSemaphore b.drv.env).1 } (x.iosCreateSemaphore b.drv.env).2

/-- A call without one creates it first. -/
theorem log_open_creates {x : Ext ε} (c : LogCall) {b : Process ε} (hmutex : b.log.log_mutex.toInt < 0)
    (hcreated : ¬ (b.created x).log.log_mutex.toInt < 0) :
    log_open x c.name c.unk1 c.unk2 b = log_open x c.name c.unk1 c.unk2 (b.created x) := by
  unfold log_open
  rw [bspM_bind_ok (bspM_get b), if_pos hmutex, bspM_bind_ok (bspM_get (b.created x)), if_neg hcreated]
  rfl

theorem log_open_takes {x : Ext ε} (hx : SemaphoresOk x) (c : LogCall) (b : Process ε) {i : Fin 0x20} {found : Bool}
    (h : findLog c.name b.log.log_fds.toList 0 none = (some i.val, found)) :
    ∃ mutex env, log_open x c.name c.unk1 c.unk2 b =
      .ok (BitVec.ofNat 32 i.val, b.logged (b.log.opened mutex i found c) env) := by
  by_cases hmutex : b.log.log_mutex.toInt < 0
  · have hcreated : ¬ (b.created x).log.log_mutex.toInt < 0 := Int.not_lt.mpr (hx.create b.drv.env)
    rw [log_open_creates c hmutex hcreated]
    exact ⟨_, _, log_open_scans c hcreated (hx.wait _ _) h⟩
  · exact ⟨_, _, log_open_scans c hmutex (hx.wait _ _) h⟩

/-! ## Tables without names -/

/-- The first slot that is free, where the first `n` are taken. -/
theorem findIdx_free {log : LogState} {n : Nat} (h : ∀ i : Fin 0x20, (log.log_fds.get i).active = decide (i.val < n))
    (hn : n < 0x20) : log.log_fds.toList.findIdx? (fun fd => fd.active = false) = some n := by
  refine List.findIdx?_eq_some_iff_getElem.mpr ⟨by simpa using hn, ?_, fun j hj => ?_⟩
  · have hact : log.log_fds[n].active = decide (n < n) := h ⟨n, hn⟩
    rw [Vector.getElem_toList, hact]
    simp
  · have hact : log.log_fds[j].active = decide (j < n) := h ⟨j, by omega⟩
    rw [Vector.getElem_toList, hact]
    simp [hj]

/-- The first `n` slots are taken, and none of the table has a name. -/
structure Blank (n : Nat) (log : LogState) : Prop where
  name : ∀ i : Fin 0x20, (log.log_fds.get i).name = []
  active : ∀ i : Fin 0x20, (log.log_fds.get i).active = decide (i.val < n)

theorem blank_start (env : ε) : Blank 0 (Process.start env).log where
  name := fun i => by simp [Process.start, vector_get]
  active := fun i => by simp [Process.start, vector_get]

theorem strncmp_blank (name : CStr) : strncmp [] name 16 = 0 ↔ first name = 0 := by
  have hfirst : first [] = 0 := rfl
  rw [strncmp_succ, hfirst, if_neg (by simp)]
  refine ⟨fun h => BitVec.eq_of_toNat_eq ?_, fun h => by rw [h]; rfl⟩
  have hzero : (0 : U8).toNat = 0 := rfl
  omega

section Blank

variable {n : Nat} {log : LogState}

theorem Blank.mem_toList (h : Blank n log) {fd : LogFd} (hfd : fd ∈ log.log_fds.toList) :
    fd.name = [] ∧ (fd.active = true → 0 < n) := by
  obtain ⟨i, hi, rfl⟩ := List.getElem_of_mem hfd
  have hi' : i < 0x20 := by simpa using hi
  rw [Vector.getElem_toList]
  refine ⟨h.name ⟨i, hi'⟩, fun hact => ?_⟩
  have hlt : log.log_fds[i].active = decide (i < n) := h.active ⟨i, hi'⟩
  rw [hlt] at hact
  have := of_decide_eq_true hact
  omega

/-- A name that is not empty, or a first one, gets the first slot that is free. -/
theorem Blank.finds_free (h : Blank n log) (hn : n < 0x20) {name : CStr} (hname : n = 0 ∨ first name ≠ 0) :
    findLog name log.log_fds.toList 0 none = (some n, false) := by
  have hno : ∀ fd ∈ log.log_fds.toList, ¬ fd.isFor name := by
    intro fd hfd hfor
    obtain ⟨hblank, htaken⟩ := h.mem_toList hfd
    have hmatch := hfor.2
    rw [hblank, strncmp_blank] at hmatch
    rcases hname with h0 | hne
    · have := htaken hfor.1
      omega
    · exact hne hmatch
  rw [findLog_free hno, findIdx_free h.active hn]
  simp

/-- The empty name gets the first slot, once that is taken. -/
theorem Blank.finds_first (h : Blank n log) (hn : 0 < n) {name : CStr} (hname : first name = 0) :
    findLog name log.log_fds.toList 0 none = (some 0, true) := by
  have hlen : log.log_fds.toList.length = 0x20 := by simp
  cases hfds : log.log_fds.toList with
  | nil =>
    rw [hfds] at hlen
    cases hlen
  | cons fd post =>
    have hfd : fd = log.log_fds[0] := by
      have hget : log.log_fds.toList[0]? = some log.log_fds[0] := by simp
      rw [hfds] at hget
      exact Option.some.inj hget
    have hact : log.log_fds[0].active = decide (0 < n) := h.active ⟨0, by omega⟩
    have hblank : log.log_fds[0].name = [] := h.name ⟨0, by omega⟩
    refine findLog_found [] (fun fd hfd => absurd hfd List.not_mem_nil) ⟨?_, ?_⟩ post 0 none
    · rw [hfd, hact, decide_eq_true hn]
    · rw [hfd, hblank, strncmp_blank]
      exact hname

theorem opened_name (log : LogState) (mutex : U32) (i : Fin 0x20) (found : Bool) (c : LogCall) (j : Fin 0x20) :
    ((log.opened mutex i found c).log_fds.get j).name = (log.log_fds.get j).name := by
  by_cases hj : i.val = j.val
  · obtain rfl : i = j := Fin.ext hj
    cases found <;> simp [LogState.opened, vector_get]
  · cases found <;> simp [LogState.opened, vector_get, hj]

theorem opened_active (log : LogState) (mutex : U32) (i : Fin 0x20) (found : Bool) (c : LogCall) (j : Fin 0x20) :
    ((log.opened mutex i found c).log_fds.get j).active =
      ((log.log_fds.get j).active || (!found && decide (i.val = j.val))) := by
  by_cases hj : i.val = j.val
  · obtain rfl : i = j := Fin.ext hj
    cases found <;> simp [LogState.opened, vector_get]
  · cases found <;> simp [LogState.opened, vector_get, hj]

/-- The next slot is taken. -/
theorem opened_next {n : Nat} {log : LogState} (h : ∀ j : Fin 0x20, (log.log_fds.get j).active = decide (j.val < n))
    (mutex : U32) {i : Fin 0x20} (hi : i.val = n) (c : LogCall) (j : Fin 0x20) :
    ((log.opened mutex i false c).log_fds.get j).active = decide (j.val < n + 1) := by
  rw [opened_active, h j, hi]
  rcases Nat.lt_trichotomy j.val n with hj | hj | hj
  · simp [hj, Nat.lt_succ_of_lt hj]
  · simp [hj]
  · simp [show ¬ j.val < n by omega, show ¬ n = j.val by omega, show ¬ j.val < n + 1 by omega]

theorem Blank.opened_again (h : Blank n log) (mutex : U32) (i : Fin 0x20) (c : LogCall) :
    Blank n (log.opened mutex i true c) where
  name := fun j => (opened_name log mutex i true c j).trans (h.name j)
  active := fun j => by rw [opened_active, h.active j]; simp

theorem Blank.opened_free (h : Blank n log) (mutex : U32) {i : Fin 0x20} (hi : i.val = n) (c : LogCall) :
    Blank (n + 1) (log.opened mutex i false c) where
  name := fun j => (opened_name log mutex i false c j).trans (h.name j)
  active := opened_next h.active mutex hi c

/-- A slot that is taken is there, under the empty name. -/
theorem Blank.get_fd (h : Blank n log) (outside : U32 → LogFd) {i : Nat} (hi : i < n) (hlt : i < 0x20) :
    ∃ fd, log_get_fd outside log.log_fds (BitVec.ofNat 32 i) = some fd ∧ fd.name = [] := by
  have hnat : (BitVec.ofNat 32 i).toNat = i := by
    rw [BitVec.toNat_ofNat, Nat.mod_eq_of_lt (by omega)]
  have hint : (BitVec.ofNat 32 i).toInt = i := by
    rw [BitVec.toInt_eq_toNat_of_lt (by rw [hnat]; omega), hnat]
  have hact : log.log_fds[i].active = decide (i < n) := h.active ⟨i, hlt⟩
  have hname : log.log_fds[i].name = [] := h.name ⟨i, hlt⟩
  refine ⟨log.log_fds[i], ?_, hname⟩
  unfold log_get_fd
  rw [if_pos (by rw [hint]; omega)]
  simp only [hnat, hlt, dif_pos]
  rw [if_pos (by rw [hact, decide_eq_true hi])]

end Blank

/-! ## Runs -/

section Runs

variable {x : Ext ε} {n : Nat} {b : Process ε} {c : LogCall}

/-- A first call, and one with a name. -/
theorem log_open_free (hx : SemaphoresOk x) (h : Blank n b.log) (hn : n < 0x20) (hname : n = 0 ∨ first c.name ≠ 0) :
    ∃ b', log_open x c.name c.unk1 c.unk2 b = .ok (BitVec.ofNat 32 n, b') ∧ Blank (n + 1) b'.log := by
  obtain ⟨mutex, env, hrun⟩ := log_open_takes hx c b (i := ⟨n, hn⟩) (h.finds_free hn hname)
  exact ⟨_, hrun, h.opened_free mutex rfl c⟩

/-- A later call with the empty name. -/
theorem log_open_again (hx : SemaphoresOk x) (h : Blank n b.log) (hn : 0 < n) (hname : first c.name = 0) :
    ∃ b', log_open x c.name c.unk1 c.unk2 b = .ok (0, b') ∧ Blank n b'.log ∧ UpdatesSlot b.log b'.log c 0 := by
  obtain ⟨mutex, env, hrun⟩ := log_open_takes hx c b (i := ⟨0, Nat.zero_lt_succ 31⟩) (h.finds_first hn hname)
  exact ⟨_, hrun, h.opened_again mutex ⟨0, Nat.zero_lt_succ 31⟩ c, 0, Nat.zero_lt_succ 31, rfl, rfl, rfl⟩

/-- Any number of calls with the empty name: they all have the first slot. -/
theorem log_opens_empty (hx : SemaphoresOk x) (h : Blank n b.log) (hn : n ≤ 1) {done : List LogCall}
    (hdone : ∀ d ∈ done, first d.name = 0) :
    ∃ b', log_opens x done b = .ok (List.replicate done.length 0, b') ∧ Blank (if done = [] then n else 1) b'.log := by
  induction done generalizing n b with
  | nil => exact ⟨b, rfl, by simpa using h⟩
  | cons d done ih =>
    have hstep : ∃ b₁, log_open x d.name d.unk1 d.unk2 b = .ok (0, b₁) ∧ Blank 1 b₁.log := by
      rcases Nat.eq_zero_or_pos n with h0 | hpos
      · subst h0
        exact log_open_free hx h (Nat.zero_lt_succ 31) (Or.inl rfl)
      · obtain ⟨b₁, hrun, hblank, -⟩ := log_open_again hx h hpos (hdone d List.mem_cons_self)
        obtain rfl : n = 1 := by omega
        exact ⟨b₁, hrun, hblank⟩
    obtain ⟨b₁, hopen, h₁⟩ := hstep
    obtain ⟨b', hopens, hblank⟩ := ih h₁ (Nat.le_refl 1) fun d' hd' => hdone d' (List.mem_cons_of_mem _ hd')
    refine ⟨b', ?_, by simpa using hblank⟩
    unfold log_opens
    rw [bspM_bind_ok hopen, bspM_bind_ok hopens]
    rfl

/-- Any number of calls with names: a slot for each call, in order, whatever the names. -/
theorem log_opens_named (hx : SemaphoresOk x) (h : Blank n b.log) {calls : List LogCall}
    (hnames : ∀ c ∈ calls, first c.name ≠ 0) (hroom : n + calls.length ≤ 0x20) :
    ∃ b', log_opens x calls b = .ok ((List.range' n calls.length).map (BitVec.ofNat 32), b') ∧
      Blank (n + calls.length) b'.log := by
  induction calls generalizing n b with
  | nil => exact ⟨b, rfl, h⟩
  | cons c calls ih =>
    rw [List.length_cons] at hroom
    obtain ⟨b₁, hopen, h₁⟩ := log_open_free hx h (by omega) (Or.inr (hnames c List.mem_cons_self))
    obtain ⟨b', hopens, hblank⟩ := ih h₁ (fun c' hc' => hnames c' (List.mem_cons_of_mem _ hc')) (by omega)
    refine ⟨b', ?_, ?_⟩
    · unfold log_opens
      rw [bspM_bind_ok hopen, bspM_bind_ok hopens]
      rfl
    · rwa [List.length_cons, Nat.add_comm calls.length 1, ← Nat.add_assoc]

/-- What a call with a name does behind calls with none. -/
theorem log_open_named (hx : SemaphoresOk x) (h : Blank n b.log) (hn : n ≤ 1) (hname : first c.name ≠ 0)
    (outside : U32 → LogFd) :
    ∃ handle b', log_open x c.name c.unk1 c.unk2 b = .ok (handle, b') ∧
      ∃ fd, log_get_fd outside b'.log.log_fds handle = some fd ∧ strncmp fd.name c.name 16 ≠ 0 := by
  obtain ⟨b', hrun, hblank⟩ := log_open_free hx h (by omega) (Or.inr hname)
  obtain ⟨fd, hfd, hempty⟩ := hblank.get_fd outside (Nat.lt_succ_self n) (by omega)
  refine ⟨_, b', hrun, fd, hfd, ?_⟩
  rw [hempty, Ne, strncmp_blank]
  exact hname

end Runs

/-! ## Which handles are kept -/

theorem strncmp_empty {s t : CStr} (hs : first s = 0) (ht : first t = 0) : strncmp s t 16 = 0 := by
  rw [strncmp_succ, hs, ht]
  simp

theorem distinctNames_append (names : List CStr) (name : CStr) :
    distinctNames (names ++ [name]) =
      if (distinctNames names).any (fun s => strncmp s name 16 = 0) then distinctNames names
      else distinctNames names ++ [name] := by
  unfold distinctNames
  rw [List.foldl_append]
  rfl

theorem distinctNames_snoc (names : List CStr) (name : CStr) :
    (distinctNames (names ++ [name])).length ≤ (distinctNames names).length + 1 := by
  rw [distinctNames_append]
  split
  · exact Nat.le_succ _
  · simp

/-- Empty names count for one. -/
theorem distinctNames_empty (names : List CStr) (h : ∀ name ∈ names, first name = 0) :
    (distinctNames names).length ≤ 1 ∧ ∀ name ∈ distinctNames names, first name = 0 := by
  induction names using List.reverseRecOn with
  | nil => exact ⟨Nat.zero_le 1, by simp [distinctNames]⟩
  | append_singleton names name ih =>
    obtain ⟨hlen, hempty⟩ := ih fun m hm => h m (List.mem_append_left _ hm)
    have hname : first name = 0 := h name (by simp)
    rw [distinctNames_append]
    split
    · exact ⟨hlen, hempty⟩
    · rename_i hnew
      cases hseen : distinctNames names with
      | nil =>
        refine ⟨Nat.le_refl 1, fun m hm => ?_⟩
        rw [List.mem_singleton.mp hm]
        exact hname
      | cons m ms =>
        refine absurd (List.any_eq_true.mpr ⟨m, by rw [hseen]; exact List.mem_cons_self, ?_⟩) hnew
        exact decide_eq_true (strncmp_empty (hempty m (by rw [hseen]; exact List.mem_cons_self)) hname)

/-- So do those of calls that have one, with their handles. -/
theorem distinctNames_done {done : List LogCall} (hdone : ∀ d ∈ done, first d.name = 0) (handles : List U32) :
    (distinctNames ((done.zip handles).map fun d => d.1.name)).length ≤ 1 := by
  refine (distinctNames_empty _ fun name hname => ?_).1
  obtain ⟨d, hd, rfl⟩ := List.mem_map.mp hname
  exact hdone d.1 (List.of_mem_zip hd).1

/-- What holds of an element behind elements that have it holds of all. -/
theorem forall_of_prefix {α : Type} {P : α → Prop} {l : List α}
    (h : ∀ done c rest, l = done ++ c :: rest → (∀ d ∈ done, P d) → P c) : ∀ c ∈ l, P c := by
  have hprefix : ∀ done rest, l = done ++ rest → ∀ d ∈ done, P d := by
    intro done
    induction done using List.reverseRecOn with
    | nil => intro rest _ d hd; cases hd
    | append_singleton done c ih =>
      intro rest hl d hd
      rw [List.append_assoc] at hl
      have hdone := ih _ hl
      rcases List.mem_append.mp hd with hd | hd
      · exact hdone d hd
      · rw [List.mem_singleton.mp hd]
        exact h done c rest hl hdone
  exact hprefix l [] (List.append_nil l).symm

/-- The call behind calls with the empty name, when it has it too. -/
theorem callKept_empty {x : Ext ε} (hx : SemaphoresOk x) (outside : U32 → LogFd) {done : List LogCall} {c : LogCall}
    (hdone : ∀ d ∈ done, first d.name = 0) (hc : first c.name = 0) {b : Process ε}
    (h : Blank (if done = [] then 0 else 1) b.log) :
    ∃ b', log_open x c.name c.unk1 c.unk2 b = .ok (0, b') ∧
      CallKept outside (done.zip (List.replicate done.length 0)) b.log c 0 b'.log := by
  have hstep : ∃ b', log_open x c.name c.unk1 c.unk2 b = .ok (0, b') ∧ Blank 1 b'.log ∧
      (done ≠ [] → UpdatesSlot b.log b'.log c 0) := by
    by_cases hnil : done = []
    · rw [if_pos hnil] at h
      obtain ⟨b', hrun, hblank⟩ := log_open_free (c := c) hx h (Nat.zero_lt_succ 31) (Or.inl rfl)
      exact ⟨b', hrun, hblank, fun hne => absurd hnil hne⟩
    · rw [if_neg hnil] at h
      obtain ⟨b', hrun, hblank, hupdates⟩ := log_open_again hx h Nat.one_pos hc
      exact ⟨b', hrun, hblank, fun _ => hupdates⟩
  obtain ⟨b', hrun, hblank, hupdates⟩ := hstep
  have hzip : ∀ d ∈ done.zip (List.replicate done.length (0 : U32)), d.1 ∈ done ∧ d.2 = 0 := by
    intro d hd
    obtain ⟨hmem, hhandle⟩ := List.of_mem_zip hd
    exact ⟨hmem, (List.mem_replicate.mp hhandle).2⟩
  have hagree : ∀ d ∈ done.zip (List.replicate done.length (0 : U32)), strncmp d.1.name c.name 16 = 0 := fun d hd =>
    strncmp_empty (hdone d.1 (hzip d hd).1) hc
  refine ⟨b', hrun, ?_, ?_, ?_, ?_⟩
  · intro _ d hd _
    exact ⟨(hzip d hd).2.symm, hupdates (List.ne_nil_of_mem (hzip d hd).1)⟩
  · intro _ d hd hne
    exact absurd (hagree d hd) hne
  · intro hfull
    have hone := distinctNames_done hdone (List.replicate done.length (0 : U32))
    omega
  · intro _ d hd
    obtain ⟨fd, hfd, hempty⟩ := hblank.get_fd outside Nat.one_pos (by omega)
    have hd0 : d.2 = 0 ∧ first d.1.name = 0 := by
      rcases List.mem_append.mp hd with hd | hd
      · exact ⟨(hzip d hd).2, hdone d.1 (hzip d hd).1⟩
      · rw [List.mem_singleton.mp hd]
        exact ⟨rfl, hc⟩
    refine ⟨fd, ?_, ?_⟩
    · rw [hd0.1]
      exact hfd
    · rw [hempty, strncmp_blank]
      exact hd0.2

/-- From the start of the process, handles are kept exactly in the runs that open nothing
    but the empty name. -/
theorem handlesKept_iff {x : Ext ε} (hx : SemaphoresOk x) (outside : U32 → LogFd) (calls : List LogCall) (env : ε) :
    HandlesKept x outside calls (Process.start env) ↔ ∀ c ∈ calls, first c.name = 0 := by
  refine ⟨fun h => forall_of_prefix fun done c rest hsplit hdone => ?_, fun h done c rest hsplit => ?_⟩
  · obtain ⟨handles, b₁, handle, b₂, hopens, hopen, hkept⟩ := h done c rest hsplit
    obtain ⟨b', hopens', hblank⟩ := log_opens_empty hx (blank_start env) (Nat.zero_le 1) hdone
    rw [hopens'] at hopens
    cases hopens
    by_contra hname
    obtain ⟨handle', b₂', hopen', fd, hfd, hdiffer⟩ := log_open_named hx hblank (by split <;> omega) hname outside
    rw [hopen'] at hopen
    cases hopen
    have hroom : (distinctNames ((done.zip (List.replicate done.length (0 : U32))).map (fun d => d.1.name) ++
        [c.name])).length ≤ 32 := by
      have hsnoc := distinctNames_snoc ((done.zip (List.replicate done.length (0 : U32))).map fun d => d.1.name) c.name
      have hone := distinctNames_done hdone (List.replicate done.length (0 : U32))
      omega
    obtain ⟨fd', hfd', hsame⟩ := hkept.named hroom (c, handle) (by simp)
    rw [hfd] at hfd'
    cases hfd'
    exact hdiffer hsame
  · have hdone : ∀ d ∈ done, first d.name = 0 := fun d hd => h d (by rw [hsplit]; exact List.mem_append_left _ hd)
    have hc : first c.name = 0 := h c (by rw [hsplit]; simp)
    obtain ⟨b₁, hopens, hblank⟩ := log_opens_empty hx (blank_start env) (Nat.zero_le 1) hdone
    obtain ⟨b₂, hopen, hkept⟩ := callKept_empty hx outside hdone hc hblank
    exact ⟨_, b₁, 0, b₂, hopens, hopen, hkept⟩

theorem quiet_semaphoresOk (g : Gpio ε) (hwChiprevid ltChiprevid : U32) : SemaphoresOk (Ext.quiet g hwChiprevid ltChiprevid) :=
  ⟨fun _ => Int.le_refl 0, fun _ _ => rfl⟩

def noLog : LogFd := ⟨[], 0, false, 0⟩

/-- Two openings of the empty name. -/
theorem empty_handlesKept : HandlesKept (Ext.quiet seeprom 0 0) (fun _ => noLog) [⟨[], 0, 1⟩, ⟨[], 2, 3⟩]
    (Process.start (Device.fresh (fun _ => 0) false)) :=
  (handlesKept_iff (quiet_semaphoresOk seeprom 0 0) (fun _ => noLog) [⟨[], 0, 1⟩, ⟨[], 2, 3⟩] _).mpr (by decide)

/-- `log_open("BC", 0, 1)`: the slot of its handle has no name. -/
theorem bc_handle_lost : ¬ HandlesKept (Ext.quiet seeprom 0 0) (fun _ => noLog) [⟨cstr "BC", 0, 1⟩]
    (Process.start (Device.fresh (fun _ => 0) false)) := by
  intro h
  obtain ⟨handles, b₁, handle, b₂, hopens, hopen, hkept⟩ := h [] ⟨cstr "BC", 0, 1⟩ [] rfl
  obtain ⟨handle', b', hopen', fd, hfd, hdiffer⟩ := log_open_named (c := ⟨cstr "BC", 0, 1⟩)
    (quiet_semaphoresOk seeprom 0 0) (blank_start (Device.fresh (fun _ => 0) false)) (Nat.zero_le 1) (by decide) fun _ => noLog
  cases hopens
  rw [hopen'] at hopen
  cases hopen
  obtain ⟨fd', hfd', hsame⟩ := hkept.named (by decide) (⟨cstr "BC", 0, 1⟩, handle) (by simp)
  rw [hfd] at hfd'
  cases hfd'
  exact hdiffer hsame

end Iosu.Bsp
