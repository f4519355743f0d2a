/-
  Iosu.Lib.Lock — sections of several threads under a lock that the first one creates.

  The lock is a variable that is empty at first; a thread that finds it so creates one and
  stores it, and nothing guards these two steps. What a thread does to the shared state is a
  section, one access at a time, between the wait for the lock it has read and the signal.
  With a lock in place at the start, any interleaving leaves what the sections leave that are
  done one after the other, in the order of their signals (`guarded_reach`), and there is
  always a thread that can go on (`Guarded.progress`). Without one, two threads get inside
  at once (`exclusive_iff`).
-/

import Mathlib.Logic.Function.Basic
import Mathlib.Logic.Nontrivial.Basic
import Mathlib.Logic.Relation

namespace Iosu.Lib.Lock

open Relation

variable {τ γ κ α σ : Type}

/-- What a call does with the lock held: an access goes on, or comes to the answer. -/
structure Section (γ κ α σ : Type) where
  enter : γ → κ
  step : κ → σ → (κ × σ) ⊕ α

inductive Thread (γ κ : Type) where
  | idle
  | called (c : γ)
  /-- It has found the variable empty. -/
  | creating (c : γ)
  | storing (c : γ) (m : Nat)
  /-- It has found a lock in the variable. -/
  | ready (c : γ)
  | waiting (c : γ) (m : Nat)
  | inside (c : γ) (m : Nat) (k : κ)

def Thread.Inside : Thread γ κ → Prop
  | .inside _ _ _ => True
  | _ => False

/-- Nothing it goes on with is about another lock. -/
def Thread.Uses (m : Nat) : Thread γ κ → Prop
  | .creating _ | .storing _ _ => False
  | .waiting _ m' | .inside _ m' _ => m' = m
  | _ => True

structure State (τ γ κ α σ : Type) where
  lock : Option Nat
  created : Nat
  free : Nat → Bool
  shared : σ
  threads : τ → Thread γ κ
  /-- The calls that gave the lock back, the last at the end. -/
  history : List (γ × α)

section Steps

variable [DecidableEq τ] (S : Section γ κ α σ)

def State.goTo (s : State τ γ κ α σ) (t : τ) (th : Thread γ κ) : State τ γ κ α σ :=
  { s with threads := Function.update s.threads t th }

theorem goTo_threads (s : State τ γ κ α σ) (t : τ) (th : Thread γ κ) (t' : τ) :
    (s.goTo t th).threads t' = if t' = t then th else s.threads t' := Function.update_apply ..

@[simp] theorem goTo_same (s : State τ γ κ α σ) (t : τ) (th : Thread γ κ) : (s.goTo t th).threads t = th :=
  Function.update_self ..

@[simp] theorem goTo_other (s : State τ γ κ α σ) {t t' : τ} (th : Thread γ κ) (h : t' ≠ t) :
    (s.goTo t th).threads t' = s.threads t' := Function.update_of_ne h ..

/-- One step of the thread `t`. -/
inductive Step (t : τ) (s : State τ γ κ α σ) : State τ γ κ α σ → Prop
  | call (c : γ) : s.threads t = .idle → Step t s (s.goTo t (.called c))
  | empty {c : γ} : s.threads t = .called c → s.lock = none → Step t s (s.goTo t (.creating c))
  | created {c : γ} {m : Nat} : s.threads t = .called c → s.lock = some m → Step t s (s.goTo t (.ready c))
  | create {c : γ} : s.threads t = .creating c → Step t s
      { s.goTo t (.storing c s.created) with created := s.created + 1, free := Function.update s.free s.created true }
  | store {c : γ} {m : Nat} : s.threads t = .storing c m → Step t s { s.goTo t (.ready c) with lock := some m }
  | read {c : γ} {m : Nat} : s.threads t = .ready c → s.lock = some m → Step t s (s.goTo t (.waiting c m))
  | acquire {c : γ} {m : Nat} : s.threads t = .waiting c m → s.free m = true → Step t s
      { s.goTo t (.inside c m (S.enter c)) with free := Function.update s.free m false }
  | access {c : γ} {m : Nat} {k k' : κ} {shared : σ} : s.threads t = .inside c m k →
      S.step k s.shared = .inl (k', shared) → Step t s { s.goTo t (.inside c m k') with shared := shared }
  | leave {c : γ} {m : Nat} {k : κ} {a : α} : s.threads t = .inside c m k → S.step k s.shared = .inr a → Step t s
      { s.goTo t .idle with free := Function.update s.free m true, history := s.history ++ [(c, a)] }

/-- Any threads, in any order. -/
def Reach : State τ γ κ α σ → State τ γ κ α σ → Prop := ReflTransGen fun s s' => ∃ t, Step S t s s'

end Steps

/-! ## Sections, one after the other -/

section Sequential

variable (S : Section γ κ α σ)

def Accesses : κ × σ → κ × σ → Prop := ReflTransGen fun p q => S.step p.1 p.2 = .inl q

/-- A section from its first access to the answer. -/
def Done (c : γ) (shared : σ) (a : α) (shared' : σ) : Prop :=
  ∃ k, Accesses S (S.enter c, shared) (k, shared') ∧ S.step k shared' = .inr a

inductive Sequential (start : σ) : List (γ × α) → σ → Prop
  | nil : Sequential start [] start
  | snoc {history : List (γ × α)} {shared shared' : σ} {c : γ} {a : α} : Sequential start history shared →
      Done S c shared a shared' → Sequential start (history ++ [(c, a)]) shared'

variable {S}

theorem Accesses.done_unique {p q q' : κ × σ} {a a' : α} (h : Accesses S p q) (h' : Accesses S p q')
    (ha : S.step q.1 q.2 = .inr a) (ha' : S.step q'.1 q'.2 = .inr a') : q = q' ∧ a = a' := by
  induction h using ReflTransGen.head_induction_on with
  | refl =>
    rcases ReflTransGen.cases_head h' with rfl | ⟨p₁, hstep, -⟩
    · exact ⟨rfl, Sum.inr.inj (ha.symm.trans ha')⟩
    · exact absurd (ha.symm.trans hstep) (by simp)
  | head hstep _ ih =>
    rcases ReflTransGen.cases_head h' with rfl | ⟨p₁, hstep', hrest⟩
    · exact absurd (ha'.symm.trans hstep) (by simp)
    · cases hstep.symm.trans hstep'
      exact ih hrest

theorem Done.unique {c : γ} {shared s₁ s₂ : σ} {a a' : α} (h : Done S c shared a s₁) (h' : Done S c shared a' s₂) :
    a = a' ∧ s₁ = s₂ := by
  obtain ⟨k, hrun, ha⟩ := h
  obtain ⟨k', hrun', ha'⟩ := h'
  obtain ⟨heq, rfl⟩ := hrun.done_unique hrun' ha ha'
  exact ⟨rfl, congrArg Prod.snd heq⟩

end Sequential

/-! ## With a lock in place -/

section Guarded

variable {S : Section γ κ α σ} {m : Nat} {start : σ} {s s' : State τ γ κ α σ} {t : τ}

/-- The lock is free and nobody is inside; or it is not, and one thread is, with its section
    so far behind those of the history. -/
inductive Phase (S : Section γ κ α σ) (m : Nat) (start : σ) (s : State τ γ κ α σ) : Prop
  | free : s.free m = true → (∀ t, ¬ (s.threads t).Inside) → Sequential S start s.history s.shared → Phase S m start s
  | held {t : τ} {c : γ} {k : κ} {before : σ} : s.free m = false → s.threads t = .inside c m k →
      (∀ t', t' ≠ t → ¬ (s.threads t').Inside) → Sequential S start s.history before →
      Accesses S (S.enter c, before) (k, s.shared) → Phase S m start s

structure Guarded (S : Section γ κ α σ) (m : Nat) (start : σ) (s : State τ γ κ α σ) : Prop where
  lock : s.lock = some m
  uses : ∀ t, (s.threads t).Uses m
  phase : Phase S m start s

/-- At most one thread is inside. -/
def Exclusive (s : State τ γ κ α σ) : Prop := ∀ t t', (s.threads t).Inside → (s.threads t').Inside → t = t'

/-- Who is inside holds the lock. -/
theorem Phase.holder (h : Phase S m start s) {c : γ} {k : κ} (hinside : s.threads t = .inside c m k) :
    s.free m = false ∧ (∀ u, u ≠ t → ¬ (s.threads u).Inside) ∧
      ∃ before, Sequential S start s.history before ∧ Accesses S (S.enter c, before) (k, s.shared) := by
  have ht : (s.threads t).Inside := by
    rw [hinside]
    trivial
  cases h with
  | free _ hnone _ => exact absurd ht (hnone t)
  | @held v c' k' before hfree hv hnone hseq hrun =>
    obtain rfl : t = v := not_imp_comm.mp (hnone t) (not_not.mpr ht)
    cases hinside.symm.trans hv
    exact ⟨hfree, hnone, before, hseq, hrun⟩

theorem Phase.exclusive (h : Phase S m start s) : Exclusive s := by
  intro u u' hu hu'
  cases h with
  | free _ hnone _ => exact absurd hu (hnone u)
  | held _ _ hnone _ _ =>
    rw [not_imp_comm.mp (hnone u) (not_not.mpr hu), not_imp_comm.mp (hnone u') (not_not.mpr hu')]

variable [DecidableEq τ]

/-- A step that is none of the section, and leaves the lock. -/
theorem Phase.outside (h : Phase S m start s) {th : Thread γ κ} (hold : ¬ (s.threads t).Inside) (hnew : ¬ th.Inside) :
    Phase S m start (s.goTo t th) := by
  cases h with
  | free hfree hnone hseq =>
    refine .free hfree (fun u => ?_) hseq
    rw [goTo_threads]
    split
    · exact hnew
    · exact hnone u
  | @held v c k before hfree hv hnone hseq hrun =>
    have hne : v ≠ t := fun heq => hold (heq ▸ hv ▸ trivial)
    refine .held (t := v) hfree ((goTo_other s th hne).trans hv) (fun u hu => ?_) hseq hrun
    rw [goTo_threads]
    split
    · exact hnew
    · exact hnone u hu

theorem uses_goTo (h : ∀ t, (s.threads t).Uses m) {th : Thread γ κ} (hth : th.Uses m) (u : τ) :
    ((s.goTo t th).threads u).Uses m := by
  rw [goTo_threads]
  split
  · exact hth
  · exact h u

theorem others_goTo (h : ∀ u, u ≠ t → ¬ (s.threads u).Inside) (th : Thread γ κ) {u : τ} (hu : u ≠ t) :
    ¬ ((s.goTo t th).threads u).Inside := by
  rw [goTo_other s th hu]
  exact h u hu

theorem guarded_step (h : Guarded S m start s) (hstep : Step S t s s') : Guarded S m start s' := by
  have huses := h.uses t
  cases hstep with
  | call c hidle => exact ⟨h.lock, uses_goTo h.uses trivial, h.phase.outside (by rw [hidle]; exact id) id⟩
  | empty _ hlock => exact absurd (h.lock.symm.trans hlock) (by simp)
  | created hcalled _ => exact ⟨h.lock, uses_goTo h.uses trivial, h.phase.outside (by rw [hcalled]; exact id) id⟩
  | create hcreating =>
    rw [hcreating] at huses
    exact absurd huses id
  | store hstoring =>
    rw [hstoring] at huses
    exact absurd huses id
  | @read c m' hready hlock =>
    have hm : m' = m := Option.some.inj (hlock.symm.trans h.lock)
    exact ⟨h.lock, uses_goTo h.uses hm, h.phase.outside (by rw [hready]; exact id) id⟩
  | @acquire c m' hwaiting hfree =>
    rw [hwaiting] at huses
    obtain rfl : m' = m := huses
    refine ⟨h.lock, uses_goTo h.uses rfl, ?_⟩
    cases h.phase with
    | free _ hnone hseq =>
      exact .held (Function.update_self ..) (goTo_same ..) (fun u => others_goTo (fun v _ => hnone v) _) hseq .refl
    | held hheld => exact absurd (hheld.symm.trans hfree) (by simp)
  | @access c m' k k' shared hinside haccess =>
    rw [hinside] at huses
    obtain rfl : m' = m := huses
    obtain ⟨hfree, hnone, before, hseq, hrun⟩ := h.phase.holder hinside
    refine ⟨h.lock, uses_goTo h.uses rfl, ?_⟩
    exact .held hfree (goTo_same ..) (fun u => others_goTo hnone _) hseq (hrun.tail haccess)
  | @leave c m' k a hinside hanswer =>
    rw [hinside] at huses
    obtain rfl : m' = m := huses
    obtain ⟨hfree, hnone, before, hseq, hrun⟩ := h.phase.holder hinside
    refine ⟨h.lock, uses_goTo h.uses trivial, ?_⟩
    refine .free (Function.update_self ..) (fun u => ?_) (hseq.snoc ⟨k, hrun, hanswer⟩)
    by_cases hu : u = t
    · subst hu
      show ¬ ((s.goTo u .idle).threads u).Inside
      rw [goTo_same]
      exact id
    · exact others_goTo hnone _ hu

theorem guarded_reach (h : Guarded S m start s) (hreach : Reach S s s') : Guarded S m start s' := by
  induction hreach with
  | refl => exact h
  | tail _ hstep ih =>
    obtain ⟨t, hstep⟩ := hstep
    exact guarded_step ih hstep

/-- While a call is on its way, one of those that are can go on. -/
theorem Guarded.progress (h : Guarded S m start s) (ht : s.threads t ≠ .idle) :
    ∃ u s', s.threads u ≠ .idle ∧ Step S u s s' := by
  have inside : ∀ {u : τ} {c : γ} {k : κ}, s.threads u = .inside c m k → ∃ u s', s.threads u ≠ .idle ∧ Step S u s s' := by
    intro u c k hu
    have hne : s.threads u ≠ .idle := by simp [hu]
    cases hstep : S.step k s.shared with
    | inl next => exact ⟨u, _, hne, .access hu hstep⟩
    | inr a => exact ⟨u, _, hne, .leave hu hstep⟩
  have huses := h.uses t
  cases hth : s.threads t with
  | idle => exact absurd hth ht
  | called c => exact ⟨t, _, ht, .created hth h.lock⟩
  | creating c =>
    rw [hth] at huses
    exact absurd huses id
  | storing c m' =>
    rw [hth] at huses
    exact absurd huses id
  | ready c => exact ⟨t, _, ht, .read hth h.lock⟩
  | waiting c m' =>
    rw [hth] at huses
    obtain rfl : m' = m := huses
    cases h.phase with
    | free hfree => exact ⟨t, _, ht, .acquire hth hfree⟩
    | held _ hv => exact inside hv
  | inside c m' k =>
    rw [hth] at huses
    obtain rfl : m' = m := huses
    exact inside hth

end Guarded

/-! ## Whether there is one -/

section Start

variable {S : Section γ κ α σ} {initial : Option Nat} {start : σ} {s : State τ γ κ α σ}

/-- Nobody has called, and a lock is free. -/
structure Start (initial : Option Nat) (start : σ) (s : State τ γ κ α σ) : Prop where
  lock : s.lock = initial
  free : ∀ m, initial = some m → s.free m = true
  idle : ∀ t, s.threads t = .idle
  shared : s.shared = start
  history : s.history = []

theorem Start.guarded {m : Nat} (h : Start (some m) start s) : Guarded S m start s where
  lock := h.lock
  uses t := by
    rw [h.idle t]
    trivial
  phase := by
    refine .free (h.free m rfl) (fun t => ?_) ?_
    · rw [h.idle t]
      exact id
    · rw [h.history, h.shared]
      exact .nil

variable [DecidableEq τ]

/-- A thread that has found no lock gets inside, with one of its own, whoever else is. -/
theorem creating_enters {c : γ} {t : τ} (s : State τ γ κ α σ) (h : s.threads t = .creating c) :
    ∃ s', Reach S s s' ∧ (s'.threads t).Inside ∧ ∀ u, u ≠ t → s'.threads u = s.threads u := by
  let s₁ : State τ γ κ α σ :=
    { s.goTo t (.storing c s.created) with created := s.created + 1, free := Function.update s.free s.created true }
  let s₂ : State τ γ κ α σ := { s₁.goTo t (.ready c) with lock := some s.created }
  let s₃ : State τ γ κ α σ := s₂.goTo t (.waiting c s.created)
  let s₄ : State τ γ κ α σ :=
    { s₃.goTo t (.inside c s.created (S.enter c)) with free := Function.update s₃.free s.created false }
  have h₁ : Step S t s s₁ := .create h
  have h₂ : Step S t s₁ s₂ := .store (goTo_same ..)
  have h₃ : Step S t s₂ s₃ := .read (goTo_same s₁ ..) rfl
  have h₄ : Step S t s₃ s₄ := .acquire (goTo_same ..) (Function.update_self ..)
  refine ⟨s₄, ((((ReflTransGen.single ⟨t, h₁⟩).tail ⟨t, h₂⟩).tail ⟨t, h₃⟩).tail ⟨t, h₄⟩), ?_, fun u hu => ?_⟩
  · rw [show s₄.threads t = _ from goTo_same s₃ ..]
    trivial
  · exact (goTo_other s₃ _ hu).trans ((goTo_other s₂ _ hu).trans ((goTo_other s₁ _ hu).trans (goTo_other s _ hu)))

/-- Two threads find no lock, and each makes its own. -/
theorem race (h : Start none start s) {t t' : τ} (hne : t' ≠ t) (c : γ) : ∃ s', Reach S s s' ∧ ¬ Exclusive s' := by
  let s₁ := s.goTo t (.called c)
  let s₂ := s₁.goTo t' (.called c)
  let s₃ := s₂.goTo t (.creating c)
  let s₄ := s₃.goTo t' (.creating c)
  have h₁ : Step S t s s₁ := .call c (h.idle t)
  have h₂ : Step S t' s₁ s₂ := .call c ((goTo_other s _ hne).trans (h.idle t'))
  have h₃ : Step S t s₂ s₃ := .empty ((goTo_other s₁ _ hne.symm).trans (goTo_same ..)) h.lock
  have h₄ : Step S t' s₃ s₄ := .empty ((goTo_other s₂ _ hne).trans (goTo_same ..)) h.lock
  have hfound : Reach S s s₄ := ((((ReflTransGen.single ⟨t, h₁⟩).tail ⟨t', h₂⟩).tail ⟨t, h₃⟩).tail ⟨t', h₄⟩)
  obtain ⟨s₅, hreach, hinside, hothers⟩ := creating_enters (S := S) s₄ ((goTo_other s₃ _ hne.symm).trans (goTo_same s₂ ..))
  obtain ⟨s₆, hreach', hinside', hothers'⟩ := creating_enters (S := S) s₅ ((hothers t' hne).trans (goTo_same s₃ ..))
  refine ⟨s₆, (hfound.trans hreach).trans hreach', fun hexclusive => hne (hexclusive t' t hinside' ?_)⟩
  rw [hothers' t hne.symm]
  exact hinside

theorem exclusive_iff [Nontrivial τ] [Nonempty γ] (h : Start initial start s) :
    (∀ s', Reach S s s' → Exclusive s') ↔ initial ≠ none := by
  constructor
  · rintro hexclusive rfl
    obtain ⟨t, t', hne⟩ := exists_pair_ne τ
    obtain ⟨s', hreach, hboth⟩ := race (S := S) h hne.symm (Classical.arbitrary γ)
    exact hboth (hexclusive s' hreach)
  · intro hinitial s' hreach
    obtain ⟨m, rfl⟩ := Option.ne_none_iff_exists'.mp hinitial
    exact (guarded_reach h.guarded hreach).phase.exclusive

end Start

end Iosu.Lib.Lock
