/-
  Iosu.Entity.GlobalInit — the Init of a whole table.

  An Init with the empty attribute name is meant for every attribute of the instance
  that opts in: it has an initMethod and BSP_AO_INIT_GLOBAL. The loop steps over an
  attribute only after it has called it; an entry that is skipped by `continue` is
  looked at again, for ever. So the loop calls the opted-in attributes in front of the
  first entry that does not opt in (`initGlobalFrom_prefix`) and never gets past it
  (`initGlobalFrom_stuck`). `initGlobalFrom_ok` reads off a run that ends that there
  was no such entry.
-/

import Iosu.Entity.Methods
import Mathlib.Data.List.TakeWhile

namespace Iosu.Entity

open Iosu.Lib Iosu.Libc

variable {σ : Type}

/-! ## What a global init is for -/

/-- The entries in front of the NULL name. -/
def live (t : List (BspAttribute σ)) : List (BspAttribute σ) := t.takeWhile fun a => a.pName.isSome

/-- The attribute is one a global init is meant for. -/
def BspAttribute.optsIn (a : BspAttribute σ) : Bool :=
  a.initMethod.isSome && decide (a.options &&& BSP_AO_INIT_GLOBAL ≠ 0)

/-- The call a global init makes of an attribute. -/
def globalCall (inst : U32) (a : BspAttribute σ) : Call σ := .init inst a none 0

/-- The initMethods of the attributes, one after the other, with NULL data. -/
def initAll (inst : U32) : List (BspAttribute σ) → σ → Res Fault (List BspRval × σ)
  | [], s => .ok ([], s)
  | a :: as, s =>
    match a.initMethod with
    | none => initAll inst as s
    | some initMethod => do
      let (r, s) ← initMethod inst a.toAttributeData none 0 s
      let (rs, s) ← initAll inst as s
      .ok (r :: rs, s)

theorem live_cons_none {a : BspAttribute σ} (rest : List (BspAttribute σ)) (h : a.pName = none) :
    live (a :: rest) = [] := by
  simp [live, h]

theorem live_cons_some {a : BspAttribute σ} (rest : List (BspAttribute σ)) {n : CStr} (h : a.pName = some n) :
    live (a :: rest) = a :: live rest := by
  simp [live, h]

/-- A terminated table is its live entries, the entry with the NULL name, and what may
    lie behind. -/
theorem Terminated.eq_live_append {t : List (BspAttribute σ)} (h : Terminated t) :
    ∃ z post, t = live t ++ z :: post ∧ z.pName = none := by
  induction t with
  | nil => obtain ⟨a, ha, -⟩ := h; cases ha
  | cons a rest ih =>
    cases hn : a.pName with
    | none => exact ⟨a, rest, by rw [live_cons_none rest hn]; rfl, hn⟩
    | some n =>
      have hrest : Terminated rest := by
        obtain ⟨b, hb, hbn⟩ := h
        rcases List.mem_cons.mp hb with rfl | hb
        · rw [hn] at hbn; cases hbn
        · exact ⟨b, hb, hbn⟩
      obtain ⟨z, post, ht, hz⟩ := ih hrest
      refine ⟨z, post, ?_, hz⟩
      rw [live_cons_some rest hn, List.cons_append, ← ht]

theorem mem_live {t : List (BspAttribute σ)} {a : BspAttribute σ} (h : a ∈ live t) : ∃ n, a.pName = some n := by
  have : a.pName.isSome = true := List.mem_takeWhile_imp (p := fun a : BspAttribute σ => a.pName.isSome) h
  exact Option.isSome_iff_exists.mp this

theorem optsIn_iff {a : BspAttribute σ} :
    a.optsIn = true ↔ ∃ m, a.initMethod = some m ∧ a.options &&& BSP_AO_INIT_GLOBAL ≠ 0 := by
  simp [BspAttribute.optsIn, Option.isSome_iff_exists]

theorem initAll_cons {inst : U32} {a : BspAttribute σ} {m : InitMethod σ} (hm : a.initMethod = some m)
    (as : List (BspAttribute σ)) (s : σ) {rs : List BspRval} {s' : σ} :
    initAll inst (a :: as) s = .ok (rs, s') ↔
      ∃ r s1 rs1, m inst a.toAttributeData none 0 s = .ok (r, s1) ∧ initAll inst as s1 = .ok (rs1, s') ∧
        rs = r :: rs1 := by
  simp only [initAll, hm]
  constructor
  · intro h
    obtain ⟨⟨r, s1⟩, h1, h⟩ := Res.bind_eq_ok.mp h
    obtain ⟨⟨rs1, s2⟩, h2, h⟩ := Res.bind_eq_ok.mp h
    simp only [Res.ok.injEq, Prod.mk.injEq] at h
    obtain ⟨rfl, rfl⟩ := h
    exact ⟨r, s1, rs1, h1, h2, rfl⟩
  · intro hsome
    obtain ⟨r, s1, rs1, h1, h2, rfl⟩ := hsome
    rw [h1, Res.ok_bind, h2]
    rfl

/-! ## One turn of the loop -/

section Turn

variable {inst : U32} {a : BspAttribute σ} {n : CStr}

theorem initGlobalFrom_end (fuel : Nat) (rest : List (BspAttribute σ)) (ret : BspRval) (s : σ) (hn : a.pName = none) :
    initGlobalFrom inst (fuel + 1) (a :: rest) ret s = pure (ret, s) := by
  simp [initGlobalFrom, hn]

theorem initGlobalFrom_step {m : InitMethod σ} (fuel : Nat) (rest : List (BspAttribute σ)) (ret : BspRval) (s : σ)
    (hn : a.pName = some n) (hm : a.initMethod = some m) (ho : a.options &&& BSP_AO_INIT_GLOBAL ≠ 0) :
    initGlobalFrom inst (fuel + 1) (a :: rest) ret s =
      (call (globalCall inst a) (m inst a.toAttributeData none 0 s) >>= fun p =>
        initGlobalFrom inst fuel rest (ret ||| p.1) p.2) := by
  simp only [initGlobalFrom, hn, hm]
  rw [if_neg ho]
  rfl

/-- At an entry that does not opt in the loop stays, whatever its fuel. -/
theorem initGlobalFrom_stuck (hn : a.pName = some n) (ho : a.optsIn = false) (rest : List (BspAttribute σ)) :
    ∀ (fuel : Nat) (ret : BspRval) (s : σ), initGlobalFrom inst fuel (a :: rest) ret s = Run.spin := by
  intro fuel
  induction fuel with
  | zero => intro ret s; rfl
  | succ fuel ih =>
    intro ret s
    simp only [initGlobalFrom, hn]
    cases hm : a.initMethod with
    | none => exact ih ret s
    | some m =>
      have : a.options &&& BSP_AO_INIT_GLOBAL = 0 := by
        by_contra h
        have : a.optsIn = true := optsIn_iff.mpr ⟨m, hm, h⟩
        rw [ho] at this
        cases this
      dsimp only
      rw [if_pos this]
      exact ih ret s

/-- A turn ends the loop, stays where it is, or calls the attribute and goes on. -/
theorem initGlobalFrom_cases (inst : U32) (fuel : Nat) (a : BspAttribute σ) (rest : List (BspAttribute σ)) (ret : BspRval)
    (s : σ) :
    (a.pName = none ∧ initGlobalFrom inst (fuel + 1) (a :: rest) ret s = pure (ret, s)) ∨
    ((∃ n, a.pName = some n) ∧ a.optsIn = false ∧ initGlobalFrom inst (fuel + 1) (a :: rest) ret s = Run.spin) ∨
    ∃ n m, a.pName = some n ∧ a.initMethod = some m ∧ a.optsIn = true ∧
      initGlobalFrom inst (fuel + 1) (a :: rest) ret s =
        (call (globalCall inst a) (m inst a.toAttributeData none 0 s) >>= fun p =>
          initGlobalFrom inst fuel rest (ret ||| p.1) p.2) := by
  cases hn : a.pName with
  | none => exact Or.inl ⟨rfl, initGlobalFrom_end _ _ _ _ hn⟩
  | some n =>
    cases ho : a.optsIn with
    | false => exact Or.inr (Or.inl ⟨⟨n, rfl⟩, rfl, initGlobalFrom_stuck hn ho rest _ _ _⟩)
    | true =>
      obtain ⟨m, hm, hopt⟩ := optsIn_iff.mp ho
      exact Or.inr (Or.inr ⟨n, m, rfl, hm, rfl, initGlobalFrom_step _ _ _ _ hn hm hopt⟩)

end Turn

/-! ## The whole loop -/

/-- In front of the first entry that does not opt in, every attribute is called, once
    and in order, and the results are or-ed together. -/
theorem initGlobalFrom_prefix (inst : U32) (rest : List (BspAttribute σ)) (fuel : Nat) :
    ∀ (pre : List (BspAttribute σ)) (ret : BspRval) (s s' : σ) (rs : List BspRval),
      (∀ a ∈ pre, (∃ n, a.pName = some n) ∧ a.optsIn = true) → initAll inst pre s = .ok (rs, s') →
      initGlobalFrom inst (fuel + pre.length) (pre ++ rest) ret s =
        ⟨pre.map (globalCall inst) ++ (initGlobalFrom inst fuel rest (rs.foldl (· ||| ·) ret) s').trace,
          (initGlobalFrom inst fuel rest (rs.foldl (· ||| ·) ret) s').res⟩ := by
  intro pre
  induction pre with
  | nil =>
    intro ret s s' rs _ hall
    simp only [initAll, Res.ok.injEq, Prod.mk.injEq] at hall
    obtain ⟨rfl, rfl⟩ := hall
    simp
  | cons a pre ih =>
    intro ret s s' rs hpre hall
    obtain ⟨⟨n, hn⟩, ho⟩ := hpre a List.mem_cons_self
    obtain ⟨m, hm, hopt⟩ := optsIn_iff.mp ho
    obtain ⟨r, s1, rs1, h1, h2, rfl⟩ := (initAll_cons hm pre s).mp hall
    have hcall : (call (globalCall inst a) (m inst a.toAttributeData none 0 s)).res = .ok (r, s1) := by
      rw [call_res, h1]; rfl
    have htail := ih (ret ||| r) s1 s' rs1 (fun b hb => hpre b (List.mem_cons_of_mem _ hb)) h2
    rw [List.length_cons, ← Nat.add_assoc, List.cons_append, initGlobalFrom_step _ _ _ _ hn hm hopt,
      Run.bind_ok _ hcall, htail]
    simp

/-- A loop that ends has called every live entry: all of them opt in. -/
theorem initGlobalFrom_ok (inst : U32) :
    ∀ (fuel : Nat) (t : List (BspAttribute σ)) (ret : BspRval) (s : σ) (r : BspRval) (s' : σ),
      (initGlobalFrom inst fuel t ret s).res = .ok (r, s') →
      (∀ a ∈ live t, a.optsIn = true) ∧ ∃ rs, initAll inst (live t) s = .ok (rs, s') := by
  intro fuel
  induction fuel with
  | zero => intro t ret s r s' h; cases h
  | succ fuel ih =>
    intro t ret s r s' h
    cases t with
    | nil => cases h
    | cons a rest =>
      rcases initGlobalFrom_cases inst fuel a rest ret s with ⟨hn, hrun⟩ | ⟨-, -, hrun⟩ | ⟨n, m, hn, hm, ho, hrun⟩
      · rw [hrun, Run.pure_res] at h
        simp only [Res.ok.injEq, Prod.mk.injEq] at h
        rw [live_cons_none rest hn]
        exact ⟨by simp, [], by rw [initAll, h.2]⟩
      · rw [hrun] at h
        cases h
      · rw [hrun] at h
        obtain ⟨⟨r1, s1⟩, h1, h2⟩ := Run.bind_res_ok.mp h
        rw [call_res, Res.mapFault_eq_ok] at h1
        obtain ⟨hlive, rs, hrs⟩ := ih rest _ s1 r s' h2
        rw [live_cons_some rest hn]
        refine ⟨?_, r1 :: rs, (initAll_cons hm _ s).mpr ⟨r1, s1, rs, h1, hrs, rfl⟩⟩
        intro b hb
        rcases List.mem_cons.mp hb with rfl | hb
        · exact ho
        · exact hlive b hb

/-- Over a terminated table whose live entries all opt in, the loop ends when the
    callbacks do. -/
theorem initGlobalFrom_all {inst : U32} {t : List (BspAttribute σ)} (hterm : Terminated t)
    (hall : ∀ a ∈ live t, a.optsIn = true) {s s' : σ} {rs : List BspRval}
    (hrs : initAll inst (live t) s = .ok (rs, s')) (ret : BspRval) :
    initGlobalFrom inst (1 + (live t).length) t ret s =
      ⟨(live t).map (globalCall inst), .ok (rs.foldl (· ||| ·) ret, s')⟩ := by
  obtain ⟨z, post, ht, hz⟩ := hterm.eq_live_append
  have hpre := initGlobalFrom_prefix inst (z :: post) 1 (live t) ret s s' rs
    (fun a ha => ⟨mem_live ha, hall a ha⟩) hrs
  rw [← ht, initGlobalFrom_end 0 post _ _ hz] at hpre
  rw [hpre]
  simp

/-! ## The request -/

section Request

variable {es : List (BspEntity σ)} {en an : CStr} {e : BspEntity σ} {i : U32} {t : List (BspAttribute σ)}

theorem bspMethodInit_global (he : bspFindEntity es en = (BSP_RVAL_OK, some e)) (hi : i < e.instanceCount)
    (hn : first an = 0) (ht : selectTable e i = .ok t) (fuel : Nat) (size : U32) (p : Option Buf) (c : U32) (s : σ) :
    bspMethodInit es en i an fuel size p c s = initGlobalFrom i fuel t BSP_RVAL_OK s := by
  simp [bspMethodInit, find_empty he hi hn, hn, ht]

/-- An Init with the empty name ends, having called exactly the opted-in attributes of
    the instance's table once each and in order with NULL data and size 0, and answers
    the or of their results, exactly when every live entry of the table opts in and
    their initMethods return. -/
theorem globalInit_complete_iff (he : bspFindEntity es en = (BSP_RVAL_OK, some e)) (hi : i < e.instanceCount)
    (hn : first an = 0) (ht : selectTable e i = .ok t) (hterm : Terminated t)
    (size : U32) (p : Option Buf) (c : U32) (s : σ) :
    (∃ fuel rs s', initAll i ((live t).filter (·.optsIn)) s = .ok (rs, s') ∧
        bspMethodInit es en i an fuel size p c s =
          ⟨((live t).filter (·.optsIn)).map (globalCall i), .ok (rs.foldl (· ||| ·) 0, s')⟩) ↔
      (∀ a ∈ live t, a.optsIn = true) ∧ (initAll i (live t) s).Returns := by
  constructor
  · intro hsome
    obtain ⟨fuel, rs, s', -, hrun⟩ := hsome
    rw [bspMethodInit_global he hi hn ht] at hrun
    obtain ⟨hall, rs', hrs'⟩ := initGlobalFrom_ok i fuel t _ s _ s' (congrArg Run.res hrun)
    exact ⟨hall, _, hrs'⟩
  · intro hsome
    obtain ⟨hall, ⟨rs, s'⟩, hrs⟩ := hsome
    have hfilter : (live t).filter (·.optsIn) = live t := List.filter_eq_self.mpr hall
    refine ⟨1 + (live t).length, rs, s', by rw [hfilter]; exact hrs, ?_⟩
    rw [bspMethodInit_global he hi hn ht, hfilter]
    exact initGlobalFrom_all hterm hall hrs BSP_RVAL_OK

end Request

/-! ## A table with an entry that does not opt in -/

section SkippedEntry

/-- Counts the calls. -/
def countInit : InitMethod Nat := fun _ _ _ _ s => .ok (BSP_RVAL_OK, s + 1)

def skippedFirst : BspEntity Nat where
  pName := cstr "E"
  version := 1
  instanceCount := 1
  options := BSP_EO_NONE
  pAttributes := [[{ pName := some (cstr "A") },
    { pName := some (cstr "B"), options := BSP_AO_INIT_GLOBAL, initMethod := some countInit },
    { pName := none }]]

/-- "B" is to be called once; the loop never gets past "A". -/
theorem globalInit_skippedFirst :
    ((live (skippedFirst.pAttributes.headD [])).filter (·.optsIn)).length = 1 ∧
      ¬ ∃ fuel rs s', initAll 0 ((live (skippedFirst.pAttributes.headD [])).filter (·.optsIn)) 0 = .ok (rs, s') ∧
        bspMethodInit [skippedFirst] (cstr "E") 0 [] fuel 0 none BSP_PERMISSIONS_ALL 0 =
          ⟨((live (skippedFirst.pAttributes.headD [])).filter (·.optsIn)).map (globalCall 0),
            .ok (rs.foldl (· ||| ·) 0, s')⟩ := by
  refine ⟨by decide, ?_⟩
  intro hsome
  obtain ⟨fuel, rs, s', -, hrun⟩ := hsome
  have he : bspFindEntity [skippedFirst] (cstr "E") = (BSP_RVAL_OK, some skippedFirst) := rfl
  rw [bspMethodInit_global he (by decide) rfl (t := skippedFirst.pAttributes.headD []) rfl] at hrun
  have hspin : initGlobalFrom 0 fuel (skippedFirst.pAttributes.headD []) BSP_RVAL_OK 0 = Run.spin :=
    initGlobalFrom_stuck rfl rfl _ fuel BSP_RVAL_OK 0
  rw [hspin] at hrun
  cases congrArg Run.res hrun

/-- The same entity with a "C" in the place of "A" that opts in like "B". -/
def optedIn : BspEntity Nat :=
  { skippedFirst with
    pAttributes := skippedFirst.pAttributes.map fun t =>
      { pName := some (cstr "C"), options := BSP_AO_INIT_GLOBAL, initMethod := some countInit } :: t.tail }

theorem globalInit_complete_iff_optedIn :
    ((live (optedIn.pAttributes.headD [])).filter (·.optsIn)).length = 2 ∧
      ∃ fuel rs s', initAll 0 ((live (optedIn.pAttributes.headD [])).filter (·.optsIn)) 0 = .ok (rs, s') ∧
        bspMethodInit [optedIn] (cstr "E") 0 [] fuel 0 none BSP_PERMISSIONS_ALL 0 =
          ⟨((live (optedIn.pAttributes.headD [])).filter (·.optsIn)).map (globalCall 0),
            .ok (rs.foldl (· ||| ·) 0, s')⟩ := by
  have hterm : Terminated (optedIn.pAttributes.headD []) := ⟨{ pName := none }, by simp [optedIn, skippedFirst], rfl⟩
  refine ⟨by decide, ?_⟩
  refine (globalInit_complete_iff (e := optedIn) rfl (by decide) rfl rfl hterm 0 none BSP_PERMISSIONS_ALL 0).mpr ⟨?_, ?_⟩
  · decide
  · exact ⟨([BSP_RVAL_OK, BSP_RVAL_OK], 2), rfl⟩

end SkippedEntry

end Iosu.Entity
