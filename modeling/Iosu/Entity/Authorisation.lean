/-
  Iosu.Entity.Authorisation — whose callbacks a client without INTERNAL can start.

  A client is authorised for an attribute when the attribute is not internal and both
  share a bit of the operation's class. A request that names an attribute calls it only
  then (`checkPermissions_authorises`). The global init calls every attribute it
  reaches and asks nobody: `authorised_iff` says that it is the only way past the
  check, and which tables open it.
-/

import Iosu.Entity.NullSafety

namespace Iosu.Entity

open Iosu.Lib Iosu.Libc

variable {σ : Type}

/-! ## Authority -/

/-- The permission bits of an operation's class. -/
def Op.classBits : Op → U32
  | .read _ | .query _ => BSP_PERMISSIONS_PPC_SUPV_READ ||| BSP_PERMISSIONS_PPC_USER_READ |||
      BSP_PERMISSIONS_IOS_SUPV_READ ||| BSP_PERMISSIONS_IOS_USER_READ
  | .write _ => BSP_PERMISSIONS_PPC_SUPV_WRITE ||| BSP_PERMISSIONS_PPC_USER_WRITE |||
      BSP_PERMISSIONS_IOS_SUPV_WRITE ||| BSP_PERMISSIONS_IOS_USER_WRITE
  | .init _ => BSP_PERMISSIONS_PPC_SUPV_INIT ||| BSP_PERMISSIONS_PPC_USER_INIT |||
      BSP_PERMISSIONS_IOS_SUPV_INIT ||| BSP_PERMISSIONS_IOS_USER_INIT
  | .shutdown => BSP_PERMISSIONS_PPC_SUPV_SHUTDOWN ||| BSP_PERMISSIONS_PPC_USER_SHUTDOWN |||
      BSP_PERMISSIONS_IOS_SUPV_SHUTDOWN ||| BSP_PERMISSIONS_IOS_USER_SHUTDOWN

/-- The request may use the attribute. -/
def Request.Authorises (r : Request) (a : BspAttribute σ) : Prop :=
  a.permissions &&& BSP_PERMISSIONS_INTERNAL = 0 ∧
    r.clientCredentials &&& a.permissions &&& r.op.classBits ≠ 0

instance (r : Request) (a : BspAttribute σ) : Decidable (r.Authorises a) := inferInstanceAs (Decidable (_ ∧ _))

/-- A global init whose walk comes to an attribute the request may not use: the
    attributes in front of it opt in, as it does, and their initMethods return. -/
def Request.Overreaches (r : Request) (es : List (BspEntity σ)) (s : σ) : Prop :=
  r.IsGlobalInit ∧ ∃ e t pre a post, Names es r.entityName e ∧ r.inst < e.instanceCount ∧
    selectTable e r.inst = .ok t ∧ live t = pre ++ a :: post ∧ (∀ b ∈ pre, b.optsIn = true) ∧
    a.optsIn = true ∧ ¬ r.Authorises a ∧ (initAll r.inst pre s).Returns

/-! ## The check -/

theorem commandMask_eq (op : Op) : commandMask op.command = some (BSP_PERMISSIONS_INTERNAL ||| op.classBits) := by
  cases op <;> simp only [Op.command, Op.classBits] <;> decide

/-- Without the INTERNAL bit the mask leaves the class bits only. -/
theorem masked_eq {c : U32} (hc : c &&& BSP_PERMISSIONS_INTERNAL = 0) (k p : U32) :
    c &&& (BSP_PERMISSIONS_INTERNAL ||| k) &&& p = c &&& p &&& k := by
  have h0 : c &&& (BSP_PERMISSIONS_INTERNAL ||| k) = c &&& k := by
    rw [BitVec.and_or_distrib_left, hc]
    exact BitVec.zero_or
  rw [h0, BitVec.and_assoc, BitVec.and_comm k p, ← BitVec.and_assoc]

/-- What passes the check is authorised. -/
theorem checkPermissions_authorises {r : Request} {a : BspAttribute σ}
    (hc : r.clientCredentials &&& BSP_PERMISSIONS_INTERNAL = 0)
    (hok : checkPermissions BSP_RVAL_OK (some a) r.clientCredentials r.op.command = BSP_RVAL_OK) :
    r.Authorises a := by
  rcases checkPermissions_ok hok with h | ⟨mask, hmask, h⟩
  · exact absurd hc h
  · rw [commandMask_eq, Option.some.injEq] at hmask
    subst hmask
    by_cases hint : a.permissions &&& BSP_PERMISSIONS_INTERNAL = 0
    · rw [if_neg (not_not.mpr hint), masked_eq hc] at h
      exact ⟨hint, h⟩
    · rw [if_pos hint, masked_eq hc, hc] at h
      exact absurd BitVec.zero_and h

/-! ## What a global init calls -/

/-- Every call of the loop is of an attribute it has walked up to. -/
theorem mem_initGlobalFrom_trace (inst : U32) :
    ∀ (fuel : Nat) (t : List (BspAttribute σ)) (ret : BspRval) (s : σ) (c : Call σ),
      c ∈ (initGlobalFrom inst fuel t ret s).trace →
      ∃ pre a post, live t = pre ++ a :: post ∧ (∀ b ∈ pre, b.optsIn = true) ∧ a.optsIn = true ∧
        (initAll inst pre s).Returns ∧ c.attribute = a := by
  intro fuel
  induction fuel with
  | zero => intro t ret s c hc; cases hc
  | succ fuel ih =>
    intro t ret s c hc
    cases t with
    | nil => cases hc
    | cons a rest =>
      rcases initGlobalFrom_cases inst fuel a rest ret s with ⟨-, hrun⟩ | ⟨-, -, hrun⟩ | ⟨n, m, hn, hm, ho, hrun⟩
      · rw [hrun] at hc
        cases hc
      · rw [hrun] at hc
        cases hc
      rw [hrun] at hc
      rw [live_cons_some rest hn]
      rcases Run.mem_bind_trace.mp hc with hc | ⟨p, hp, hc⟩
      · rw [call_trace, List.mem_singleton] at hc
        exact ⟨[], a, live rest, rfl, by simp, ho, ⟨([], s), rfl⟩, by rw [hc]; rfl⟩
      · rw [call_res, Res.mapFault_eq_ok] at hp
        obtain ⟨pre, b, post, hlive, hpre, hb, ⟨⟨rs, s'⟩, hret⟩, hcb⟩ := ih _ _ _ _ hc
        refine ⟨a :: pre, b, post, by rw [hlive]; rfl, ?_, hb, ?_, hcb⟩
        · intro x hx
          rcases List.mem_cons.mp hx with rfl | hx
          · exact ho
          · exact hpre x hx
        · exact ⟨(p.1 :: rs, s'), (initAll_cons hm pre s).mpr ⟨p.1, p.2, rs, hp, hret, rfl⟩⟩

/-- It does call each of them. -/
theorem initGlobalFrom_reaches {inst : U32} {t pre post : List (BspAttribute σ)} {a : BspAttribute σ}
    (hlive : live t = pre ++ a :: post) (hpre : ∀ b ∈ pre, b.optsIn = true) (ha : a.optsIn = true) {s : σ}
    (hret : (initAll inst pre s).Returns) (ret : BspRval) :
    globalCall inst a ∈ (initGlobalFrom inst (1 + pre.length) t ret s).trace := by
  obtain ⟨⟨rs, s'⟩, hrs⟩ := hret
  have ht : t = pre ++ (a :: (post ++ t.dropWhile fun a => a.pName.isSome)) := by
    have h := (List.takeWhile_append_dropWhile (p := fun a : BspAttribute σ => a.pName.isSome) (l := t)).symm
    rw [show t.takeWhile (fun a => a.pName.isSome) = pre ++ a :: post from hlive] at h
    rw [List.append_assoc, List.cons_append] at h
    exact h
  have hmem : ∀ b ∈ pre ++ a :: post, ∃ n, b.pName = some n := by
    intro b hb
    exact mem_live (hlive ▸ hb)
  obtain ⟨n, hn⟩ := hmem a (by simp)
  obtain ⟨m, hm, hopt⟩ := optsIn_iff.mp ha
  have hrun := initGlobalFrom_prefix inst (a :: (post ++ t.dropWhile fun a => a.pName.isSome)) 1 pre ret s s' rs
    (fun b hb => ⟨hmem b (List.mem_append_left _ hb), hpre b hb⟩) hrs
  rw [← ht] at hrun
  rw [hrun, initGlobalFrom_step _ _ _ _ hn hm hopt]
  refine List.mem_append_right _ (Run.mem_bind_trace.mpr (Or.inl ?_))
  rw [call_trace]
  exact List.mem_cons_self

/-! ## The requests -/

/-- For a client without INTERNAL: every callback started and every copy made for the
    request is of an attribute it may use, exactly when the request is not a global
    init that walks up to one it may not use. -/
theorem authorised_iff [DataMem σ] (es : List (BspEntity σ)) (r : Request) (s : σ)
    (hc : r.clientCredentials &&& BSP_PERMISSIONS_INTERNAL = 0) :
    (∀ fuel, ∀ c ∈ (r.run fuel es s).trace, r.Authorises c.attribute) ↔ ¬ r.Overreaches es s := by
  refine ⟨?_, ?_⟩
  · intro hall hover
    obtain ⟨hg, e, t, pre, a, post, he, hi, ht, hlive, hpre, ha, hno, hret⟩ := hover
    have hfind : r.find es = .ok (BSP_RVAL_OK, some e, none) :=
      find_empty ((bspFindEntity_eq_some es _ e).mpr he) hi hg.2
    have hmem := initGlobalFrom_reaches hlive hpre ha hret BSP_RVAL_OK
    refine hno (hall (1 + pre.length) (globalCall r.inst a) ?_)
    rw [Request.run_globalInit hg hfind, ht, Run.lift_ok_bind]
    exact hmem
  · intro hno fuel c hmem
    rcases bspFindAttribute_cases es r.entityName r.inst r.attributeName r.clientCredentials r.op.command with
      ⟨-, hf⟩ | ⟨ret, pE, hret, hf⟩ | ⟨e, he, hi, hn, hf⟩ | ⟨e, f, -, -, -, -, hf⟩ | ⟨e, t, a, -, -, hn, -, -, hf⟩
    · rw [Request.run_of_fault hf] at hmem; cases hmem
    · rw [Request.run_of_error hf hret] at hmem; cases hmem
    · by_cases hop : ∃ p, r.op = .init p
      · have hg : r.IsGlobalInit := ⟨hop, hn⟩
        rw [Request.run_globalInit hg hf] at hmem
        rcases Run.mem_bind_trace.mp hmem with hmem | ⟨t, ht, hmem⟩
        · cases hmem
        · obtain ⟨pre, a, post, hlive, hpre, ha, hret, rfl⟩ := mem_initGlobalFrom_trace _ _ _ _ _ _ hmem
          by_contra hna
          exact hno ⟨hg, e, t, pre, c.attribute, post, (bspFindEntity_eq_some es _ e).mp he, hi, ht, hlive, hpre,
            ha, hna, hret⟩
      · rw [Request.run_of_null hf (fun p hp => hop ⟨p, hp⟩)] at hmem
        cases hmem
    · rw [Request.run_of_fault hf] at hmem; cases hmem
    · have hg : ¬ r.IsGlobalInit := fun h => hn h.2
      by_cases hok : checkPermissions BSP_RVAL_OK (some a) r.clientCredentials r.op.command = BSP_RVAL_OK
      · have hauth := checkPermissions_authorises hc hok
        rw [hok] at hf
        rw [(Request.run_of_found hf hg).1 c hmem]
        exact hauth
      · rw [Request.run_of_error hf hok] at hmem; cases hmem

/-! ## An internal attribute that opts in -/

section InternalInit

def internalAttribute : BspAttribute Unit where
  pName := some (cstr "A")
  options := BSP_AO_INIT_GLOBAL
  permissions := BSP_PERMISSIONS_INTERNAL
  initMethod := some fun _ _ _ _ s => .ok (BSP_RVAL_OK, s)

def internalInit : BspEntity Unit where
  pName := cstr "E"
  version := 1
  instanceCount := 1
  options := BSP_EO_NONE
  pAttributes := [[internalAttribute, { pName := none }]]

/-- A client with no credentials at all: refused by name, served by the empty name. -/
theorem internalInit_unauthorised :
    (Request.run 2 [internalInit] ⟨.init none, cstr "E", 0, cstr "A", 0, 0⟩ ()).res = .ok (BSP_RVAL_REQUEST_DENIED, ()) ∧
      ¬ ∀ fuel, ∀ c ∈ (Request.run fuel [internalInit] ⟨.init none, cstr "E", 0, [], 0, 0⟩ ()).trace,
        Request.Authorises ⟨.init none, cstr "E", 0, [], 0, 0⟩ c.attribute := by
  refine ⟨rfl, ?_⟩
  intro hall
  have hmem : globalCall 0 internalAttribute ∈
      (Request.run 2 [internalInit] ⟨.init none, cstr "E", 0, [], 0, 0⟩ ()).trace := List.mem_cons_self
  exact absurd (hall 2 _ hmem).1 (by decide)

/-- Two attributes that opt in, and that a client of IOS may initialise. -/
def openInit : BspEntity Unit :=
  { internalInit with
    pAttributes := [[{ internalAttribute with permissions := BSP_PERMISSIONS_IOS_USER_INIT },
      { internalAttribute with pName := some (cstr "B"), permissions := BSP_PERMISSIONS_IOS }, { pName := none }]] }

/-- The empty name, in the name of a client that may initialise. -/
def everyInit : Request := ⟨.init none, cstr "E", 0, [], 0, BSP_PERMISSIONS_IOS_USER_INIT⟩

/-- A client that may initialise both is served both by the empty name. -/
theorem authorised_iff_openInit :
    ¬ everyInit.Overreaches [openInit] () ∧ (Request.run 3 [openInit] everyInit ()).trace.length = 2 ∧
      ∀ fuel, ∀ c ∈ (Request.run fuel [openInit] everyInit ()).trace, everyInit.Authorises c.attribute := by
  have hnot : ¬ everyInit.Overreaches [openInit] () := by
    rintro ⟨-, e, t, pre, a, post, he, -, ht, hlive, -, -, hno, -⟩
    have hfind : (BSP_RVAL_OK, some openInit) = (BSP_RVAL_OK, some e) :=
      (bspFindEntity_eq_some [openInit] (cstr "E") e).mpr he
    obtain rfl : openInit = e := Option.some.inj (Prod.mk.inj hfind).2
    obtain rfl : openInit.pAttributes.headD [] = t := Res.ok.inj ht
    have ha : a ∈ live (openInit.pAttributes.headD []) := by
      rw [hlive]
      exact List.mem_append_right _ List.mem_cons_self
    have hall : ∀ b ∈ live (openInit.pAttributes.headD []), everyInit.Authorises b := by decide
    exact hno (hall a ha)
  exact ⟨hnot, rfl, (authorised_iff [openInit] everyInit () (by decide)).mpr hnot⟩

end InternalInit

end Iosu.Entity
