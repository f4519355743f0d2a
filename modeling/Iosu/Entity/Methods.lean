/-
  Iosu.Entity.Methods — the five request functions of `entity.c`, and
  `bspGetEntityVersion`.

  Each looks the attribute up and then decides on its own what to call. What it calls
  is the trace of the run: a `Call` for every callback started and every copy of an
  attribute's data, in order. The `while` of `bspMethodInit` moves on only behind the
  two `continue`s, so it takes fuel: at an entry that one of them skips the loop stays
  where it is.
-/

import Iosu.Entity.Find

namespace Iosu.Entity

open Iosu.Lib Iosu.Libc

variable {σ : Type}

/-! ## Calls -/

inductive Call (σ : Type) where
  | read (inst : U32) (a : BspAttribute σ)
  | query (inst : U32) (a : BspAttribute σ)
  | copyDirect (a : BspAttribute σ)
  | copyIndirect (a : BspAttribute σ)
  | write (inst : U32) (a : BspAttribute σ) (pWrittenData : Buf)
  | init (inst : U32) (a : BspAttribute σ) (pInitData : Option Buf) (size : U32)
  | shutdown (inst : U32) (a : BspAttribute σ)

/-- The attribute a call belongs to. -/
def Call.attribute : Call σ → BspAttribute σ
  | .read _ a | .query _ a | .copyDirect a | .copyIndirect a | .write _ a _ | .init _ a _ _ | .shutdown _ a => a

abbrev Prog (σ α : Type) := Run (Call σ) Fault α

/-- The callback `c`, started. -/
def call {α : Type} (c : Call σ) (r : Res Fault α) : Prog σ α := do
  Run.emit c
  Run.lift (r.mapFault .inCallback)

/-- Reading a field of `pA`. -/
def derefAttribute (pA : Option (BspAttribute σ)) : Prog σ (BspAttribute σ) :=
  match pA with
  | some a => pure a
  | none => Run.fault .nullAttribute

/-- Reading a field of `pE`. -/
def derefEntity (pE : Option (BspEntity σ)) : Prog σ (BspEntity σ) :=
  match pE with
  | some e => pure e
  | none => Run.fault .nullEntity

@[simp] theorem call_trace {α : Type} (c : Call σ) (r : Res Fault α) : (call c r).trace = [c] := by simp [call]
@[simp] theorem call_res {α : Type} (c : Call σ) (r : Res Fault α) : (call c r).res = r.mapFault .inCallback := by simp [call]
@[simp] theorem derefAttribute_some (a : BspAttribute σ) : derefAttribute (some a) = pure a := rfl
@[simp] theorem derefAttribute_none : derefAttribute (none : Option (BspAttribute σ)) = Run.fault .nullAttribute := rfl
@[simp] theorem derefEntity_some (e : BspEntity σ) : derefEntity (some e) = pure e := rfl
@[simp] theorem derefEntity_none : derefEntity (none : Option (BspEntity σ)) = Run.fault .nullEntity := rfl

/-! ## The request functions -/

section Requests

variable (bspEntityList : List (BspEntity σ)) (entityName : CStr) (inst : U32) (attributeName : CStr)

def bspMethodRead (size : U32) (pReadData : Buf) (clientCredentials : U32) (s : σ) : Prog σ (BspRval × Buf × σ) := do
  let (ret, _, pA) ← Run.lift
    (bspFindAttribute bspEntityList entityName inst attributeName clientCredentials BSP_IOCTL_METHOD_READ)
  if ret ≠ BSP_RVAL_OK then return (ret, pReadData, s)
  let a ← derefAttribute pA
  if size ≠ a.dataSize then return (BSP_RVAL_SPECIFIED_SIZE_INVALID, pReadData, s)
  match a.readMethod with
  | none => return (BSP_RVAL_UNSUPPORTED_METHOD, pReadData, s)
  | some readMethod => call (.read inst a) (readMethod inst a.toAttributeData pReadData s)

def bspMethodQuery [DataMem σ] (size : U32) (pQueryData : Buf) (clientCredentials : U32) (s : σ) :
    Prog σ (BspRval × Buf × σ) := do
  let (ret, _, pA) ← Run.lift
    (bspFindAttribute bspEntityList entityName inst attributeName clientCredentials BSP_IOCTL_METHOD_QUERY)
  if ret ≠ BSP_RVAL_OK then return (ret, pQueryData, s)
  let a ← derefAttribute pA
  if size ≠ a.dataSize then return (BSP_RVAL_SPECIFIED_SIZE_INVALID, pQueryData, s)
  match a.queryMethod with
  | some queryMethod => call (.query inst a) (queryMethod inst a.toAttributeData pQueryData s)
  | none =>
    if a.options &&& BSP_AO_QUERY_DATA_DIRECT ≠ 0 then
      if 4 < size then return (BSP_RVAL_CFG_CORRUPTED, pQueryData, s)
      -- the last `size` bytes of the big-endian word
      call (.copyDirect a) (.ok (BSP_RVAL_OK, pQueryData.store ((Buf.ofU32 a.data).drop (4 - size.toNat)), s))
    else if a.options &&& BSP_AO_QUERY_DATA_INDIRECT ≠ 0 then
      call (.copyIndirect a)
        (.ok (BSP_RVAL_OK, pQueryData.store ((Mem.view (DataMem.peek s) a.data).bytes 0 size.toNat), s))
    else return (BSP_RVAL_QUERY_UNAVAILABLE, pQueryData, s)

def bspMethodWrite (size : U32) (pWrittenData : Buf) (clientCredentials : U32) (s : σ) : Prog σ (BspRval × σ) := do
  let (ret, _, pA) ← Run.lift
    (bspFindAttribute bspEntityList entityName inst attributeName clientCredentials BSP_IOCTL_METHOD_WRITE)
  if ret ≠ BSP_RVAL_OK then return (ret, s)
  let a ← derefAttribute pA
  if size ≠ a.dataSize then return (BSP_RVAL_SPECIFIED_SIZE_INVALID, s)
  match a.writeMethod with
  | none => return (BSP_RVAL_UNSUPPORTED_METHOD, s)
  | some writeMethod => call (.write inst a pWrittenData) (writeMethod inst a.toAttributeData pWrittenData s)

/-- The `while (pA->pName != NULL)` of the global init, from `pA` on. -/
def initGlobalFrom (inst : U32) : Nat → List (BspAttribute σ) → BspRval → σ → Prog σ (BspRval × σ)
  | 0, _, _, _ => Run.spin
  | _ + 1, [], _, _ => Run.fault .tableOverrun
  | fuel + 1, a :: rest, ret, s =>
    match a.pName with
    | none => return (ret, s)
    | some _ =>
      match a.initMethod with
      | none => initGlobalFrom inst fuel (a :: rest) ret s   -- `continue`: `pA++` is not reached
      | some initMethod =>
        if a.options &&& BSP_AO_INIT_GLOBAL = 0 then initGlobalFrom inst fuel (a :: rest) ret s   -- likewise
        else do
          let (r, s) ← call (.init inst a none 0) (initMethod inst a.toAttributeData none 0 s)
          initGlobalFrom inst fuel rest (ret ||| r) s

def bspMethodInit (fuel : Nat) (size : U32) (pInitData : Option Buf) (clientCredentials : U32) (s : σ) :
    Prog σ (BspRval × σ) := do
  let (ret, pE, pA) ← Run.lift
    (bspFindAttribute bspEntityList entityName inst attributeName clientCredentials BSP_IOCTL_METHOD_INIT)
  if ret ≠ BSP_RVAL_OK then return (ret, s)
  if first attributeName ≠ 0 then
    let a ← derefAttribute pA
    match a.initMethod with
    | none => return (BSP_RVAL_UNSUPPORTED_METHOD, s)
    | some initMethod => call (.init inst a pInitData size) (initMethod inst a.toAttributeData pInitData size s)
  else
    let e ← derefEntity pE
    let t ← Run.lift (selectTable e inst)
    initGlobalFrom inst fuel t ret s

def bspMethodShutdown (clientCredentials : U32) (s : σ) : Prog σ (BspRval × σ) := do
  let (ret, _, pA) ← Run.lift
    (bspFindAttribute bspEntityList entityName inst attributeName clientCredentials BSP_IOCTL_METHOD_SHUTDOWN)
  if ret ≠ BSP_RVAL_OK then return (ret, s)
  let a ← derefAttribute pA
  match a.shutdownMethod with
  | none => return (BSP_RVAL_UNSUPPORTED_METHOD, s)
  | some shutdownMethod => call (.shutdown inst a) (shutdownMethod inst a.toAttributeData s)

/-- The version is copied out only on BSP_RVAL_OK. -/
def bspGetEntityVersion : Prog σ (BspRval × Option U32) := do
  let (ret, pE) := bspFindEntity bspEntityList entityName
  if ret ≠ BSP_RVAL_OK then return (ret, none)
  let e ← derefEntity pE
  return (BSP_RVAL_OK, some e.version)

end Requests

/-! ## A request -/

/-- The operation, with what its data pointer designates. -/
inductive Op where
  | read (pReadData : Buf)
  | query (pQueryData : Buf)
  | write (pWrittenData : Buf)
  | init (pInitData : Option Buf)
  | shutdown

structure Request where
  op : Op
  entityName : CStr
  inst : U32
  attributeName : CStr
  size : U32
  clientCredentials : U32

/-- The request function that serves a request. -/
def Request.run [DataMem σ] (fuel : Nat) (es : List (BspEntity σ)) (r : Request) (s : σ) : Prog σ (BspRval × σ) :=
  match r.op with
  | .read p => do
    let (ret, _, s) ← bspMethodRead es r.entityName r.inst r.attributeName r.size p r.clientCredentials s
    return (ret, s)
  | .query p => do
    let (ret, _, s) ← bspMethodQuery es r.entityName r.inst r.attributeName r.size p r.clientCredentials s
    return (ret, s)
  | .write p => bspMethodWrite es r.entityName r.inst r.attributeName r.size p r.clientCredentials s
  | .init p => bspMethodInit es r.entityName r.inst r.attributeName fuel r.size p r.clientCredentials s
  | .shutdown => bspMethodShutdown es r.entityName r.inst r.attributeName r.clientCredentials s

/-- The command `bspFindAttribute` is given for an operation. -/
def Op.command : Op → U32
  | .read _ => BSP_IOCTL_METHOD_READ
  | .query _ => BSP_IOCTL_METHOD_QUERY
  | .write _ => BSP_IOCTL_METHOD_WRITE
  | .init _ => BSP_IOCTL_METHOD_INIT
  | .shutdown => BSP_IOCTL_METHOD_SHUTDOWN

/-- A request's lookup. -/
def Request.find (es : List (BspEntity σ)) (r : Request) : Res Fault (Found σ) :=
  bspFindAttribute es r.entityName r.inst r.attributeName r.clientCredentials r.op.command

/-- An Init of every attribute of the instance that opts in. -/
def Request.IsGlobalInit (r : Request) : Prop := (∃ p, r.op = .init p) ∧ first r.attributeName = 0

/-! ## What a request does, by its lookup -/

/-- Every call is of the attribute `a`, and every fault is a callback's. -/
def Confined {α : Type} (a : BspAttribute σ) (p : Prog σ α) : Prop :=
  (∀ c ∈ p.trace, c.attribute = a) ∧ ∀ f, p.res = .fault f → ∃ f', f = .inCallback f'

theorem confined_pure {α : Type} {a : BspAttribute σ} (x : α) : Confined a (pure x : Prog σ α) := by
  refine ⟨?_, ?_⟩
  · intro c hc; cases hc
  · intro f hf; cases hf

theorem confined_call {α : Type} {a : BspAttribute σ} {c : Call σ} (hc : c.attribute = a) (r : Res Fault α) :
    Confined a (call c r) := by
  refine ⟨?_, ?_⟩
  · intro c' hc'
    rw [call_trace, List.mem_singleton] at hc'
    rw [hc', hc]
  · intro f hf
    rw [call_res] at hf
    obtain ⟨f', -, rfl⟩ := Res.mapFault_eq_fault.mp hf
    exact ⟨f', rfl⟩

theorem confined_bind {α β : Type} {a : BspAttribute σ} {p : Prog σ α} {k : α → Prog σ β} (hp : Confined a p)
    (hk : ∀ x, Confined a (k x)) : Confined a (p >>= k) := by
  refine ⟨?_, ?_⟩
  · intro c hc
    rcases Run.mem_bind_trace.mp hc with hc | ⟨x, -, hc⟩
    · exact hp.1 c hc
    · exact (hk x).1 c hc
  · intro f hf
    rcases Run.bind_res_fault.mp hf with hf | ⟨x, -, hf⟩
    · exact hp.2 f hf
    · exact (hk x).2 f hf

namespace Request

variable [DataMem σ] {es : List (BspEntity σ)} {r : Request} {fuel : Nat} {s : σ}

theorem run_of_fault {f : Fault} (h : r.find es = .fault f) : r.run fuel es s = Run.fault f := by
  obtain ⟨op, en, i, an, size, cred⟩ := r
  cases op <;> simp only [find, Op.command] at h <;>
    simp [run, bspMethodRead, bspMethodQuery, bspMethodWrite, bspMethodInit, bspMethodShutdown, h]

theorem run_of_error {ret : BspRval} {pE : Option (BspEntity σ)} {pA : Option (BspAttribute σ)}
    (h : r.find es = .ok (ret, pE, pA)) (hret : ret ≠ BSP_RVAL_OK) : r.run fuel es s = pure (ret, s) := by
  obtain ⟨op, en, i, an, size, cred⟩ := r
  cases op <;> simp only [find, Op.command] at h <;>
    simp [run, bspMethodRead, bspMethodQuery, bspMethodWrite, bspMethodInit, bspMethodShutdown, h, hret]

/-- With no attribute every method but Init reads a field of NULL. -/
theorem run_of_null {pE : Option (BspEntity σ)} (h : r.find es = .ok (BSP_RVAL_OK, pE, none))
    (hop : ∀ p, r.op ≠ .init p) : r.run fuel es s = Run.fault .nullAttribute := by
  obtain ⟨op, en, i, an, size, cred⟩ := r
  cases op with
  | init p => exact absurd rfl (hop p)
  | read p => simp only [find, Op.command] at h; simp [run, bspMethodRead, h]
  | query p => simp only [find, Op.command] at h; simp [run, bspMethodQuery, h]
  | write p => simp only [find, Op.command] at h; simp [run, bspMethodWrite, h]
  | shutdown => simp only [find, Op.command] at h; simp [run, bspMethodShutdown, h]

theorem run_globalInit {e : BspEntity σ} {pA : Option (BspAttribute σ)} (hg : r.IsGlobalInit)
    (h : r.find es = .ok (BSP_RVAL_OK, some e, pA)) :
    r.run fuel es s = (Run.lift (selectTable e r.inst) >>= fun t => initGlobalFrom r.inst fuel t BSP_RVAL_OK s) := by
  obtain ⟨op, en, i, an, size, cred⟩ := r
  obtain ⟨⟨p, hop⟩, hn⟩ := hg
  dsimp only at hop hn
  subst hop
  simp only [find, Op.command] at h
  simp [run, bspMethodInit, h, hn]

/-- Given an attribute, a request calls that attribute only, and has no fault of its
    own. -/
theorem run_of_found {pE : Option (BspEntity σ)} {a : BspAttribute σ}
    (h : r.find es = .ok (BSP_RVAL_OK, pE, some a)) (hg : ¬ r.IsGlobalInit) : Confined a (r.run fuel es s) := by
  obtain ⟨op, en, i, an, size, cred⟩ := r
  cases op with
  | read p =>
    simp only [find, Op.command] at h
    simp only [run, bspMethodRead, h, Run.lift_ok_bind, ne_eq, not_true_eq_false, if_false, derefAttribute_some,
      Run.pure_bind]
    refine confined_bind ?_ fun _ => confined_pure _
    split
    · exact confined_pure _
    · split
      · exact confined_pure _
      · exact confined_call rfl _
  | query p =>
    simp only [find, Op.command] at h
    simp only [run, bspMethodQuery, h, Run.lift_ok_bind, ne_eq, not_true_eq_false, if_false, derefAttribute_some,
      Run.pure_bind]
    refine confined_bind ?_ fun _ => confined_pure _
    split
    · exact confined_pure _
    · split
      · exact confined_call rfl _
      · split
        · split
          · exact confined_pure _
          · exact confined_call rfl _
        · split
          · exact confined_call rfl _
          · exact confined_pure _
  | write p =>
    simp only [find, Op.command] at h
    simp only [run, bspMethodWrite, h, Run.lift_ok_bind, ne_eq, not_true_eq_false, if_false, derefAttribute_some,
      Run.pure_bind]
    split
    · exact confined_pure _
    · split
      · exact confined_pure _
      · exact confined_call rfl _
  | init p =>
    have hn : first an ≠ 0 := fun h0 => hg ⟨⟨p, rfl⟩, h0⟩
    simp only [find, Op.command] at h
    simp only [run, bspMethodInit, h, Run.lift_ok_bind, ne_eq, not_true_eq_false, if_false, derefAttribute_some,
      Run.pure_bind]
    rw [if_pos hn]
    split
    · exact confined_pure _
    · exact confined_call rfl _
  | shutdown =>
    simp only [find, Op.command] at h
    simp only [run, bspMethodShutdown, h, Run.lift_ok_bind, ne_eq, not_true_eq_false, if_false, derefAttribute_some,
      Run.pure_bind]
    split
    · exact confined_pure _
    · exact confined_call rfl _

end Request

end Iosu.Entity
