/-
  Iosu.Entity.Frame — a request changes no more than its callbacks do.

  The request functions do nothing to the state themselves: they hand it to the callbacks that
  they start, and take what these leave (`Call.Within`). So a request that calls nothing but
  callbacks within a frame stays within it, whatever it is for and whatever comes of it.
-/

import Iosu.Entity.GlobalInit
import Iosu.Lib.Frame

namespace Iosu.Entity

open Iosu.Lib Iosu.Libc

variable {σ : Type}

/-- The callback that the call starts stays within the frame. A copy of an attribute's data
    starts none. -/
def Call.Within (F : Frame σ) : Call σ → Prop
  | .read inst a => ∀ m, a.readMethod = some m → ∀ p s ret p' s',
      m inst a.toAttributeData p s = .ok (ret, p', s') → F.rel s s'
  | .query inst a => ∀ m, a.queryMethod = some m → ∀ p s ret p' s',
      m inst a.toAttributeData p s = .ok (ret, p', s') → F.rel s s'
  | .copyDirect _ | .copyIndirect _ => True
  | .write inst a p => ∀ m, a.writeMethod = some m → ∀ s ret s',
      m inst a.toAttributeData p s = .ok (ret, s') → F.rel s s'
  | .init inst a p size => ∀ m, a.initMethod = some m → ∀ s ret s',
      m inst a.toAttributeData p size s = .ok (ret, s') → F.rel s s'
  | .shutdown inst a => ∀ m, a.shutdownMethod = some m → ∀ s ret s',
      m inst a.toAttributeData s = .ok (ret, s') → F.rel s s'

theorem Call.Within.mono {F G : Frame σ} {c : Call σ} (h : c.Within F) (hFG : ∀ s t, F.rel s t → G.rel s t) :
    c.Within G := by
  cases c with
  | read inst a => exact fun m hm p s ret p' s' hrun => hFG s s' (h m hm p s ret p' s' hrun)
  | query inst a => exact fun m hm p s ret p' s' hrun => hFG s s' (h m hm p s ret p' s' hrun)
  | copyDirect a => trivial
  | copyIndirect a => trivial
  | write inst a p => exact fun m hm s ret s' hrun => hFG s s' (h m hm s ret s' hrun)
  | init inst a p size => exact fun m hm s ret s' hrun => hFG s s' (h m hm s ret s' hrun)
  | shutdown inst a => exact fun m hm s ret s' hrun => hFG s s' (h m hm s ret s' hrun)

section Requests

variable {F : Frame σ} {es : List (BspEntity σ)} {en an : CStr} {i size cred : U32} {s : σ}

theorem framed_call {α : Type} {c : Call σ} {r : Res Fault α} {g : α → σ}
    (h : c.Within F → ∀ a, r = .ok a → F.rel s (g a)) : (call c r).Framed F (Call.Within F) s g := by
  refine Run.framed_emit_bind fun hc => Run.framed_lift fun a ha => ?_
  exact h hc a (Res.mapFault_eq_ok.mp ha)

/-- The start that the request functions share. -/
theorem framed_lookup {α : Type} {find : Res Fault (Found σ)} (refuse : BspRval → α) {body : BspAttribute σ → Prog σ α}
    {g : α → σ} (hr : ∀ ret, g (refuse ret) = s) (hb : ∀ a, (body a).Framed F (Call.Within F) s g) :
    Run.Framed F (Call.Within F) s (do
      let (ret, _, pA) ← Run.lift find
      if ret ≠ BSP_RVAL_OK then return refuse ret
      let a ← derefAttribute pA
      body a) g :=
  Run.Framed.bind_silent fun _ => Run.Framed.ite (Run.framed_pure (hr _)) (Run.Framed.bind_silent hb)

theorem read_framed (p : Buf) :
    (bspMethodRead es en i an size p cred s).Framed F (Call.Within F) s fun q => q.2.2 := by
  refine framed_lookup (fun ret => (ret, p, s)) (fun _ => rfl) fun a => ?_
  refine Run.Framed.ite (Run.framed_pure rfl) ?_
  cases hm : a.readMethod with
  | none => exact Run.framed_pure rfl
  | some m => exact framed_call fun hc q hq => hc m hm p s q.1 q.2.1 q.2.2 hq

theorem query_framed [DataMem σ] (p : Buf) :
    (bspMethodQuery es en i an size p cred s).Framed F (Call.Within F) s fun q => q.2.2 := by
  refine framed_lookup (fun ret => (ret, p, s)) (fun _ => rfl) fun a => ?_
  refine Run.Framed.ite (Run.framed_pure rfl) ?_
  cases hm : a.queryMethod with
  | some m => exact framed_call fun hc q hq => hc m hm p s q.1 q.2.1 q.2.2 hq
  | none =>
    have hcopy : ∀ (c : Call σ) ret out, (call c (.ok (ret, out, s) : Res Fault (BspRval × Buf × σ))).Framed F
        (Call.Within F) s fun q => q.2.2 := by
      intro c ret out
      refine framed_call fun _ q hq => ?_
      cases hq
      exact F.refl s
    refine Run.Framed.ite (Run.Framed.ite (Run.framed_pure rfl) (hcopy _ _ _)) ?_
    exact Run.Framed.ite (hcopy _ _ _) (Run.framed_pure rfl)

theorem write_framed (p : Buf) :
    (bspMethodWrite es en i an size p cred s).Framed F (Call.Within F) s fun q => q.2 := by
  refine framed_lookup (fun ret => (ret, s)) (fun _ => rfl) fun a => ?_
  refine Run.Framed.ite (Run.framed_pure rfl) ?_
  cases hm : a.writeMethod with
  | none => exact Run.framed_pure rfl
  | some m => exact framed_call fun hc q hq => hc m hm s q.1 q.2 hq

theorem initGlobalFrom_framed (inst : U32) (fuel : Nat) (t : List (BspAttribute σ)) (ret : BspRval) :
    (initGlobalFrom inst fuel t ret s).Framed F (Call.Within F) s fun q => q.2 := by
  induction fuel generalizing t ret s with
  | zero => exact Run.framed_spin
  | succ fuel ih =>
    cases t with
    | nil => exact Run.framed_fault
    | cons a rest =>
      rcases initGlobalFrom_cases inst fuel a rest ret s with ⟨-, hrun⟩ | ⟨-, -, hrun⟩ | ⟨n, m, -, hm, -, hrun⟩
      · rw [hrun]
        exact Run.framed_pure rfl
      · rw [hrun]
        exact Run.framed_spin
      · rw [hrun]
        refine Run.Framed.bind (g := fun q => q.2) ?_ fun q => ih rest _
        exact framed_call fun hc q hq => hc m hm s q.1 q.2 hq

theorem init_framed (fuel : Nat) (p : Option Buf) :
    (bspMethodInit es en i an fuel size p cred s).Framed F (Call.Within F) s fun q => q.2 := by
  refine Run.Framed.bind_silent fun _ => Run.Framed.ite (Run.framed_pure rfl) (Run.Framed.ite ?_ ?_)
  · refine Run.Framed.bind_silent fun a => ?_
    cases hm : a.initMethod with
    | none => exact Run.framed_pure rfl
    | some m => exact framed_call fun hc q hq => hc m hm s q.1 q.2 hq
  · exact Run.Framed.bind_silent fun e => Run.Framed.bind_silent fun t => initGlobalFrom_framed i fuel t _

theorem shutdown_framed : (bspMethodShutdown es en i an cred s).Framed F (Call.Within F) s fun q => q.2 := by
  refine framed_lookup (fun ret => (ret, s)) (fun _ => rfl) fun a => ?_
  cases hm : a.shutdownMethod with
  | none => exact Run.framed_pure rfl
  | some m => exact framed_call fun hc q hq => hc m hm s q.1 q.2 hq

end Requests

end Iosu.Entity
