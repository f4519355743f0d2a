/-
  Iosu.Bsp.Footprint — the client's bytes that an IOCTL reads and writes.

  The loop looks at neither length of the message (`arg2`, `arg4`). What bounds it is
  the size that the request itself declares, `n`: it reads the header and the `n` bytes
  behind it, and writes `n` bytes at `outPtr`. `Alike` relates two turns whose memories
  agree there; every case keeps it (`ioctlCases_alike`), so no turn depends on a byte
  elsewhere or changes one (`ioctl_footprint`). The cases fall through and each reads
  the header again, so the bytes at `outPtr` must not be part of it.
-/

import Iosu.Bsp.Dispatch
import Iosu.Entity.Footprint

namespace Iosu.Bsp

open Iosu.Lib Iosu.Lib.Switch Iosu.Libc Iosu.Entity Iosu.Ios

variable {ε : Type}

/-! ## The bytes of a request -/

/-- The header's size: `inData` is at this offset. -/
def headerSize : Nat := 0x48

namespace IoctlArgs

variable (args : IoctlArgs)

/-- The bytes of a request that declares the size `n`. -/
def Reaches (n : Nat) (a : U32) : Prop :=
  Mem.InWindow args.inPtr (headerSize + n) a ∨ Mem.InWindow args.outPtr n a

/-- The bytes written at `outPtr` are not part of the header. -/
def HeaderApart (n : Nat) : Prop := ∀ a, Mem.InWindow args.inPtr headerSize a → ¬ Mem.InWindow args.outPtr n a

variable {args} {m m' : Mem}

/-- The fields of a header. -/
structure SameHeader (args : IoctlArgs) (m m' : Mem) : Prop where
  entityName : args.entityName m = args.entityName m'
  inst : args.inst m = args.inst m'
  attributeName : args.attributeName m = args.attributeName m'
  size : args.size m = args.size m'

theorem sameHeader (h : ∀ a, Mem.InWindow args.inPtr headerSize a → m a = m' a) : SameHeader args m m' := by
  have hview : Buf.AgreeBelow headerSize (m.view args.inPtr) (m'.view args.inPtr) := Mem.view_agree h
  refine ⟨?_, ?_, ?_, ?_⟩
  · exact hview.bytes (by decide)
  · exact congrArg bswap32 (hview.load32 (by decide))
  · exact hview.bytes (by decide)
  · exact congrArg bswap32 (hview.load32 (by decide))

end IoctlArgs

/-! ## Two turns -/

/-- Two states of the switch, begun with the memories `m` and `m'`: the same but for the
    bytes out of reach, and with no byte changed but at `outPtr`. -/
structure Alike (args : IoctlArgs) (n : Nat) (m m' : Mem) (s s' : Ioctl ε) : Prop where
  result : s.result = s'.result
  process : s.process = s'.process
  agree : ∀ a, args.Reaches n a → s.mem a = s'.mem a
  frame : ∀ a, ¬ Mem.InWindow args.outPtr n a → s.mem a = m a
  frame' : ∀ a, ¬ Mem.InWindow args.outPtr n a → s'.mem a = m' a

namespace Alike

variable {args : IoctlArgs} {n : Nat} {m m' : Mem} {s s' : Ioctl ε}

theorem sameHeader (h : Alike args n m m' s s') : args.SameHeader s.mem s'.mem := by
  refine IoctlArgs.sameHeader fun a ha => h.agree a (Or.inl ?_)
  exact Mem.inWindow_mono ha (Nat.le_add_right _ _)

theorem sizeKept (h : Alike args n m m' s s') (hn : (args.size m).toNat = n) (hapart : args.HeaderApart n) :
    (args.size s'.mem).toNat = n := by
  have hsame : args.SameHeader s.mem m := IoctlArgs.sameHeader fun a ha => h.frame a (hapart a ha)
  rw [← h.sameHeader.size, hsame.size, hn]

theorem inData (h : Alike args n m m' s s') : Buf.AgreeBelow n (args.inData s.mem) (args.inData s'.mem) :=
  (Mem.view_agree fun a ha => h.agree a (Or.inl ha)).drop (Nat.le_refl _)

theorem outData (h : Alike args n m m' s s') : Buf.AgreeBelow n (args.outData s.mem) (args.outData s'.mem) :=
  Mem.view_agree fun a ha => h.agree a (Or.inr ha)

/-- The memory stays. -/
theorem answer (h : Alike args n m m' s s') (r : U32) {p p' : Process ε} (hp : p = p') :
    Alike args n m m' ⟨r, p, s.mem⟩ ⟨r, p', s'.mem⟩ := ⟨rfl, hp, h.agree, h.frame, h.frame'⟩

/-- `n` bytes at `outPtr` change. -/
theorem put (h : Alike args n m m' s s') {b b' : Buf} (hb : Buf.AgreeBelow n b b')
    (hk : ∀ k, n ≤ k → b k = args.outData s.mem k) (hk' : ∀ k, n ≤ k → b' k = args.outData s'.mem k) (r : U32)
    {p p' : Process ε} (hp : p = p') :
    Alike args n m m' ⟨r, p, Mem.put args.outPtr b⟩ ⟨r, p', Mem.put args.outPtr b'⟩ := by
  refine ⟨rfl, hp, ?_, ?_, ?_⟩
  · intro a ha
    by_cases hw : Mem.InWindow args.outPtr n a
    · exact Mem.put_agree hb hw
    · show Mem.put args.outPtr b a = Mem.put args.outPtr b' a
      rw [Mem.put_frame hk hw, Mem.put_frame hk' hw]
      exact h.agree a ha
  · intro a hw
    exact (Mem.put_frame hk hw).trans (h.frame a hw)
  · intro a hw
    exact (Mem.put_frame hk' hw).trans (h.frame' a hw)

theorem storeWord (h : Alike args n m m' s s') (hle : 4 ≤ n) (r v : U32) {p p' : Process ε} (hp : p = p') :
    Alike args n m m' ⟨r, p, s.mem.store args.outPtr (Buf.ofU32 v)⟩ ⟨r, p', s'.mem.store args.outPtr (Buf.ofU32 v)⟩ := by
  have hfill := filled_store h.outData (Buf.ofU32 v) hle r p
  exact h.put hfill.agree hfill.frame hfill.frame' r hp

/-- What a Query or a Read left in its buffer. -/
theorem fill (h : Alike args n m m' s s') {y y' : BspRval × Buf × Process ε}
    (hy : Filled n (args.outData s.mem) (args.outData s'.mem) y y') :
    Alike args n m m' ⟨y.1, y.2.2, Mem.put args.outPtr y.2.1⟩ ⟨y'.1, y'.2.2, Mem.put args.outPtr y'.2.1⟩ := by
  rw [← hy.ret]
  exact h.put hy.agree hy.frame hy.frame' y.1 hy.state

end Alike

/-! ## The cases -/

section Cases

variable [DataMem (Process ε)] {fuel : Nat} {x : Ext ε} {es : List (BspEntity (Process ε))} {args : IoctlArgs} {n : Nat}
  {m m' : Mem}

omit [DataMem (Process ε)] in
theorem rel_start {α β : Type} {R : α → β → Prop} {p : Prog (Process ε) α} {p' : Prog (Process ε) β} (h : Run.Rel R p p')
    (hd : Handler) (c : Option U32) : Run.Rel R (start hd c p) (start hd c p') := by
  unfold Run.Rel
  rw [start_res, start_res]
  exact h

omit [DataMem (Process ε)] in
/-- A case with a size check, by what it does for a size of 4. -/
theorem sizedCase_alike (hn : (args.size m).toNat = n) (hapart : args.HeaderApart n) {body : Ioctl ε → Turn ε (Ioctl ε)}
    (hb : 4 ≤ n → ∀ s s', Alike args n m m' s s' → Run.Rel (Alike args n m m') (body s) (body s')) (s s' : Ioctl ε)
    (h : Alike args n m m' s s') : Run.Rel (Alike args n m m') (sizedCase args body s) (sizedCase args body s') := by
  by_cases h4 : args.size s'.mem = 4
  · have h4' : args.size s.mem = 4 := h.sameHeader.size.trans h4
    have hle : 4 ≤ n := by
      rw [← h.sizeKept hn hapart, h4]
      decide
    rw [sizedCase_accept h4, sizedCase_accept h4']
    exact hb hle s s' h
  · have h4' : args.size s.mem ≠ 4 := fun he => h4 (h.sameHeader.size.symm.trans he)
    rw [sizedCase_reject h4, sizedCase_reject h4']
    exact ⟨rfl, h.process, h.agree, h.frame, h.frame'⟩

omit [DataMem (Process ε)] in
/-- A case that stores the word it got. -/
theorem wordCase_alike {s s' : Ioctl ε} (h : Alike args n m m' s s') (hle : 4 ≤ n) (hd : Handler) (c : Option U32)
    (p : Prog (Process ε) (BspRval × U32)) (b : Process ε) :
    Run.Rel (Alike args n m m') (start hd c p >>= fun y => pure ⟨y.1, b, s.mem.store args.outPtr (Buf.ofU32 y.2)⟩)
      (start hd c p >>= fun y => pure ⟨y.1, b, s'.mem.store args.outPtr (Buf.ofU32 y.2)⟩) := by
  refine (rel_start (Run.rel_refl (R := Eq) (fun _ => rfl) p) _ _).bind fun y y' hy => ?_
  subst hy
  exact Run.rel_pure (h.storeWord hle y.1 y.2 rfl)

omit [DataMem (Process ε)] in
/-- One that leaves what its method put into the buffer. -/
theorem fillCase_alike {s s' : Ioctl ε} (h : Alike args n m m' s s') (hn : (args.size m).toNat = n)
    (hapart : args.HeaderApart n) {p p' : Prog (Process ε) (BspRval × Buf × Process ε)} (hd : Handler) (c : Option U32)
    (hrel : Buf.AgreeBelow (args.size s'.mem).toNat (args.outData s.mem) (args.outData s'.mem) →
      Run.Rel (Filled (args.size s'.mem).toNat (args.outData s.mem) (args.outData s'.mem)) p p') :
    Run.Rel (Alike args n m m') (start hd c p >>= fun y => pure ⟨y.1, y.2.2, Mem.put args.outPtr y.2.1⟩)
      (start hd c p' >>= fun y => pure ⟨y.1, y.2.2, Mem.put args.outPtr y.2.1⟩) := by
  have hout := h.outData
  rw [← h.sizeKept hn hapart] at hout
  refine (rel_start (hrel hout) _ _).bind fun y y' hy => ?_
  rw [h.sizeKept hn hapart] at hy
  exact Run.rel_pure (h.fill hy)

omit [DataMem (Process ε)] in
/-- One that leaves the memory. -/
theorem answerCase_alike {s s' : Ioctl ε} (h : Alike args n m m' s s') {p p' : Prog (Process ε) (BspRval × Process ε)}
    (hd : Handler) (c : Option U32) (hrel : Run.Rel Eq p p') :
    Run.Rel (Alike args n m m') (start hd c p >>= fun y => pure ⟨y.1, y.2, s.mem⟩)
      (start hd c p' >>= fun y => pure ⟨y.1, y.2, s'.mem⟩) := by
  refine (rel_start hrel _ _).bind fun y y' hy => ?_
  subst hy
  exact Run.rel_pure (h.answer y.1 rfl)

theorem ioctlCases_alike (hk : TablesKeep es) (hn : (args.size m).toNat = n) (hapart : args.HeaderApart n)
    {c : Case U32 (Event (Process ε)) Fault (Ioctl ε)} (hc : c ∈ ioctlCases fuel x es args) (s s' : Ioctl ε)
    (h : Alike args n m m' s s') : Run.Rel (Alike args n m m') (c.body s) (c.body s') := by
  have hin := h.inData
  rw [← h.sizeKept hn hapart] at hin
  simp only [ioctlCases, List.mem_cons, List.not_mem_nil, or_false] at hc
  rcases hc with rfl | rfl | rfl | rfl | rfl | rfl | rfl | rfl | rfl
  · refine sizedCase_alike hn hapart (fun hle s s' h => ?_) s s' h
    dsimp only
    rw [h.sameHeader.entityName]
    refine (rel_start (Run.rel_refl (R := Eq) (fun _ => rfl) _) _ _).bind fun y y' hy => ?_
    subst hy
    obtain ⟨ret, version⟩ := y
    cases version with
    | none => exact Run.rel_pure (h.answer ret h.process)
    | some version => exact Run.rel_pure (h.storeWord hle ret version h.process)
  · refine sizedCase_alike hn hapart (fun hle s s' h => ?_) s s' h
    dsimp only
    rw [h.process]
    refine (rel_start (Run.rel_refl (R := Eq) (fun _ => rfl) _) _ _).bind fun y y' hy => ?_
    subst hy
    exact Run.rel_pure (h.storeWord hle y.1.1 y.1.2 rfl)
  · refine sizedCase_alike hn hapart (fun hle s s' h => ?_) s s' h
    rw [h.process]
    exact wordCase_alike h hle _ _ _ _
  · refine fillCase_alike h hn hapart _ _ fun hout => ?_
    rw [h.sameHeader.entityName, h.sameHeader.inst, h.sameHeader.attributeName, h.sameHeader.size, h.process]
    exact bspMethodQuery_rel hk hout
  · refine fillCase_alike h hn hapart _ _ fun hout => ?_
    rw [h.sameHeader.entityName, h.sameHeader.inst, h.sameHeader.attributeName, h.sameHeader.size, h.process]
    exact bspMethodRead_rel hk hout
  · refine answerCase_alike h _ _ ?_
    rw [h.sameHeader.entityName, h.sameHeader.inst, h.sameHeader.attributeName, h.sameHeader.size, h.process]
    exact bspMethodWrite_rel hk hin
  · refine answerCase_alike h _ _ ?_
    rw [h.sameHeader.entityName, h.sameHeader.inst, h.sameHeader.attributeName, h.sameHeader.size, h.process]
    exact bspMethodInit_rel hk hin fuel
  · refine answerCase_alike h _ _ ?_
    rw [h.sameHeader.entityName, h.sameHeader.inst, h.sameHeader.attributeName, h.process]
    exact Run.rel_refl (fun _ => rfl) _
  · refine sizedCase_alike hn hapart (fun hle s s' h => ?_) s s' h
    rw [h.process]
    exact wordCase_alike h hle _ _ _ _

/-- The declared size is not the one that the command asks for: 4, or the `dataSize` of
    the attribute it finds. -/
def SizeUnfit (es : List (BspEntity (Process ε))) (args : IoctlArgs) (mem : Mem) (cmd : U32) : Prop :=
  ((cmd = BSP_IOCTL_GET_ENTITY_VERSION ∨ cmd = BSP_IOCTL_GET_HARDWARE_VERSION ∨ cmd = BSP_IOCTL_GET_CONSOLE_MASK ∨
      cmd = BSP_IOCTL_GET_CONSOLE_TYPE) ∧ args.size mem ≠ 4) ∨
    ((cmd = BSP_IOCTL_METHOD_QUERY ∨ cmd = BSP_IOCTL_METHOD_READ ∨ cmd = BSP_IOCTL_METHOD_WRITE) ∧
      ∃ pE a, bspFindAttribute es (args.entityName mem) (args.inst mem) (args.attributeName mem) args.permissions cmd =
        .ok (BSP_RVAL_OK, pE, some a) ∧ args.size mem ≠ a.dataSize)

omit [DataMem (Process ε)] in
theorem start_pure {α : Type} (h : Handler) (c : Option U32) (a : α) :
    start h c (pure a : Prog (Process ε) α) = ⟨[.handler h c], .ok a⟩ := rfl

/-- The command's own case refuses such a size and calls nothing. -/
theorem ownCase_refuses {cmd : U32} {s : Ioctl ε} (h : SizeUnfit es args s.mem cmd) :
    (ownCase fuel x es args cmd s).res = .ok { s with result := BSP_RVAL_SPECIFIED_SIZE_INVALID } ∧
      ∀ c, .call c ∉ (ownCase fuel x es args cmd s).trace := by
  have hsized : ∀ body : Ioctl ε → Turn ε (Ioctl ε), args.size s.mem ≠ 4 →
      (sizedCase args body s).res = .ok { s with result := BSP_RVAL_SPECIFIED_SIZE_INVALID } ∧
        ∀ c, .call c ∉ (sizedCase args body s).trace := by
    intro body h4
    rw [sizedCase_reject h4]
    exact ⟨rfl, fun c hc => absurd hc List.not_mem_nil⟩
  have hkept : Mem.put args.outPtr (args.outData s.mem) = s.mem := Mem.put_view s.mem args.outPtr
  rcases h with ⟨hcmd, h4⟩ | ⟨hcmd, pE, a, hf, hsize⟩
  · rcases hcmd with rfl | rfl | rfl | rfl
    · have hown : ownCase fuel x es args BSP_IOCTL_GET_ENTITY_VERSION s = caseGetEntityVersion es args s := rfl
      rw [hown]
      exact hsized _ h4
    · have hown : ownCase fuel x es args BSP_IOCTL_GET_HARDWARE_VERSION s = caseGetHardwareVersion x args s := rfl
      rw [hown]
      exact hsized _ h4
    · have hown : ownCase fuel x es args BSP_IOCTL_GET_CONSOLE_MASK s = caseGetConsoleMask args s := rfl
      rw [hown]
      exact hsized _ h4
    · have hown : ownCase fuel x es args BSP_IOCTL_GET_CONSOLE_TYPE s = caseGetConsoleType args s := rfl
      rw [hown]
      exact hsized _ h4
  · rcases hcmd with rfl | rfl | rfl
    · have hown : ownCase fuel x es args BSP_IOCTL_METHOD_QUERY s = caseQuery es args s := rfl
      rw [hown]
      unfold caseQuery
      rw [startAs, bspMethodQuery_refuses hf hsize, start_pure, Run.bind_ok _ rfl]
      dsimp only
      rw [hkept]
      exact ⟨rfl, by simp⟩
    · have hown : ownCase fuel x es args BSP_IOCTL_METHOD_READ s = caseRead es args s := rfl
      rw [hown]
      unfold caseRead
      rw [startAs, bspMethodRead_refuses hf hsize, start_pure, Run.bind_ok _ rfl]
      dsimp only
      rw [hkept]
      exact ⟨rfl, by simp⟩
    · have hown : ownCase fuel x es args BSP_IOCTL_METHOD_WRITE s = caseWrite es args s := rfl
      rw [hown]
      unfold caseWrite
      rw [startAs, bspMethodWrite_refuses hf hsize, start_pure, Run.bind_ok _ rfl]
      exact ⟨rfl, by simp⟩

end Cases

/-! ## A turn -/

section Turn

variable [DataMem (Process ε)] {fuel : Nat} {x : Ext ε} {es : List (BspEntity (Process ε))} {srv : Server ε}
  {msg : IOSMessage} {mem mem' : Mem} {fd : Fin 0x20}

/-- The lengths are not looked at. -/
theorem lengths_ignored (hc : bswap32 msg.command = IOS_IOCTL)
    (hs : activeSlot srv.bsp_fdtable msg.fd = .ok (some fd)) (inLen outLen : U32) :
    mainIter fuel x es srv { msg with arg2 := inLen, arg4 := outLen } mem = mainIter fuel x es srv msg mem := by
  refine Eq.trans (mainIter_ioctl ?_ ?_) (Eq.symm (mainIter_ioctl hc hs))
  · exact hc
  · exact hs

theorem turn_alike (hk : TablesKeep es) (hc : bswap32 msg.command = IOS_IOCTL)
    (hs : activeSlot srv.bsp_fdtable msg.fd = .ok (some fd)) {n : Nat} (hn : ((srv.args msg fd).size mem).toNat = n)
    (hapart : (srv.args msg fd).HeaderApart n) (hmem : ∀ a, (srv.args msg fd).Reaches n a → mem a = mem' a) :
    Run.Rel (fun y y' => y.1 = y'.1 ∧ (∀ a, (srv.args msg fd).Reaches n a → y.2 a = y'.2 a) ∧
        ∀ a, ¬ Mem.InWindow (srv.args msg fd).outPtr n a → y.2 a = mem a)
      (mainIter fuel x es srv msg mem) (mainIter fuel x es srv msg mem') := by
  have hstart : Alike (srv.args msg fd) n mem mem' (srv.ioctl mem) (srv.ioctl mem') :=
    ⟨rfl, rfl, hmem, fun _ _ => rfl, fun _ _ => rfl⟩
  have hdflt : ∀ s s' : Ioctl ε, Alike (srv.args msg fd) n mem mem' s s' →
      Run.Rel (Alike (srv.args msg fd) n mem mem') (caseDefault s) (caseDefault s') :=
    fun s s' h => Run.rel_pure (h.answer IOS_ERROR_INVALID h.process)
  rw [mainIter_ioctl hc hs, mainIter_ioctl hc hs]
  refine (Run.rel_refl (R := Eq) (fun _ => rfl) _).bind fun _ _ _ => ?_
  refine (switch_rel hdflt (fun c hmem => ioctlCases_alike hk hn hapart hmem) hstart).bind fun s s' h => ?_
  unfold Run.Rel
  rw [reply_res, reply_res, h.result, h.process]
  exact ⟨rfl, h.agree, h.frame⟩

/-- For every IOCTL of an active session, whatever lengths its message has, with `n` the
    size that its request declares: it depends on no byte of the client but the header,
    the `n` bytes behind it and the `n` at `outPtr`, and changes none but the latter; and
    a size that does not fit is refused by the command's own case, which calls nothing. -/
theorem ioctl_footprint (hk : TablesKeep es) (hc : bswap32 msg.command = IOS_IOCTL) (hfd : msg.fd = (fd.val : Int))
    (hactive : (srv.bsp_fdtable.get fd).active = true) {n : Nat} (hn : ((srv.args msg fd).size mem).toNat = n)
    (hapart : (srv.args msg fd).HeaderApart n) :
    (∀ inLen outLen, mainIter fuel x es srv { msg with arg2 := inLen, arg4 := outLen } mem =
      mainIter fuel x es srv msg mem) ∧
    (∀ mem', (∀ a, (srv.args msg fd).Reaches n a → mem a = mem' a) →
      Run.Rel (fun y y' => y.1 = y'.1 ∧ ∀ a, (srv.args msg fd).Reaches n a → y.2 a = y'.2 a)
        (mainIter fuel x es srv msg mem) (mainIter fuel x es srv msg mem')) ∧
    (∀ srv' mem', (mainIter fuel x es srv msg mem).res = .ok (srv', mem') →
      ∀ a, ¬ Mem.InWindow (srv.args msg fd).outPtr n a → mem' a = mem a) ∧
    (SizeUnfit es (srv.args msg fd) mem (bswap32 msg.arg0) →
      (ownCase fuel x es (srv.args msg fd) (bswap32 msg.arg0) (srv.ioctl mem)).res =
        .ok { srv.ioctl mem with result := BSP_RVAL_SPECIFIED_SIZE_INVALID } ∧
      ∀ c, .call c ∉ (ownCase fuel x es (srv.args msg fd) (bswap32 msg.arg0) (srv.ioctl mem)).trace) := by
  have hs : activeSlot srv.bsp_fdtable msg.fd = .ok (some fd) := activeSlot_active hfd hactive
  refine ⟨?_, ?_, ?_, ?_⟩
  · exact lengths_ignored hc hs
  · intro mem' hmem
    refine Res.Rel.imp (turn_alike hk hc hs hn hapart hmem) fun y y' _ _ h => ?_
    exact ⟨h.1, h.2.1⟩
  · intro srv' mem' hres a ha
    have hself : Run.Rel _ (mainIter fuel x es srv msg mem) (mainIter fuel x es srv msg mem) :=
      turn_alike hk hc hs hn hapart fun _ _ => rfl
    unfold Run.Rel at hself
    rw [hres] at hself
    exact hself.2.2 a ha
  · intro hunfit
    exact ownCase_refuses (s := srv.ioctl mem) hunfit

end Turn

section Requests

variable [DataMem (Process ε)]

/-- The turn keeps to the lengths of its message: `arg2` bytes at `inPtr` and `arg4` at
    `outPtr`. -/
structure KeepsToLengths (x : Ext ε) (es : List (BspEntity (Process ε))) (srv : Server ε) (msg : IOSMessage) (mem : Mem)
    (args : IoctlArgs) : Prop where
  reads : ∀ fuel mem', (∀ a, Mem.InWindow args.inPtr (bswap32 msg.arg2).toNat a ∨
      Mem.InWindow args.outPtr (bswap32 msg.arg4).toNat a → mem a = mem' a) →
    Run.Rel (fun y y' => y.1 = y'.1) (mainIter fuel x es srv msg mem) (mainIter fuel x es srv msg mem')
  writes : ∀ fuel srv' mem', (mainIter fuel x es srv msg mem).res = .ok (srv', mem') →
    ∀ a, ¬ Mem.InWindow args.outPtr (bswap32 msg.arg4).toNat a → mem' a = mem a

/-- GET_CONSOLE_TYPE with lengths of 0. -/
def noLengthsMsg : IOSMessage := { consoleTypeMsg with arg2 := 0, arg4 := 0 }

/-- It writes to `outPtr` all the same. -/
theorem noLengthsMsg_writes :
    ¬ KeepsToLengths idleExt [] (oneSession BSP_PERMISSIONS_ALL) noLengthsMsg (sizeMem 4)
      ((oneSession BSP_PERMISSIONS_ALL).args noLengthsMsg 0) := by
  intro h
  have hkept := h.writes 0 _ _ rfl 0x100 (by decide)
  exact absurd hkept (by decide)

/-- An attribute with one byte of data, that reads as 7. -/
def levelAttribute : BspAttribute (Process Unit) where
  pName := some (cstr "A")
  permissions := BSP_PERMISSIONS_ALL
  dataSize := 1
  readMethod := some fun _ _ b p => .ok (BSP_RVAL_OK, b.store [7], p)

def levelEntity : BspEntity (Process Unit) := { refusingEntity with pAttributes := [[levelAttribute, { pName := none }]] }

theorem levelEntity_keeps : TablesKeep [levelEntity] := by
  intro e he t ht a ha
  rw [List.mem_singleton.mp he] at ht
  rw [List.mem_singleton.mp ht] at ha
  rcases List.mem_cons.mp ha with rfl | ha
  · refine ⟨?_, ?_, ?_, ?_⟩
    · intro m hm inst b b' p h
      cases hm
      exact filled_store h [7] (by decide) BSP_RVAL_OK p
    · intro m hm
      cases hm
    · intro m hm
      cases hm
    · intro m hm
      cases hm
  · rw [List.mem_singleton.mp ha]
    refine ⟨?_, ?_, ?_, ?_⟩ <;> (intro m hm; cases hm)

/-- A Read of one byte of it. -/
def readMsg : IOSMessage := { consoleTypeMsg with arg0 := bswap32 BSP_IOCTL_METHOD_READ }

def levelMem : Mem := fun a => if a = 0x44 then 1 else shutdownMem a

/-- It fills in the byte at `outPtr` and leaves the next one. -/
theorem ioctl_footprint_readMsg :
    ∃ y, (mainIter 2 idleExt [levelEntity] (oneSession BSP_PERMISSIONS_ALL) readMsg levelMem).res = .ok y ∧
      y.2 0x100 = 7 ∧ y.2 0x101 = levelMem 0x101 := by
  have hapart : ((oneSession BSP_PERMISSIONS_ALL).args readMsg 0).HeaderApart 1 := by
    intro a hin hout
    have hin' : (a - 0).toNat < 0x48 := hin
    have hout' : (a - 0x100).toNat < 1 := hout
    bv_omega
  have hturn : ∃ y, (mainIter 2 idleExt [levelEntity] (oneSession BSP_PERMISSIONS_ALL) readMsg levelMem).res = .ok y :=
    ⟨_, rfl⟩
  obtain ⟨y, hy⟩ := hturn
  have hkept := (ioctl_footprint levelEntity_keeps rfl rfl rfl (by decide) hapart).2.2.1 y.1 y.2 hy 0x101 (by decide)
  have hread : (mainIter 2 idleExt [levelEntity] (oneSession BSP_PERMISSIONS_ALL) readMsg levelMem).res.map
      (fun y => y.2 0x100) = .ok 7 := rfl
  rw [hy] at hread
  exact ⟨y, hy, Res.ok.inj hread, hkept⟩

end Requests

end Iosu.Bsp
