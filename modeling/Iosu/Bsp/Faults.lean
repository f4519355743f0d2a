/-
  Iosu.Bsp.Faults — what can go wrong inside a handler.

  A handler has no access to the fd table, so whatever fault it runs into, it is not
  an index of that table (`OffTable`). `switch_offTable` says so of every IOCTL that
  comes to the switch: what is left of the loop is its own check of the fd.
-/

import Iosu.Bsp.Dispatch
import Iosu.Entity.NullSafety

namespace Iosu.Bsp

open Iosu.Lib Iosu.Lib.Switch Iosu.Libc Iosu.Entity Iosu.Ios Iosu.Eeprom Iosu.Libraries

variable {ε : Type}

/-- Not an index of `bsp_fdtable`. -/
def OffTable : Fault → Prop
  | .fdIndex _ => False
  | _ => True

/-! ## The hardware version -/

/-- A function of the process that indexes the table nowhere. -/
def Contained {α : Type} (m : BspM ε α) : Prop := ∀ b, (m b).FaultsIn OffTable

section Contained

variable {α β : Type}

theorem contained_pure (a : α) : Contained (pure a : BspM ε α) := fun b => Res.faultsIn_ok OffTable (a, b)

theorem Contained.bind {m : BspM ε α} {k : α → BspM ε β} (hm : Contained m) (hk : ∀ a, Contained (k a)) :
    Contained (m >>= k) := fun b => (hm b).bind fun p => hk p.1 p.2

theorem contained_get : Contained (get : BspM ε (Process ε)) := fun b => Res.faultsIn_ok OffTable (b, b)

theorem contained_modify (f : Process ε → Process ε) : Contained (modify f : BspM ε PUnit) :=
  fun b => Res.faultsIn_ok OffTable (PUnit.unit, f b)

theorem contained_callExt (f : ε → α × ε) : Contained (callExt f : BspM ε α) := fun _ => Res.faultsIn_ok OffTable _

theorem contained_readReg (reg : ε → U32) : Contained (readReg reg : BspM ε U32) := fun b =>
  Res.faultsIn_ok OffTable (reg b.drv.env, b)

theorem contained_callDrv {f : Drv ε → Res Fault (α × Drv ε)} (hf : ∀ d, (f d).FaultsIn OffTable) :
    Contained (callDrv f) := fun b => (hf b.drv).bind fun _ => Res.faultsIn_ok OffTable _

theorem onEeprom_faultsIn (ndx : Int) (refused : α) (m : DrvM ε α) (d : Drv ε) :
    (onEeprom ndx refused m d).FaultsIn OffTable := by
  unfold onEeprom
  split
  · exact Res.faultsIn_ok OffTable _
  · split
    · exact Res.faultsIn_ok OffTable _
    · exact Res.faultsIn_fault trivial

theorem contained_frameIndex : Contained (raise .frameIndex : BspM ε α) := fun _ => Res.faultsIn_fault trivial

end Contained

section Handlers

variable (x : Ext ε)

theorem log_open_contained (name : CStr) (unk1 unk2 : U32) : Contained (log_open x name unk1 unk2) := by
  unfold log_open
  refine contained_get.bind fun b => ?_
  dsimp only
  split
  on_goal 1 => refine (contained_callExt _).bind fun _ => (contained_modify _).bind fun _ => ?_
  -- from here on the two paths are one
  all_goals
    refine contained_get.bind fun _ => ?_
    split
    · exact contained_pure _
    refine (contained_callExt _).bind fun err => ?_
    split
    · exact contained_pure _
    refine contained_get.bind fun _ => ?_
    split
    · exact (contained_callExt _).bind fun _ => contained_pure _
    split
    · exact (contained_modify _).bind fun _ => (contained_callExt _).bind fun _ => contained_pure _
    · exact contained_frameIndex

theorem bcInit_contained : Contained (bcInit x) := by
  unfold bcInit
  refine (log_open_contained x _ _ _).bind fun _ => (contained_modify _).bind fun _ => contained_get.bind fun _ => ?_
  split
  · exact contained_pure _
  refine (contained_callDrv (onEeprom_faultsIn _ _ _)).bind fun err => ?_
  split
  · exact contained_pure _
  refine (contained_callDrv (onEeprom_faultsIn _ _ _)).bind fun err => ?_
  dsimp only
  split
  · exact (contained_modify _).bind fun _ => contained_pure _
  · exact contained_pure _

/-- The loop guards each of its stores. -/
theorem readWords_contained (n i : Nat) (data : Vector U16 0x24) : Contained (readWords x n i data) := by
  induction n generalizing i data with
  | zero => exact contained_pure _
  | succ n ih =>
    unfold readWords
    split
    · refine (contained_callDrv (onEeprom_faultsIn _ _ _)).bind fun p => ?_
      obtain ⟨ret, value⟩ := p
      dsimp only
      split
      · exact contained_pure _
      · exact ih _ _
    · exact contained_frameIndex

theorem bcGet_contained (config : BcConfig) : Contained (bcGet x config) := by
  unfold bcGet
  refine (contained_callDrv (onEeprom_faultsIn _ _ _)).bind fun p => ?_
  obtain ⟨err, size⟩ := p
  dsimp only
  split
  · exact contained_pure _
  split
  · exact contained_pure _
  refine (readWords_contained x _ _ _).bind fun p => ?_
  obtain ⟨err, data⟩ := p
  dsimp only
  split
  · exact contained_pure _
  split
  · exact contained_frameIndex.bind fun _ => (contained_modify _).bind fun _ => by split <;> exact contained_pure _
  · exact (contained_modify _).bind fun _ => by split <;> exact contained_pure _

theorem bspReadBoardConfig_contained (config : BcConfig) : Contained (bspReadBoardConfig x config) := by
  unfold bspReadBoardConfig
  refine (bcInit_contained x).bind fun err => ?_
  split
  · exact contained_pure _
  refine (bcGet_contained x _).bind fun p => ?_
  obtain ⟨ret, value⟩ := p
  dsimp only
  split
  · exact contained_pure _
  · exact contained_pure _

theorem bspPPCGetPVR_contained (pvr : BspPpcPvr) : Contained (bspPPCGetPVR x pvr) := by
  unfold bspPPCGetPVR
  refine contained_get.bind fun _ => (contained_callExt _).bind fun p => ?_
  obtain ⟨ret, value⟩ := p
  dsimp only
  split
  · exact contained_pure _
  refine (contained_callExt _).bind fun p => ?_
  obtain ⟨ret, value⟩ := p
  dsimp only
  split
  · exact contained_pure _
  · exact contained_pure _

theorem determineWood_contained (fullCheck : Bool) : Contained (determineWoodBasedHardwareVersion x fullCheck) := by
  unfold determineWoodBasedHardwareVersion
  refine (contained_readReg _).bind fun _ => ?_
  dsimp only
  split
  · exact contained_pure _
  split
  · exact contained_pure _
  split
  · split
    · exact contained_pure _
    refine (contained_callExt _).bind fun p => ?_
    obtain ⟨ret, value⟩ := p
    dsimp only
    split
    · exact contained_pure _
    split
    · exact contained_pure _
    refine contained_get.bind fun _ => (bspPPCGetPVR_contained x _).bind fun p => ?_
    obtain ⟨ret, value⟩ := p
    dsimp only
    refine (contained_modify _).bind fun _ => ?_
    split
    · exact contained_pure _
    · exact contained_pure _
  split
  · exact contained_pure _
  split
  · exact contained_pure _
  · exact contained_pure _

theorem determineLatte_contained (version : U32) : Contained (determineLatteBasedHardwareVersion x version) := by
  unfold determineLatteBasedHardwareVersion
  refine (contained_readReg _).bind fun _ => ?_
  split
  · exact contained_pure _
  · exact contained_pure _

theorem bspMethodGetHardwareVersion_contained : Contained (bspMethodGetHardwareVersion x) := by
  unfold bspMethodGetHardwareVersion
  refine contained_get.bind fun _ => ?_
  dsimp only
  split
  · exact contained_pure _
  refine (determineWood_contained x _).bind fun p => ?_
  obtain ⟨ret, value⟩ := p
  dsimp only
  split
  · exact contained_pure _
  split
  · refine (determineLatte_contained x _).bind fun p => ?_
    obtain ⟨ret, value⟩ := p
    dsimp only
    split
    · exact (contained_modify _).bind fun _ => contained_pure _
    refine contained_get.bind fun _ => (bspReadBoardConfig_contained x _).bind fun p => ?_
    obtain ⟨ret, value⟩ := p
    dsimp only
    exact (contained_modify _).bind fun _ => (contained_modify _).bind fun _ => contained_pure _
  · exact (contained_modify _).bind fun _ => contained_pure _

end Handlers

/-! ## The entity requests -/

section Requests

variable {σ : Type}

theorem request_faultsIn [DataMem σ] (fuel : Nat) (es : List (BspEntity σ)) (r : Request) (s : σ) :
    (r.run fuel es s).FaultsIn OffTable := by
  intro f hf
  rcases Request.run_fault hf with ⟨rfl, -⟩ | ⟨rfl, -⟩ | rfl | rfl | ⟨f', rfl⟩ <;> trivial

/-- Read and Query hand out their buffer as well. -/
theorem faultsIn_of_map {α β : Type} {P : Fault → Prop} {p : Prog σ α} {k : α → Prog σ β} (h : (p >>= k).FaultsIn P) :
    p.FaultsIn P := fun f hf => h f (Run.bind_res_fault.mpr (Or.inl hf))

theorem bspGetEntityVersion_faultsIn (es : List (BspEntity σ)) (en : CStr) :
    (bspGetEntityVersion es en).FaultsIn OffTable := by
  unfold bspGetEntityVersion
  rcases bspFindEntity es en with ⟨ret, pE⟩
  dsimp only
  split
  · exact Run.faultsIn_pure OffTable _
  · cases pE with
    | some e => exact Run.faultsIn_pure OffTable _
    | none => exact Run.faultsIn_fault trivial

end Requests

/-! ## The switch -/

section Switch

variable [DataMem (Process ε)] (fuel : Nat) (x : Ext ε) (es : List (BspEntity (Process ε))) (args : IoctlArgs)

omit [DataMem (Process ε)] in
theorem start_faultsIn {α : Type} {h : Handler} {c : Option U32} {p : Prog (Process ε) α} (hp : p.FaultsIn OffTable) :
    (start h c p).FaultsIn OffTable := by
  intro f hf
  rw [start_res] at hf
  exact hp f hf

theorem ioctlCases_faultsIn {c : Case U32 (Event (Process ε)) Fault (Ioctl ε)} (hc : c ∈ ioctlCases fuel x es args)
    (s : Ioctl ε) : (c.body s).FaultsIn OffTable := by
  have hsized : ∀ body : Ioctl ε → Turn ε (Ioctl ε), (∀ s, (body s).FaultsIn OffTable) →
      (sizedCase args body s).FaultsIn OffTable := by
    intro body hb
    unfold sizedCase
    split
    · exact Run.faultsIn_pure OffTable _
    · exact hb s
  simp only [ioctlCases, List.mem_cons, List.not_mem_nil, or_false] at hc
  rcases hc with rfl | rfl | rfl | rfl | rfl | rfl | rfl | rfl | rfl
  · refine hsized _ fun s => (start_faultsIn (bspGetEntityVersion_faultsIn es _)).bind fun p => ?_
    obtain ⟨ret, version⟩ := p
    cases version with
    | none => exact Run.faultsIn_pure OffTable _
    | some version => exact Run.faultsIn_pure OffTable _
  · exact hsized _ fun s => (start_faultsIn (Run.faultsIn_lift (bspMethodGetHardwareVersion_contained x _))).bind
      fun _ => Run.faultsIn_pure OffTable _
  · exact hsized _ fun s => (start_faultsIn (Run.faultsIn_pure OffTable _)).bind fun _ => Run.faultsIn_pure OffTable _
  · have hq := request_faultsIn fuel es ⟨.query (args.outData s.mem), args.entityName s.mem, args.inst s.mem,
      args.attributeName s.mem, args.size s.mem, args.permissions⟩ s.process
    exact (start_faultsIn (faultsIn_of_map hq)).bind fun _ => Run.faultsIn_pure OffTable _
  · have hr := request_faultsIn fuel es ⟨.read (args.outData s.mem), args.entityName s.mem, args.inst s.mem,
      args.attributeName s.mem, args.size s.mem, args.permissions⟩ s.process
    exact (start_faultsIn (faultsIn_of_map hr)).bind fun _ => Run.faultsIn_pure OffTable _
  · have hw := request_faultsIn fuel es ⟨.write (args.inData s.mem), args.entityName s.mem, args.inst s.mem,
      args.attributeName s.mem, args.size s.mem, args.permissions⟩ s.process
    exact (start_faultsIn hw).bind fun _ => Run.faultsIn_pure OffTable _
  · have hi := request_faultsIn fuel es ⟨.init (some (args.inData s.mem)), args.entityName s.mem, args.inst s.mem,
      args.attributeName s.mem, args.size s.mem, args.permissions⟩ s.process
    exact (start_faultsIn hi).bind fun _ => Run.faultsIn_pure OffTable _
  · have hd := request_faultsIn fuel es ⟨.shutdown, args.entityName s.mem, args.inst s.mem, args.attributeName s.mem,
      args.size s.mem, args.permissions⟩ s.process
    exact (start_faultsIn hd).bind fun _ => Run.faultsIn_pure OffTable _
  · exact hsized _ fun s => (start_faultsIn (Run.faultsIn_pure OffTable _)).bind fun _ => Run.faultsIn_pure OffTable _

/-- Whatever goes wrong in the switch, it is no index of the fd table. -/
theorem switch_offTable (cmd : U32) (s : Ioctl ε) :
    (switch cmd (ioctlCases fuel x es args) caseDefault s).FaultsIn OffTable :=
  switch_faultsIn (fun _ => Run.faultsIn_pure OffTable _) (fun _ hc s => ioctlCases_faultsIn fuel x es args hc s) s

end Switch

end Iosu.Bsp
