/-
  Iosu.Entity.Sorted — `bspFindEntity` on the sorted entity list.

  The list is kept in ascending order of its names, so the first entity after the query
  ends the search rightly, and an entity that agrees with it is reached
  (`Sorted.names`). A query after every entity is not turned away: the loop ends, and
  the answer is BSP_RVAL_OK with no entity (`findsNamed_iff`).
-/

import Iosu.Libc.StringOrder
import Iosu.Entity.Find

namespace Iosu.Entity

open Iosu.Lib Iosu.Libc

variable {σ : Type}

/-- Strictly ascending by name. -/
def Sorted (es : List (BspEntity σ)) : Prop := es.Pairwise fun e e' => strncmp e.pName e'.pName 32 < 0

/-- An entity that agrees with the query is found; where there is none, the query is not
    known. -/
structure FindsNamed (es : List (BspEntity σ)) (entityName : CStr) : Prop where
  found : ∀ e ∈ es, strncmp entityName e.pName 32 = 0 → bspFindEntity es entityName = (BSP_RVAL_OK, some e)
  unknown : (∀ e ∈ es, strncmp entityName e.pName 32 ≠ 0) → bspFindEntity es entityName = (BSP_RVAL_UNKNOWN_ENTITY, none)

/-- In a sorted list the search reaches what agrees with the query. -/
theorem Sorted.names {es : List (BspEntity σ)} (hs : Sorted es) {n : CStr} {e : BspEntity σ} (he : e ∈ es)
    (hn : strncmp n e.pName 32 = 0) : Names es n e := by
  obtain ⟨pre, post, rfl⟩ := List.append_of_mem he
  refine ⟨pre, post, rfl, fun e' he' => ?_, hn⟩
  have hnames : ((pre.map BspEntity.pName) ++ e.pName :: post.map BspEntity.pName).Pairwise fun x y => strncmp x y 32 < 0 := by
    rw [← List.map_cons, ← List.map_append]
    exact List.pairwise_map.mpr hs
  exact ascending_before hnames hn (List.mem_map_of_mem he')

/-- On a sorted list a lookup answers as it should exactly when the query does not come
    after all there is. -/
theorem findsNamed_iff {es : List (BspEntity σ)} (hs : Sorted es) (n : CStr) : FindsNamed es n ↔ ¬ RunsOff es n := by
  refine ⟨fun h hoff => ?_, fun h => ⟨fun e he hn => ?_, fun hnone => ?_⟩⟩
  · have hunknown := h.unknown fun e he => by
      have := hoff.2 e he
      omega
    rw [(bspFindEntity_eq_null es n).mpr hoff] at hunknown
    exact absurd (Prod.mk.inj hunknown).1.symm unknown_ne_ok
  · exact (bspFindEntity_eq_some es n e).mpr (hs.names he hn)
  · rcases bspFindEntity_cases es n with ⟨e, he, hn, -⟩ | ⟨hr, -⟩ | ⟨-, hoff⟩
    · exact absurd hn (hnone e he)
    · exact hr
    · exact absurd hoff h

/-- The EE entity's name, and one behind it. -/
def twoEntities : List (BspEntity Unit) :=
  [⟨cstr "EE", 1, 0x100, BSP_EO_FLAT_INSTANCES, []⟩, ⟨cstr "SI", 1, 1, BSP_EO_NONE, []⟩]

theorem twoEntities_sorted : Sorted twoEntities := by
  unfold Sorted twoEntities
  simp only [List.pairwise_cons, List.mem_singleton, List.not_mem_nil, false_imp_iff, implies_true, and_true,
    List.Pairwise.nil, forall_eq]
  decide

/-- Between the two, nothing is found; "EE" is. -/
theorem twoEntities_find : FindsNamed twoEntities (cstr "PPC") ∧ FindsNamed twoEntities (cstr "EE") :=
  ⟨(findsNamed_iff twoEntities_sorted (cstr "PPC")).mpr (by decide),
    (findsNamed_iff twoEntities_sorted (cstr "EE")).mpr (by decide)⟩

/-- "WIFI" comes after both, and is answered with BSP_RVAL_OK. -/
theorem twoEntities_runOff : Sorted twoEntities ∧ ¬ FindsNamed twoEntities (cstr "WIFI") := by
  refine ⟨twoEntities_sorted, fun h => ?_⟩
  have hunknown := congrArg Prod.fst (h.unknown (by decide))
  exact absurd hunknown (by decide)

end Iosu.Entity
