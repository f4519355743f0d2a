/-
  Iosu.Libc.StringOrder — `strncmp` as an order on strings.

  The sign of what `strncmp` answers compares the first `n` bytes, up to a terminator,
  byte by byte: it turns with its arguments (`strncmp_symm`) and is transitive
  (`strncmp_lt_of_lt_of_le`). A list of strings that ascends can be searched from its
  start, and left at the first one that comes after what is looked for
  (`ascending_before`).
-/

import Iosu.Libc.Strings

namespace Iosu.Libc

open Iosu.Lib

variable {a b c : CStr} {n : Nat}

theorem strncmp_succ (a b : CStr) (n : Nat) :
    strncmp a b (n + 1) = if first a ≠ 0 ∧ first a = first b then strncmp a.tail b.tail n
      else (first a).toNat - (first b).toNat := rfl

theorem strncmp_symm (a b : CStr) (n : Nat) : strncmp b a n = -strncmp a b n := by
  induction n generalizing a b with
  | zero => rfl
  | succ n ih =>
    rw [strncmp_succ, strncmp_succ]
    by_cases h : first a ≠ 0 ∧ first a = first b
    · rw [if_pos h, if_pos (by rw [← h.2]; exact ⟨h.1, rfl⟩), ih]
    · rw [if_neg h, if_neg (fun hsame => h ⟨by rw [← hsame.2]; exact hsame.1, hsame.2.symm⟩)]
      omega

theorem toNat_lt_iff_sub {x y : U8} : ((x.toNat : Int) - y.toNat < 0) ↔ x.toNat < y.toNat := by omega

theorem strncmp_lt_iff : strncmp a b (n + 1) < 0 ↔
    (first a).toNat < (first b).toNat ∨ (first a ≠ 0 ∧ first a = first b ∧ strncmp a.tail b.tail n < 0) := by
  rw [strncmp_succ]
  by_cases h : first a ≠ 0 ∧ first a = first b
  · rw [if_pos h]
    refine ⟨fun hlt => Or.inr ⟨h.1, h.2, hlt⟩, ?_⟩
    intro hor
    rcases hor with hlt | ⟨-, -, hlt⟩
    · rw [h.2] at hlt
      omega
    · exact hlt
  · rw [if_neg h, toNat_lt_iff_sub]
    exact ⟨Or.inl, fun hor => hor.resolve_right fun hr => h ⟨hr.1, hr.2.1⟩⟩

theorem strncmp_le_iff : strncmp a b (n + 1) ≤ 0 ↔
    (first a).toNat < (first b).toNat ∨ (first a = first b ∧ (first a = 0 ∨ strncmp a.tail b.tail n ≤ 0)) := by
  rw [strncmp_succ]
  by_cases h : first a ≠ 0 ∧ first a = first b
  · rw [if_pos h]
    refine ⟨fun hle => Or.inr ⟨h.2, Or.inr hle⟩, ?_⟩
    intro hor
    rcases hor with hlt | ⟨-, h0 | hle⟩
    · rw [h.2] at hlt
      omega
    · exact absurd h0 h.1
    · exact hle
  · rw [if_neg h]
    refine ⟨fun hle => ?_, ?_⟩
    · by_cases heq : first a = first b
      · refine Or.inr ⟨heq, Or.inl ?_⟩
        by_contra h0
        exact h ⟨h0, heq⟩
      · have hne : (first a).toNat ≠ (first b).toNat := fun hn => heq (BitVec.eq_of_toNat_eq hn)
        exact Or.inl (by omega)
    · intro hor
      rcases hor with hlt | ⟨heq, -⟩
      · omega
      · rw [heq]
        omega

theorem strncmp_lt_of_lt_of_le (hab : strncmp a b n < 0) (hbc : strncmp b c n ≤ 0) : strncmp a c n < 0 := by
  induction n generalizing a b c with
  | zero => exact absurd hab (by simp [strncmp])
  | succ n ih =>
    rw [strncmp_lt_iff] at hab ⊢
    rw [strncmp_le_iff] at hbc
    rcases hab with hab | ⟨ha, hab, htail⟩
    · rcases hbc with hbc | ⟨hbc, -⟩
      · exact Or.inl (by omega)
      · rw [← hbc]
        exact Or.inl hab
    · rw [← hab] at hbc
      rcases hbc with hbc | ⟨hbc, h0 | htail'⟩
      · exact Or.inl hbc
      · exact absurd h0 ha
      · exact Or.inr ⟨ha, hbc, ih htail htail'⟩

/-- Up to a string that agrees with `a`, an ascending list comes before `a`. -/
theorem ascending_before {pre post : List CStr} (h : (pre ++ b :: post).Pairwise fun x y => strncmp x y n < 0)
    (hab : strncmp a b n = 0) {x : CStr} (hx : x ∈ pre) : 0 < strncmp a x n := by
  have hxb : strncmp x b n < 0 := (List.pairwise_append.mp h).2.2 x hx b List.mem_cons_self
  have hba : strncmp b a n = 0 := by rw [strncmp_symm a b, hab]; rfl
  have hxa := strncmp_lt_of_lt_of_le hxb (Int.le_of_eq hba)
  have := strncmp_symm x a n
  omega

end Iosu.Libc
