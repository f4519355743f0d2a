/-
  Iosu.Libc.Strings — the C strings of `libraries/libc/lib/string.c`.

  A string is the list of its bytes; reading at or past the end of the list reads the
  terminating zero. `strncmp` is the source's loop: it advances while the bytes are
  equal and not the terminator, for at most `n` of them, and answers the difference of
  the first bytes that stopped it. `char` is unsigned on ARM.
-/

import Iosu.Lib.Bytes

namespace Iosu.Libc

open Iosu.Lib

abbrev CStr := List U8

/-- A string literal. -/
def cstr (s : String) : CStr := s.toList.map fun c => BitVec.ofNat 8 c.toNat

/-- `s[0]`. -/
def first (s : CStr) : U8 := s.headD 0

def strncmp (s1 s2 : CStr) : Nat → Int
  | 0 => 0
  | n + 1 =>
    if first s1 ≠ 0 ∧ first s1 = first s2 then strncmp s1.tail s2.tail n
    else (first s1).toNat - (first s2).toNat

end Iosu.Libc
