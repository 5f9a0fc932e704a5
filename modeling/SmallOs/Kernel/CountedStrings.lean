import Mathlib.Logic.Function.Basic
import SmallOs.Foundation.I386
import SmallOs.Kernel.Strings

/-! `strncmp` and `strncpy` of `lib.c` with their machine counters, over a memory of any addresses. -/

namespace SmallOs.Counted

open Foundation.I386 (Word)

variable {α : Type}

/-- `i++` of an `int32_t`, where `none` stands for an overflow, which is undefined. -/
def increment (i : Word) : Option Word :=
  if i = 0x7FFFFFFF then none else some (i + 1)

/-- The loop of `strncmp` from a value of its counter on, where `s1 i` is the address of `s1[i]`. -/
def strncmpLoop (mem : α → Byte) (s1 s2 : Word → α) (n i : Word) : Nat → Option Int
  | 0 => none
  | fuel + 1 =>
    -- The bound is unsigned, so the counter is compared as an unsigned word.
    if i < n then
      if mem (s1 i) ≠ mem (s2 i) ∨ mem (s1 i) = 0 then
        some (charValue (mem (s1 i)) - charValue (mem (s2 i)))
      else (increment i).bind fun next => strncmpLoop mem s1 s2 n next fuel
    else some 0

/-- `strncmp`, whose counter stops at the bound. -/
def strncmp (mem : α → Byte) (s1 s2 : Word → α) (n : Word) : Option Int :=
  strncmpLoop mem s1 s2 n 0 (n.toNat + 1)

variable [DecidableEq α]

/-- The first loop of `strncpy`, which tests a byte before it tests the bound. -/
def strncpyCopy (dest src : Word → α) (n : Word) (mem : α → Byte) (i : Word) :
    Nat → Option ((α → Byte) × Word)
  | 0 => none
  | fuel + 1 =>
    if mem (src i) ≠ 0 ∧ i < n then
      let mem := Function.update mem (dest i) (mem (src i))
      (increment i).bind fun next => strncpyCopy dest src n mem next fuel
    else some (mem, i)

/-- The second loop of `strncpy`, which goes on where the first one stopped. -/
def strncpyPad (dest : Word → α) (n : Word) (mem : α → Byte) (i : Word) : Nat → Option (α → Byte)
  | 0 => none
  | fuel + 1 =>
    if i < n then
      let mem := Function.update mem (dest i) 0
      (increment i).bind fun next => strncpyPad dest n mem next fuel
    else some mem

/-- `strncpy`, as the memory it leaves; the pointer it returns is its argument. -/
def strncpy (mem : α → Byte) (dest src : Word → α) (n : Word) : Option (α → Byte) :=
  (strncpyCopy dest src n mem 0 (n.toNat + 1)).bind fun copied =>
    strncpyPad dest n copied.1 copied.2 (n.toNat + 1)

end SmallOs.Counted
