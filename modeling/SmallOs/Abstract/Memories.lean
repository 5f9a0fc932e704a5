import SmallOs.Kernel.Machine

/-! What the remapped user page is for: a memory of its own for every process. -/

namespace SmallOs

/-- The memory of every process, by the number of the process and the offset in its page. -/
abbrev Memories := Nat → Nat → Byte

namespace Memories

/-- A process stores a byte in its memory. -/
def store (memory : Memories) (p offset : Nat) (value : Byte) : Memories :=
  Function.update memory p (Function.update (memory p) offset value)

/-- A process, or a call on its behalf, stores bytes one after the other. -/
def storeText (memory : Memories) (p : Nat) : Nat → List Byte → Memories
  | _, [] => memory
  | offset, value :: text => (memory.store p offset value).storeText p (offset + 1) text

/-- A program is put where it is linked, into the memory of its process. -/
def load (memory : Memories) (p : Nat) (program : List Byte) : Memories :=
  Function.update memory p fun offset =>
    if 0x48000 ≤ offset then program.getD (offset - 0x48000) (memory p offset) else memory p offset

variable {memory : Memories} {p q offset : Nat}

/-- The memory of another process is as it was. -/
theorem store_other (differ : q ≠ p) (value : Byte) :
    memory.store p offset value q = memory q :=
  Function.update_of_ne differ _ _

/-- The memory of another process is as it was when a program is loaded. -/
theorem load_other (differ : q ≠ p) (program : List Byte) : memory.load p program q = memory q :=
  Function.update_of_ne differ _ _

end Memories

end SmallOs
