import SmallOs.Kernel.Process

/-! The loops of `execute` over its command, as the stores they make into its arrays. -/

namespace SmallOs

open Foundation

/-- The loop that fills `file_name`: its stores, and what follows the space that ends it. -/
def fileNameLoop (i : Nat) : List Byte → List (Nat × Byte) × Option (List Byte)
  | [] => ([], none)
  | c :: command =>
    if c ≠ 0x20 then
      let (stores, rest) := fileNameLoop (i + 1) command
      ((i, c) :: stores, rest)
    else ([], some command)

/-- The loop that fills `arg`, and the NUL stored behind it. -/
def argLoop (j : Nat) : List Byte → List (Nat × Byte)
  -- The NUL is stored where the loop stopped.
  | [] => [(j, 0)]
  | c :: command => (j, c) :: argLoop (j + 1) command

/-- What the loops of `execute` did: their stores into the two arrays, and `size`. -/
structure ParsedCommand where
  fileName : List (Nat × Byte)
  arg : List (Nat × Byte)
  size : Nat

/-- The part of `execute` that takes its command apart. -/
def parseLoops (command : List Byte) : ParsedCommand :=
  let (stores, rest) := fileNameLoop 0 command
  -- Without a space the second loop is never entered.
  match rest with
  | none => ⟨stores, [(0, 0)], 0⟩
  | some text => ⟨stores, argLoop 0 text, text.length⟩

/-- The loop of `strcpy` from offset `i` on, as its stores, followed for at most `fuel` bytes. -/
def strcpyFrom (src : Nat → Byte) (i : Nat) : Nat → List (Nat × Byte)
  | 0 => []
  | fuel + 1 => if src i ≠ 0 then (i, src i) :: strcpyFrom src (i + 1) fuel else [(i, 0)]

/-- The copy of `arg` into `pcb_arg`, with the bytes the array `arg` held before. -/
def copyArg (command : List Byte) (old : Nat → Byte) : List (Nat × Byte) :=
  -- The text ends with the NUL the loop stored, so its size is enough fuel.
  strcpyFrom (storeAll (parseLoops command).arg old) 0 ((parseLoops command).size + 1)

/-- The array `file_name`, which is cleared before the loop. -/
def fileNameArray (command : List Byte) : List Byte :=
  (List.range 32).map (storeAll (parseLoops command).fileName fun _ => 0)

end SmallOs
