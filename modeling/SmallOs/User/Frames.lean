import SmallOs.User.Blink

/-! The frames of `fish.c`: two files are read side by side, and their cells are put up as lights. -/

namespace SmallOs

/-- A file of `add_frames`: the bytes that one-byte reads still return, the last one, and the end flag. -/
structure FrameFile where
  rest : List Byte
  c : Byte
  eof : Bool

namespace FrameFile

/-- The read at the start of the inner loop, which a file whose line has ended sits out. -/
def read (file : FrameFile) : FrameFile :=
  if file.c = 0x0A then file
  else match file.rest with
    -- A read of nothing is the end of the file, and of its last line.
    | [] => { file with c := 0x0A, eof := true }
    | b :: rest => { file with rest, c := b }

/-- What comes between two rows: a file that has ended stays at its end. -/
def nextRow (file : FrameFile) : FrameFile :=
  { file with c := if file.eof then 0x0A else 0x30 }

end FrameFile

/-- The structure for one cell, where a file whose line has ended counts as a space. -/
def frameBlink (blinkStruct : Blink) (row col : Nat) (c0 c1 : Byte) : Blink :=
  { blinkStruct with
    onChar := if c0 = 0x0A then 0x20 else c0
    offChar := if c1 = 0x0A then 0x20 else c1
    onLength := 15
    offLength := 15
    location := BitVec.ofNat 16 (row * 80 + col + 40) }

/-- The inner loop of `add_frames`: the structures of a row, and the files after it. -/
def frameRow (blinkStruct : Blink) (row : Nat) :
    Nat → FrameFile → FrameFile → Nat → Option (List Blink × FrameFile × FrameFile)
  | 0, _, _, _ => none
  | fuel + 1, file0, file1, col =>
    let file0 := file0.read
    let file1 := file1.read
    if file0.c = 0x0A ∧ file1.c = 0x0A then some ([], file0, file1)
    else do
      let (blinks, files) ← frameRow blinkStruct row fuel file0 file1 (col + 1)
      if (file0.c ≠ 0x20 ∧ file0.c ≠ 0x0A) ∨ (file1.c ≠ 0x20 ∧ file1.c ≠ 0x0A) then
        some (frameBlink blinkStruct row col file0.c file1.c :: blinks, files)
      else some (blinks, files)

/-- The outer loop of `add_frames`, with fuel for the rows and for the cells of a row. -/
def frameRows (blinkStruct : Blink) (cells : Nat) :
    Nat → FrameFile → FrameFile → Nat → Option (List Blink)
  | 0, _, _, _ => none
  | fuel + 1, file0, file1, row =>
    if file0.eof = true ∧ file1.eof = true then some []
    else do
      let (blinks, file0, file1) ← frameRow blinkStruct row cells file0 file1 0
      let rest ← frameRows blinkStruct cells fuel file0.nextRow file1.nextRow (row + 1)
      some (blinks ++ rest)

/--
`add_frames`, with the contents of its two files: the structures it passes to `mp1_ioctl`, in order.

The fields that it does not set are those of its own uninitialised structure.
-/
def addFrames (blinkStruct : Blink) (text0 text1 : List Byte) (fuel : Nat) : Option (List Blink) :=
  frameRows blinkStruct fuel fuel ⟨text0, 0x30, false⟩ ⟨text1, 0x30, false⟩ 0

end SmallOs
