import Mathlib.Data.List.FinRange
import SmallOs.Foundation.I386
import SmallOs.Kernel.State

/-! The blinking characters of `fish`: the routines of `blink.S`, and the pool of `fish.c` below them. -/

namespace SmallOs

open Foundation.I386 (Word)

/-- `80*25`: the cells of the screen, and the entries of `blink_array`. -/
def screenCells : Nat := 80 * 25

/-- A pointer into `blink_array`, as the index of an entry. -/
abbrev BlinkSlot := Fin screenCells

/-- `struct mp1_blink_struct`, where the null pointer is `none`. -/
structure Blink where
  location : BitVec 16
  onChar : Byte
  offChar : Byte
  onLength : BitVec 16
  offLength : BitVec 16
  countdown : BitVec 16
  status : BitVec 16
  next : Option BlinkSlot
  deriving DecidableEq

/-- An entry of the pool whose bytes are all zero. -/
def Blink.zero : Blink :=
  ⟨0, 0, 0, 0, 0, 0, 0, none⟩

/-- The static variables of the program, and the screen that `vmem_base_addr` points at. -/
structure Fish where
  mp1ListHead : Option BlinkSlot
  blinkArray : BlinkSlot → Blink
  /-- The bytes of the screen, by their offsets. -/
  screen : Nat → Byte

namespace Fish

/-- Change one entry of the pool. -/
def setBlink (f : Fish) (p : BlinkSlot) (blink : Blink) : Fish :=
  { f with blinkArray := Function.update f.blinkArray p blink }

/-- The program before its first request, with `blink_array` cleared by `main`. -/
def cleared (screen : Nat → Byte) : Fish :=
  ⟨none, fun _ => Blink.zero, screen⟩

end Fish

/-- `mp1_poke`, with its two register arguments. -/
def mp1Poke (f : Fish) (cl : Byte) (eax : Nat) : Fish :=
  { f with screen := Function.update f.screen eax cl }

/-- The offset of a location, as the routines compute it before they call `mp1_poke`. -/
def cellOffset (location : BitVec 16) : Nat :=
  2 * location.toNat

/-- `mp1_malloc`, which does not look at the size it is asked for. -/
def mp1Malloc (f : Fish) : Option BlinkSlot :=
  -- An entry at the first cell of the screen cannot be told from a free one.
  (List.finRange screenCells).find? fun i => (f.blinkArray i).location = 0

/-- `mp1_free`. -/
def mp1Free (f : Fish) (memory : BlinkSlot) : Fish :=
  f.setBlink memory Blink.zero

/-- The loop of `mp1_find_helper`, where `none` means that the fuel does not last. -/
def findLoop (f : Fish) (ax : BitVec 16) : Nat → Option BlinkSlot → Option (Option BlinkSlot)
  | 0, _ => none
  | _ + 1, none => some none
  | fuel + 1, some ebx =>
    if (f.blinkArray ebx).location = ax then some (some ebx)
    else findLoop f ax fuel (f.blinkArray ebx).next

/-- `mp1_find_helper`, which compares the low half of its argument. -/
def mp1FindHelper (f : Fish) (arg : Word) (fuel : Nat) : Option (Option BlinkSlot) :=
  findLoop f (arg.setWidth 16) fuel f.mp1ListHead

/-- `mp1_ioctl_add`, with the structure its argument points at. -/
def mp1IoctlAdd (f : Fish) (arg : Blink) : Int × Fish :=
  -- `ece391_memcpy` always returns zero, so only the location and the pool can fail.
  if screenCells ≤ arg.location.toNat then (-1, f)
  else
    let temp := { arg with status := 1, countdown := arg.onLength }
    match mp1Malloc f with
    | none => (-1, f)
    | some edx =>
      let f := f.setBlink edx { temp with next := f.mp1ListHead }
      let f := { f with mp1ListHead := some edx }
      (0, mp1Poke f temp.onChar (cellOffset temp.location))

/-- A place that holds a pointer of the list: the head, or the link of an entry. -/
inductive LinkPlace where
  | listHead
  | next (p : BlinkSlot)

namespace Fish

/-- The pointer at a place. -/
def pointer (f : Fish) : LinkPlace → Option BlinkSlot
  | .listHead => f.mp1ListHead
  | .next p => (f.blinkArray p).next

/-- Store a pointer at a place. -/
def setPointer (f : Fish) : LinkPlace → Option BlinkSlot → Fish
  | .listHead, value => { f with mp1ListHead := value }
  | .next p, value => f.setBlink p { f.blinkArray p with next := value }

end Fish

/-- The loop `remove_find_prev`, where `none` also means that it follows the null pointer. -/
def removeFindPrev (f : Fish) (eax : BlinkSlot) : Nat → LinkPlace → Option LinkPlace
  | 0, _ => none
  | fuel + 1, edx =>
    match f.pointer edx with
    | none => none
    | some p => if p = eax then some edx else removeFindPrev f eax fuel (.next p)

/-- `mp1_ioctl_remove`, which leaves the character on the screen. -/
def mp1IoctlRemove (f : Fish) (arg : Word) (fuel : Nat) : Option (Int × Fish) := do
  match ← mp1FindHelper f arg fuel with
  | none => some (-1, f)
  | some eax =>
    let edx ← removeFindPrev f eax fuel .listHead
    let f := f.setPointer edx (f.blinkArray eax).next
    some (0, mp1Free f eax)

/-- `mp1_ioctl_find`, with the structure it stores back through its argument. -/
def mp1IoctlFind (f : Fish) (arg : Blink) (fuel : Nat) : Option (Int × Option Blink) := do
  match ← mp1FindHelper f (arg.location.setWidth 32) fuel with
  | none => some (-1, none)
  | some eax => some (0, some (f.blinkArray eax))

/-- The copies of `mp1_ioctl_sync`. -/
def syncCopy (esi edi : Blink) : Blink :=
  { edi with
    onLength := esi.onLength
    offLength := esi.offLength
    countdown := esi.countdown
    status := esi.status }

/-- `mp1_ioctl_sync`, with two locations in one argument. -/
def mp1IoctlSync (f : Fish) (arg : Word) (fuel : Nat) : Option (Int × Fish) := do
  match ← mp1FindHelper f (arg >>> 16) fuel with
  | none => some (-1, f)
  | some esi =>
    match ← mp1FindHelper f (arg &&& 0xFFFF) fuel with
    | none => some (-1, f)
    | some edi =>
      let f := f.setBlink edi (syncCopy (f.blinkArray esi) (f.blinkArray edi))
      let blink := f.blinkArray edi
      -- `cmovl` moves on "less", which no `testb` leaves behind, so the lit character is never taken.
      some (0, mp1Poke f blink.offChar (cellOffset blink.location))

/-- The body of `tasklet_loop` for one entry. -/
def taskletBody (f : Fish) (ebx : BlinkSlot) : Fish :=
  let blink := f.blinkArray ebx
  let countdown := blink.countdown - 1
  -- The comparison with zero is signed.
  if 0 < countdown.toInt then f.setBlink ebx { blink with countdown }
  else if blink.status &&& 1 = 0 then
    let f := mp1Poke f blink.onChar (cellOffset blink.location)
    f.setBlink ebx { blink with countdown := blink.onLength, status := blink.status ^^^ 1 }
  else
    let f := mp1Poke f blink.offChar (cellOffset blink.location)
    f.setBlink ebx { blink with countdown := blink.offLength, status := blink.status ^^^ 1 }

/-- `tasklet_loop`, where `none` means that the fuel does not last. -/
def taskletLoop : Nat → Option BlinkSlot → Fish → Option Fish
  | 0, _, _ => none
  | _ + 1, none, f => some f
  | fuel + 1, some ebx, f =>
    let f := taskletBody f ebx
    taskletLoop fuel (f.blinkArray ebx).next f

/-- `mp1_rtc_tasklet`. -/
def mp1RtcTasklet (f : Fish) (fuel : Nat) : Option Fish :=
  taskletLoop fuel f.mp1ListHead f

/-- What the program asks of the routines: the four commands of `mp1_ioctl`, and the tasklet. -/
inductive Request where
  | add (arg : Blink)
  | remove (arg : Word)
  | find (arg : Blink)
  | sync (arg : Word)
  | tasklet

/-- What a request gives back: the result, and the structure that `find` stores. -/
structure Answer where
  result : Int
  found : Option Blink
  deriving DecidableEq

/-- `mp1_ioctl` through `call_table`, and `mp1_rtc_tasklet`. -/
def Fish.request (f : Fish) (fuel : Nat) : Request → Option (Answer × Fish)
  | .add arg =>
    let (result, f) := mp1IoctlAdd f arg
    some (⟨result, none⟩, f)
  | .remove arg => (mp1IoctlRemove f arg fuel).map fun (result, f) => (⟨result, none⟩, f)
  | .find arg => (mp1IoctlFind f arg fuel).map fun (result, found) => (⟨result, found⟩, f)
  | .sync arg => (mp1IoctlSync f arg fuel).map fun (result, f) => (⟨result, none⟩, f)
  | .tasklet => (mp1RtcTasklet f fuel).map fun f => (⟨0, none⟩, f)

/-- The answers to a list of requests, and the program after it. -/
def Fish.serve (fuel : Nat) : Fish → List Request → Option (List Answer × Fish)
  | f, [] => some ([], f)
  | f, r :: requests => do
    let (answer, f) ← f.request fuel r
    let (answers, f) ← Fish.serve fuel f requests
    some (answer :: answers, f)

end SmallOs
