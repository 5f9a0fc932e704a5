import Mathlib.Data.List.Lookmap
import SmallOs.User.Blink

/-! What the blinking characters are for: a list of lights, without pointers and without a pool. -/

namespace SmallOs

open Foundation.I386 (Word)

/-- A light: a cell of the screen that shows two characters in turn. -/
structure Light where
  location : BitVec 16
  onChar : Byte
  offChar : Byte
  onLength : BitVec 16
  offLength : BitVec 16
  /-- The ticks that are left before the light changes. -/
  left : BitVec 16
  lit : Bool
  deriving DecidableEq

namespace Light

/-- A light that was just put up. -/
def fresh (blink : Blink) : Light :=
  ⟨blink.location, blink.onChar, blink.offChar, blink.onLength, blink.offLength, blink.onLength,
    true⟩

/-- The light changes with the next tick. -/
def Due (l : Light) : Prop :=
  (l.left - 1).toInt ≤ 0

instance (l : Light) : Decidable l.Due :=
  inferInstanceAs (Decidable (_ ≤ _))

/-- One tick of a light. -/
def tick (l : Light) : Light :=
  if l.Due then
    { l with left := if l.lit then l.offLength else l.onLength, lit := !l.lit }
  else { l with left := l.left - 1 }

/-- A light takes its times from another one, and keeps its place and its characters. -/
def sync (l source : Light) : Light :=
  { l with
    onLength := source.onLength
    offLength := source.offLength
    left := source.left
    lit := source.lit }

/-- The character a light is to show. -/
def face (l : Light) : Byte :=
  if l.lit then l.onChar else l.offChar

end Light

/-- The lights, the latest one first, and the screen they are shown on. -/
structure Lights where
  lights : List Light
  screen : Nat → Byte

namespace Lights

/-- Put a character into a cell. -/
def poke (a : Lights) (location : BitVec 16) (c : Byte) : Lights :=
  { a with screen := Function.update a.screen (cellOffset location) c }

/-- The latest light at a location. -/
def at? (a : Lights) (location : BitVec 16) : Option Light :=
  a.lights.find? fun l => l.location = location

/-- Put up a light, if its location is on the screen and there are not too many. -/
def add (a : Lights) (blink : Blink) : Int × Lights :=
  if screenCells ≤ blink.location.toNat ∨ screenCells ≤ a.lights.length then (-1, a)
  else (0, { a with lights := Light.fresh blink :: a.lights }.poke blink.location blink.onChar)

/-- Take down the latest light at a location, which leaves its character where it is. -/
def remove (a : Lights) (location : BitVec 16) : Int × Lights :=
  match a.at? location with
  | none => (-1, a)
  | some _ => (0, { a with lights := a.lights.eraseP fun l => l.location = location })

/-- Let the latest light at one location take its times from the latest light at another. -/
def sync (a : Lights) (source target : BitVec 16) : Int × Lights :=
  match a.at? source, a.at? target with
  | some first, some second =>
    let change (l : Light) := if l.location = target then some (l.sync first) else none
    (0, { a with lights := a.lights.lookmap change }.poke target second.offChar)
  | _, _ => (-1, a)

/-- Show what a light that changes is to show after its change. -/
def redraw (screen : Nat → Byte) (l : Light) : Nat → Byte :=
  if l.Due then Function.update screen (cellOffset l.location) l.tick.face else screen

/-- One tick of all the lights, from the latest to the oldest. -/
def tick (a : Lights) : Lights :=
  ⟨a.lights.map Light.tick, a.lights.foldl redraw a.screen⟩

/-- What a request does to the lights, its result, and the light that is found. -/
def request (a : Lights) : Request → (Int × Option Light) × Lights
  | .add arg => (((a.add arg).1, none), (a.add arg).2)
  | .remove arg => (((a.remove (arg.setWidth 16)).1, none), (a.remove (arg.setWidth 16)).2)
  | .find arg =>
    match a.at? arg.location with
    | none => ((-1, none), a)
    | some l => ((0, some l), a)
  | .sync arg =>
    let source := (arg >>> 16).setWidth 16
    let target := (arg &&& 0xFFFF).setWidth 16
    (((a.sync source target).1, none), (a.sync source target).2)
  | .tasklet => ((0, none), a.tick)

/-- What a list of requests gives back, and the lights after it. -/
def serve (a : Lights) : List Request → List (Int × Option Light) × Lights
  | [] => ([], a)
  | r :: requests =>
    let (answer, next) := a.request r
    let (answers, last) := next.serve requests
    (answer :: answers, last)

end Lights

end SmallOs
