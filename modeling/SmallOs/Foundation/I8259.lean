import Mathlib.Data.List.FinRange
import Mathlib.Tactic.NormNum

/-! The 8259A interrupt controller, and the pair of them a PC has. -/

namespace Foundation.I8259

/-- One of the eight lines of a controller. -/
abbrev Line := Fin 8

/-- There are lines, so they have literals. -/
scoped instance neZero_lines : NeZero 8 :=
  Nat.instNeZeroSucc

/-- So have those of a pair. -/
scoped instance neZero_pair : NeZero 16 :=
  Nat.instNeZeroSucc

/-- The word a controller takes next at its data port. -/
inductive Expects where
  | vector | cascade | mode | mask
  deriving DecidableEq, Repr

/-- The registers of a controller. -/
structure Chip where
  /-- The lines that were raised and not acknowledged since. -/
  requests : BitVec 8
  /-- The lines that were acknowledged and have not ended since. -/
  service : BitVec 8
  mask : BitVec 8
  /-- Where the vectors of the eight lines begin. -/
  vectors : BitVec 8
  /-- The lines that other controllers are on, or the number of a controller on such a line. -/
  cascade : BitVec 8
  mode : BitVec 8
  expects : Expects
  /-- Two bits of the first initialization word: whether it is alone, and whether a mode follows. -/
  single : Bool
  long : Bool
  deriving DecidableEq, Repr

/-- The bit of a line. -/
def bit (i : Line) : BitVec 8 :=
  BitVec.twoPow 8 i.val

/-- The lowest line of a set, which has the highest priority. -/
def first (lines : BitVec 8) : Option Line :=
  (List.finRange 8).find? fun i => lines.getLsbD i

namespace Chip

/-- A line is raised. -/
def raise (chip : Chip) (i : Line) : Chip :=
  { chip with requests := chip.requests ||| bit i }

/-- The end of a line that was acknowledged. -/
def finish (chip : Chip) (i : Line) : Chip :=
  { chip with service := chip.service &&& ~~~bit i }

/--
A byte written to the command port.

The commands that rotate priorities or select a register to read are left out.
-/
def command (chip : Chip) (word : BitVec 8) : Chip :=
  if word.getLsbD 4 then
    -- The first initialization word resets the controller.
    { chip with
      requests := 0
      service := 0
      mask := 0
      mode := 0
      expects := .vector
      single := word.getLsbD 1
      long := word.getLsbD 0 }
  else if word.extractLsb' 3 5 = 0b01100 then chip.finish ⟨(word.extractLsb' 0 3).toNat, by omega⟩
  else if word.extractLsb' 3 5 = 0b00100 then (first chip.service).elim chip chip.finish
  else chip

/-- What follows the words before the mode. -/
def afterCascade (chip : Chip) : Expects :=
  if chip.long then .mode else .mask

/-- A byte written to the data port. -/
def data (chip : Chip) (word : BitVec 8) : Chip :=
  match chip.expects with
  | .vector =>
    { chip with vectors := word, expects := if chip.single then chip.afterCascade else .cascade }
  | .cascade => { chip with cascade := word, expects := chip.afterCascade }
  | .mode => { chip with mode := word, expects := .mask }
  | .mask => { chip with mask := word }

/-- The line of a set that comes next, if no line of its priority or a higher one is in service. -/
def next (chip : Chip) (requests : BitVec 8) : Option Line :=
  (first (requests &&& ~~~chip.mask)).filter fun i => ∀ j ≤ i, chip.service.getLsbD j = false

/-- A line is acknowledged; with automatic ends it is not in service afterwards. -/
def acknowledge (chip : Chip) (i : Line) : Chip :=
  { chip with
    requests := chip.requests &&& ~~~bit i
    service := if chip.mode.getLsbD 1 then chip.service else chip.service ||| bit i }

/-- The vector of a line. -/
def vector (chip : Chip) (i : Line) : BitVec 8 :=
  chip.vectors &&& 0xF8 ||| BitVec.ofNat 8 i.val

/-- With nothing in service, the first request that is not masked comes next. -/
theorem next_idle {chip : Chip} (idle : chip.service = 0) (requests : BitVec 8) :
    chip.next requests = first (requests &&& ~~~chip.mask) := by
  unfold next
  cases first (requests &&& ~~~chip.mask) with
  | none => rfl
  | some i => simp [idle]

end Chip

/-- A line is in a set exactly when its bit is set. -/
@[simp] theorem getLsbD_bit (i : Line) (k : Nat) : (bit i).getLsbD k = decide (i.val = k) := by
  have small := i.isLt
  simp [bit, BitVec.getLsbD_twoPow]

/-- The first line of a set without its upper five lines. -/
theorem first_of_low {lines : BitVec 8} (upper : ∀ k, 3 ≤ k → k < 8 → lines.getLsbD k = false) :
    first lines = if lines.getLsbD 0 then some 0 else if lines.getLsbD 1 then some 1
      else if lines.getLsbD 2 then some 2 else none := by
  have enumerated : List.finRange 8 = [0, 1, 2, 3, 4, 5, 6, 7] := by decide
  unfold first
  rw [enumerated]
  -- The lines are tried one after the other, and the last five are not in the set.
  simp only [List.find?_cons, List.find?_nil]
  rw [show lines.getLsbD (3 : Line) = false from upper 3 (by omega) (by omega),
    show lines.getLsbD (4 : Line) = false from upper 4 (by omega) (by omega),
    show lines.getLsbD (5 : Line) = false from upper 5 (by omega) (by omega),
    show lines.getLsbD (6 : Line) = false from upper 6 (by omega) (by omega),
    show lines.getLsbD (7 : Line) = false from upper 7 (by omega) (by omega)]
  change _ = if lines.getLsbD (0 : Line) then some 0 else if lines.getLsbD (1 : Line) then some 1
    else if lines.getLsbD (2 : Line) then some 2 else none
  generalize lines.getLsbD (0 : Line) = zero, lines.getLsbD (1 : Line) = one,
    lines.getLsbD (2 : Line) = two
  cases zero with
  | true => rfl
  | false =>
    cases one with
    | true => rfl
    | false => cases two <;> rfl

/-- The controllers of a PC, where the second one is on a line of the first. -/
structure Pair where
  master : Chip
  slave : Chip
  deriving DecidableEq, Repr

namespace Pair

/-- The line of the first controller that the second one is on. -/
def cascadeLine : Line := 2

/-- A byte written to a port. -/
def write (pair : Pair) (port : Nat) (word : BitVec 8) : Pair :=
  if port = 0x20 then { pair with master := pair.master.command word }
  else if port = 0x21 then { pair with master := pair.master.data word }
  else if port = 0xA0 then { pair with slave := pair.slave.command word }
  else if port = 0xA1 then { pair with slave := pair.slave.data word }
  else pair

/-- A device raises one of the sixteen lines, none of which is that of the second controller. -/
def raise (pair : Pair) (i : Fin 16) : Pair :=
  if i.val < 8 then
    if i.val = cascadeLine.val then pair
    else { pair with master := pair.master.raise (Fin.ofNat 8 i.val) }
  else { pair with slave := pair.slave.raise (Fin.ofNat 8 i.val) }

/-- Whether a device waits for its line. -/
def latched (pair : Pair) (i : Fin 16) : Bool :=
  if i.val < 8 then pair.master.requests.getLsbD i.val else pair.slave.requests.getLsbD (i.val - 8)

/-- The requests of the first controller, with that of the second one. -/
def masterRequests (pair : Pair) : BitVec 8 :=
  if (pair.slave.next pair.slave.requests).isSome then pair.master.requests ||| bit cascadeLine
  else pair.master.requests

/-- Whether the second controller answers for its line: both of them have to be told so. -/
def answers (pair : Pair) : Bool :=
  pair.master.cascade.getLsbD cascadeLine &&
    pair.slave.cascade.extractLsb' 0 3 = BitVec.ofNat 3 cascadeLine.val

/-- The acknowledgement of the processor, which is given a vector if there is a request. -/
def acknowledge (pair : Pair) : Option (BitVec 8 × Pair) :=
  (pair.master.next pair.masterRequests).bind fun i =>
    let master := pair.master.acknowledge i
    if i = cascadeLine ∧ pair.answers then
      (pair.slave.next pair.slave.requests).map fun j =>
        (pair.slave.vector j, ⟨master, pair.slave.acknowledge j⟩)
    else some (pair.master.vector i, ⟨master, pair.slave⟩)

end Pair

end Foundation.I8259
