import Mathlib.Logic.Function.Iterate
import Mathlib.Tactic.IntervalCases
import SmallOs.Foundation.I386

/-! Inline assembly of the i386 with labels: its execution, and the rules for its loops. -/

namespace Foundation.Assembly

open I386

/-- The general registers block operations use. -/
inductive Reg where
  | eax | ecx | edx | esi | edi
  deriving DecidableEq, Repr

/-- The state of the processor, where all segments are flat. -/
structure Core where
  reg : Reg → Word
  ds : BitVec 16
  es : BitVec 16
  /-- The zero, carry, and direction flags; no instruction here reads another one. -/
  zero : Bool
  carry : Bool
  direction : Bool
  mem : Memory

/-- A source operand. -/
inductive Operand where
  | reg (r : Reg)
  | imm (value : Word)

/-- The instructions that store or load whole blocks with a repeat prefix. -/
inductive StringOp where
  | stosl | movsl | movsb
  deriving DecidableEq, Repr

/-- The instructions, with the destination last as in the assembler's own order. -/
inductive Instr (Label : Type) where
  | testl (src : Operand) (dst : Reg)
  | cmpl (src : Operand) (dst : Reg)
  | addl (src : Operand) (dst : Reg)
  | subl (src : Operand) (dst : Reg)
  | andl (src : Operand) (dst : Reg)
  | shrl (count : Nat) (dst : Reg)
  | movl (src : Operand) (dst : Reg)
  /-- `leal disp(base, index), dst`. -/
  | leal (disp : Word) (base index dst : Reg)
  /-- `movb (address), %al`. -/
  | loadAl (address : Reg)
  /-- `movb %al, (address)`. -/
  | storeAl (address : Reg)
  /-- `movw %ds, %dx`. -/
  | movwDsDx
  /-- `movw %dx, %es`. -/
  | movwDxEs
  | cld
  | std
  | rep (op : StringOp)
  | jmp (target : Label)
  | jz (target : Label)
  | jae (target : Label)

/-- Whether the next line follows whatever the flags are. -/
def Instr.straight {Label : Type} : Instr Label → Bool
  | .jmp _ | .jz _ | .jae _ => false
  | _ => true

/-- A line of code. -/
inductive Line (Label : Type) where
  | label (name : Label)
  | instr (instr : Instr Label)

namespace Core

/-- Change one register. -/
def set (s : Core) (r : Reg) (value : Word) : Core :=
  { s with reg := Function.update s.reg r value }

/-- The value of a source operand. -/
def value (s : Core) : Operand → Word
  | .reg r => s.reg r
  | .imm value => value

/-- The flags after an operation without carry. -/
def logic (s : Core) (result : Word) : Core :=
  { s with zero := result = 0, carry := false }

/-- The flags after a subtraction. -/
def compare (s : Core) (left right : Word) : Core :=
  { s with zero := left - right = 0, carry := left < right }

/-- By how much a string instruction moves its pointers. -/
def stride (s : Core) (size : Word) : Word :=
  if s.direction then -size else size

/-- One turn of a string instruction. -/
def turn (s : Core) : StringOp → Core
  | .stosl =>
    { s.set .edi (s.reg .edi + s.stride 4) with mem := store s.mem (s.reg .edi) (s.reg .eax) }
  | .movsl =>
    { (s.set .edi (s.reg .edi + s.stride 4)).set .esi (s.reg .esi + s.stride 4) with
      mem := store s.mem (s.reg .edi) (load s.mem (s.reg .esi)) }
  | .movsb =>
    { (s.set .edi (s.reg .edi + s.stride 1)).set .esi (s.reg .esi + s.stride 1) with
      mem := Function.update s.mem (s.reg .edi) (s.mem (s.reg .esi)) }

/-- One turn under the repeat prefix, which counts `ecx` down. -/
def repTurn (op : StringOp) (s : Core) : Core :=
  (s.turn op).set .ecx (s.reg .ecx - 1)

/-- What an instruction does, apart from where it jumps. -/
def execute {Label : Type} (s : Core) : Instr Label → Core
  | .testl src dst => s.logic (s.value src &&& s.reg dst)
  | .cmpl src dst => s.compare (s.reg dst) (s.value src)
  | .addl src dst =>
    let result := s.reg dst + s.value src
    { s.set dst result with zero := result = 0, carry := result < s.reg dst }
  | .subl src dst => (s.compare (s.reg dst) (s.value src)).set dst (s.reg dst - s.value src)
  | .andl src dst => (s.logic (s.reg dst &&& s.value src)).set dst (s.reg dst &&& s.value src)
  | .shrl count dst =>
    let result := s.reg dst >>> count
    -- The carry is the last bit that is shifted out.
    { s.set dst result with zero := result = 0, carry := (s.reg dst).getLsbD (count - 1) }
  | .movl src dst => s.set dst (s.value src)
  | .leal disp base index dst => s.set dst (disp + s.reg base + s.reg index)
  | .loadAl address => s.set .eax ((s.reg .eax).extractLsb' 8 24 ++ s.mem (s.reg address))
  | .storeAl address =>
    { s with mem := Function.update s.mem (s.reg address) ((s.reg .eax).extractLsb' 0 8) }
  | .movwDsDx => s.set .edx ((s.reg .edx).extractLsb' 16 16 ++ s.ds)
  | .movwDxEs => { s with es := (s.reg .edx).extractLsb' 0 16 }
  | .cld => { s with direction := false }
  | .std => { s with direction := true }
  | .rep op => (repTurn op)^[(s.reg .ecx).toNat] s
  | .jmp _ | .jz _ | .jae _ => s

/-- A register that is tested against itself is compared with zero. -/
@[simp] theorem testl_self {Label : Type} (s : Core) (r : Reg) :
    (s.execute (.testl (.reg r) r : Instr Label)).zero = decide ((s.reg r).toNat = 0) := by
  simp [execute, logic, value, BitVec.toNat_eq]

/-- A register that is counted down. -/
theorem subl_one {Label : Type} {s : Core} {r : Reg} {left : Nat}
    (count : (s.reg r).toNat = left + 1) :
    ((s.execute (.subl (.imm 1) r : Instr Label)).reg r).toNat = left := by
  simp only [execute, compare, set, value, Function.update_self]
  bv_omega

/-- Upwards the pointers grow. -/
theorem stride_up {s : Core} (upwards : s.direction = false) (size : Word) :
    s.stride size = size := by
  rw [stride, if_neg (by rw [upwards]; decide)]

/-- Downwards the pointers shrink. -/
theorem stride_down {s : Core} (downwards : s.direction = true) (size : Word) :
    s.stride size = -size :=
  if_pos downwards

/-- A turn leaves the direction alone. -/
@[simp] theorem repTurn_direction (op : StringOp) (s : Core) :
    (repTurn op s).direction = s.direction := by
  cases op <;> rfl

/-- A turn leaves `edx` alone. -/
@[simp] theorem repTurn_edx (op : StringOp) (s : Core) : (repTurn op s).reg .edx = s.reg .edx := by
  cases op <;> rfl

end Core

section Execution

variable {Label : Type} [DecidableEq Label]

/-- The code from a label on. -/
def target (name : Label) : List (Line Label) → List (Line Label)
  | [] => []
  | .label other :: rest => if other = name then rest else target name rest
  | .instr _ :: rest => target name rest

/-- The code that follows an instruction. -/
def follow (code : List (Line Label)) (s : Core) (rest : List (Line Label)) :
    Instr Label → List (Line Label)
  | .jmp name => target name code
  | .jz name => if s.zero then target name code else rest
  | .jae name => if s.carry then rest else target name code
  | _ => rest

/-- No label stands in a block of instructions. -/
@[simp] theorem target_block (name : Label) (block : List (Instr Label))
    (rest : List (Line Label)) :
    target name (block.map .instr ++ rest) = target name rest := by
  induction block with
  | nil => rfl
  | cons i block ih => exact ih

/-- Execute from some line on, where `none` means that the end is not reached in so many steps. -/
def exec (code : List (Line Label)) : Nat → List (Line Label) → Core → Option Core
  | _, [], s => some s
  | 0, _ :: _, _ => none
  | fuel + 1, .label _ :: rest, s => exec code fuel rest s
  | fuel + 1, .instr i :: rest, s => exec code fuel (follow code s rest i) (s.execute i)

/-- More steps than are needed give the same state. -/
theorem exec_more {code : List (Line Label)} {fuel more : Nat} {rest : List (Line Label)}
    {s last : Core} (run : exec code fuel rest s = some last) (enough : fuel ≤ more) :
    exec code more rest s = some last := by
  -- The steps are taken one by one, and each takes one from both numbers.
  induction fuel generalizing more rest s with
  | zero =>
    cases rest with
    | nil => simpa only [exec] using run
    | cons line rest => nomatch run
  | succ fuel ih =>
    cases rest with
    | nil => simpa only [exec] using run
    | cons line rest =>
      obtain ⟨more, rfl⟩ : ∃ less, more = less + 1 := ⟨more - 1, by omega⟩
      cases line with
      | label name =>
        show exec code more rest s = some last
        exact ih run (by omega)
      | instr i =>
        show exec code more (follow code s rest i) (s.execute i) = some last
        exact ih run (by omega)

/-- Execution from some line on comes to an end in a state with a property. -/
def Ends (code rest : List (Line Label)) (s : Core) (property : Core → Prop) : Prop :=
  ∃ fuel last, exec code fuel rest s = some last ∧ property last

namespace Ends

variable {code rest : List (Line Label)} {s : Core} {property : Core → Prop}

/-- The property may be weakened. -/
theorem weaken {other : Core → Prop} (ends : Ends code rest s property)
    (weaker : ∀ t, property t → other t) : Ends code rest s other := by
  obtain ⟨fuel, last, run, holds⟩ := ends
  exact ⟨fuel, last, run, weaker last holds⟩

/-- At the end of the code. -/
theorem done (holds : property s) : Ends code [] s property :=
  ⟨0, s, rfl, holds⟩

/-- A label is passed. -/
theorem label {name : Label} (behind : Ends code rest s property) :
    Ends code (.label name :: rest) s property := by
  obtain ⟨fuel, last, run, holds⟩ := behind
  exact ⟨fuel + 1, last, run, holds⟩

/-- An instruction is executed. -/
theorem instr {i : Instr Label} (behind : Ends code (follow code s rest i) (s.execute i) property) :
    Ends code (.instr i :: rest) s property := by
  obtain ⟨fuel, last, run, holds⟩ := behind
  exact ⟨fuel + 1, last, run, holds⟩

/-- A block of instructions is executed in order. -/
theorem block {block : List (Instr Label)} (straight : ∀ i ∈ block, i.straight = true)
    (behind : Ends code rest (block.foldl Core.execute s) property) :
    Ends code (block.map .instr ++ rest) s property := by
  induction block generalizing s with
  | nil => exact behind
  | cons i block ih =>
    refine instr ?_
    have next : follow code s (block.map .instr ++ rest) i = block.map .instr ++ rest := by
      have plain := straight i List.mem_cons_self
      cases i <;> first | rfl | nomatch plain
    show Ends code (follow code s (block.map .instr ++ rest) i) (s.execute i) property
    rw [next]
    exact ih (fun j among => straight j (List.mem_cons_of_mem i among)) behind

/-- A conditional jump on zero that is taken. -/
theorem jz {name : Label} (zero : s.zero = true)
    (behind : Ends code (target name code) s property) :
    Ends code (.instr (.jz name) :: rest) s property := by
  refine instr ?_
  rw [follow, if_pos zero]
  exact behind

/-- A conditional jump on zero that is not taken. -/
theorem notZero {name : Label} (nonzero : s.zero = false) (behind : Ends code rest s property) :
    Ends code (.instr (.jz name) :: rest) s property := by
  refine instr ?_
  rw [follow, if_neg (by rw [nonzero]; decide)]
  exact behind

/-- A conditional jump on no carry that is taken. -/
theorem jae {name : Label} (above : s.carry = false)
    (behind : Ends code (target name code) s property) :
    Ends code (.instr (.jae name) :: rest) s property := by
  refine instr ?_
  rw [follow, if_neg (by rw [above]; decide)]
  exact behind

/-- A conditional jump on no carry that is not taken. -/
theorem below {name : Label} (carry : s.carry = true) (behind : Ends code rest s property) :
    Ends code (.instr (.jae name) :: rest) s property := by
  refine instr ?_
  rw [follow, if_pos carry]
  exact behind

end Ends

end Execution

/-- What each turn keeps holds after the repeated instruction. -/
theorem rep_invariant (Label : Type) (op : StringOp) {s : Core} (holds : Nat → Core → Prop)
    (start : holds 0 s)
    (kept : ∀ k < (s.reg .ecx).toNat, ∀ core, holds k core → holds (k + 1) (Core.repTurn op core)) :
    holds (s.reg .ecx).toNat (s.execute (.rep op : Instr Label)) := by
  have turns : ∀ k ≤ (s.reg .ecx).toNat, holds k ((Core.repTurn op)^[k] s) := by
    intro k
    induction k with
    | zero => exact fun _ => start
    | succ k ih =>
      intro within
      rw [Function.iterate_succ_apply']
      exact kept k within _ (ih (Nat.le_of_succ_le within))
  exact turns _ le_rfl

section Written

/-- The bytes at some distances from an address are written, and no other one is. -/
def Written (before after : Memory) (d : Word) (low high : Nat) (byte : Nat → BitVec 8) : Prop :=
  ∀ a, after a = if low ≤ (a - d).toNat ∧ (a - d).toNat < high then byte (a - d).toNat else before a

variable {before after : Memory} {d : Word} {low high : Nat} {byte : Nat → BitVec 8}

namespace Written

/-- Nothing is written at first. -/
theorem none (mem : Memory) (d : Word) (low : Nat) (byte : Nat → BitVec 8) :
    Written mem mem d low low byte :=
  fun _ => (if_neg (by omega)).symm

/-- A byte outside is as it was. -/
theorem outside (written : Written before after d low high byte) {a : Word}
    (away : (a - d).toNat < low ∨ high ≤ (a - d).toNat) : after a = before a := by
  rw [written a, if_neg (by omega)]

/-- The byte above is written next. -/
theorem byteAbove (written : Written before after d low high byte) (room : high < 2 ^ 32)
    (start : low ≤ high) :
    Written before (Function.update after (d + BitVec.ofNat 32 high) (byte high)) d low (high + 1)
      byte := by
  intro a
  rw [Function.update_apply, written a]
  by_cases here : a = d + BitVec.ofNat 32 high
  · have distance : (a - d).toNat = high := by bv_omega
    rw [if_pos here, distance, if_pos (by omega)]
  · have distance : (a - d).toNat ≠ high := by bv_omega
    rw [if_neg here]
    congr 1
    simp only [eq_iff_iff]
    omega

/-- The byte below is written next. -/
theorem byteBelow (written : Written before after d (low + 1) high byte) (room : low < 2 ^ 32)
    (inside : low < high) :
    Written before (Function.update after (d + BitVec.ofNat 32 low) (byte low)) d low high
      byte := by
  intro a
  rw [Function.update_apply, written a]
  by_cases here : a = d + BitVec.ofNat 32 low
  · have distance : (a - d).toNat = low := by bv_omega
    rw [if_pos here, distance, if_pos (by omega)]
  · have distance : (a - d).toNat ≠ low := by bv_omega
    rw [if_neg here]
    congr 1
    simp only [eq_iff_iff]
    omega

/-- The four bytes above are written next. -/
theorem wordAbove (written : Written before after d low high byte) (room : high + 4 ≤ 2 ^ 32)
    (start : low ≤ high) {value : Word}
    (bytes : ∀ i < 4, value.extractLsb' (8 * i) 8 = byte (high + i)) :
    Written before (store after (d + BitVec.ofNat 32 high) value) d low (high + 4) byte := by
  intro a
  rw [store]
  by_cases here : (a - (d + BitVec.ofNat 32 high)).toNat < 4
  · have distance : (a - d).toNat = high + (a - (d + BitVec.ofNat 32 high)).toNat := by bv_omega
    rw [if_pos here, bytes _ here, distance, if_pos (by omega)]
  · have distance : (a - d).toNat < high ∨ high + 4 ≤ (a - d).toNat := by bv_omega
    rw [if_neg here, written a]
    congr 1
    simp only [eq_iff_iff]
    omega

/-- Without a wrap the bytes written are those of an interval of addresses. -/
theorem interval (written : Written before after d 0 high byte) (fits : d.toNat + high ≤ 2 ^ 32)
    (a : Word) : after a =
      if d.toNat ≤ a.toNat ∧ a.toNat < d.toNat + high then byte (a.toNat - d.toNat)
      else before a := by
  rw [written a]
  by_cases inside : d.toNat ≤ a.toNat ∧ a.toNat < d.toNat + high
  · have distance : (a - d).toNat = a.toNat - d.toNat := by bv_omega
    rw [if_pos inside, distance, if_pos (by omega)]
  · have distance : high ≤ (a - d).toNat := by bv_omega
    rw [if_neg inside, if_neg (by omega)]

end Written

/-- A byte of a loaded word is a byte of memory. -/
theorem extract_load (mem : Memory) (a : Word) {i : Nat} (byte : i < 4) :
    (load mem a).extractLsb' (8 * i) 8 = mem (a + BitVec.ofNat 32 i) := by
  refine BitVec.eq_of_getLsbD_eq fun j inside => ?_
  simp only [load, BitVec.getLsbD_extractLsb', BitVec.getLsbD_append, inside, decide_true,
    Bool.true_and]
  -- A bit is taken from the part of the load that its number of whole bytes names.
  interval_cases i
  · have zero : a + BitVec.ofNat 32 0 = a := by bv_omega
    rw [zero, if_pos (by omega), Nat.mul_zero, Nat.zero_add]
  · have bit : 8 * 1 + j - 8 = j := by omega
    rw [if_neg (by omega), if_pos (by omega), bit]
    rfl
  · have bit : 8 * 2 + j - 8 - 8 = j := by omega
    rw [if_neg (by omega), if_neg (by omega), if_pos (by omega), bit]
    rfl
  · have bit : 8 * 3 + j - 8 - 8 - 8 = j := by omega
    rw [if_neg (by omega), if_neg (by omega), if_neg (by omega), bit]
    rfl

/-- The bytes of a word of four equal bytes. -/
theorem extract_spread (c : Word) {i : Nat} (byte : i < 4) :
    ((c &&& 0xFF) <<< 24 ||| (c &&& 0xFF) <<< 16 ||| (c &&& 0xFF) <<< 8 |||
      (c &&& 0xFF)).extractLsb' (8 * i) 8 = c.setWidth 8 := by
  -- The mask keeps the lowest byte, which is looked at bit by bit in each of its four places.
  have mask : ∀ k, (0xFF : Word).getLsbD k = decide (k < 8) := Nat.testBit_two_pow_sub_one 8
  refine BitVec.eq_of_getLsbD_eq fun j inside => ?_
  simp only [BitVec.getLsbD_extractLsb', BitVec.getLsbD_or, BitVec.getLsbD_shiftLeft,
    BitVec.getLsbD_and, BitVec.getLsbD_setWidth, mask]
  interval_cases i
  · grind
  · grind
  · grind
  · grind

end Written

end Foundation.Assembly
