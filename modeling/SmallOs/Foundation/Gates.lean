import SmallOs.Foundation.CallFrames

/-! The rings of the i386: descriptors of segments and gates, and the delivery of interrupts. -/

namespace Foundation.I386

/-- An entry of the table of segments, or of the table of gates. -/
abbrev Descriptor := BitVec 64

namespace Descriptor

/-- Whether there is something behind the descriptor. -/
def present (d : Descriptor) : Bool :=
  d.getLsbD 47

/-- The ring of a segment, or the outermost ring whose instructions may use a gate. -/
def level (d : Descriptor) : Nat :=
  (d.extractLsb' 45 2).toNat

/-- The type, and above it the bit that tells segments of memory from everything else. -/
def kind (d : Descriptor) : BitVec 5 :=
  d.extractLsb' 40 5

/-- The segment behind a gate. -/
def selector (d : Descriptor) : BitVec 16 :=
  d.extractLsb' 16 16

/-- The address behind a gate. -/
def offset (d : Descriptor) : Word :=
  d.extractLsb' 48 16 ++ d.extractLsb' 0 16

/-- A gate that shuts interrupts out. -/
def isInterruptGate (d : Descriptor) : Bool :=
  d.kind = 0b01110

/-- A gate that leaves interrupts as they are. -/
def isTrapGate (d : Descriptor) : Bool :=
  d.kind = 0b01111

/-- A segment of code. -/
def isCode (d : Descriptor) : Bool :=
  d.kind.getLsbD 4 && d.kind.getLsbD 3

/-- Code that runs in the ring of whoever enters it. -/
def isConforming (d : Descriptor) : Bool :=
  d.kind.getLsbD 2

/-- A segment of data that can be written, as a stack has to be. -/
def isStack (d : Descriptor) : Bool :=
  d.kind.getLsbD 4 && !d.kind.getLsbD 3 && d.kind.getLsbD 1

end Descriptor

/-- Who raises an interrupt. -/
inductive Cause where
  /-- An instruction of the code that runs. -/
  | instruction
  /-- A device, or an exception, which may come with an error code. -/
  | external (code : Option Word)
  deriving DecidableEq, Repr

namespace Cause

/-- The bit in which the error code of a fault names the cause. -/
def bit : Cause → Word
  | .instruction => 0
  | .external _ => 1

/-- The error code that is pushed. -/
def code : Cause → Option Word
  | .instruction => none
  | .external code => code

end Cause

/-- An exception that keeps an interrupt from being delivered. -/
structure Fault where
  vector : BitVec 8
  code : Word
  deriving DecidableEq, Repr

/-- The tables an interrupt is delivered with. -/
structure Tables where
  gdt : List Descriptor
  idt : List Descriptor
  /-- The stacks of the inner rings in the task state segment. -/
  innerStack : Nat → BitVec 16 × Word

/-- `iret` to an outer ring takes the stack of the ring with it. -/
theorem exec_iret_outward {α : Type*} (functions : α → Cpu → Cpu) {c : Cpu}
    {eip cs eflags esp ss : Word} (stacked : c.Stacked [eip, cs, eflags, esp, ss])
    (outward : Cpu.ring (cs.setWidth 16) ≠ Cpu.ring c.cs) :
    exec functions c .iret =
      { c with
        eip := eip
        cs := cs.setWidth 16
        eflags := eflags
        esp := esp
        ss := ss.setWidth 16 } := by
  have word0 : c.word 0 = eip := stacked.word rfl
  have word1 : c.word 1 = cs := stacked.word rfl
  have word2 : c.word 2 = eflags := stacked.word rfl
  have word3 : c.word 3 = esp := stacked.word rfl
  have word4 : c.word 4 = ss := stacked.word rfl
  simp only [exec, Cpu.drop, word0, word1, word2, word3, word4, if_neg outward]

namespace Tables

/-- The descriptor a selector names, where a local table names none. -/
def segment (t : Tables) (selector : BitVec 16) : Option Descriptor :=
  if selector.getLsbD 2 ∨ selector >>> 3 = 0 then none else t.gdt[(selector >>> 3).toNat]?

/-- The flags behind a gate: three modes of the interrupted code end, and nested tasks. -/
def entryFlags (gate : Descriptor) (eflags : Word) : Word :=
  (if gate.isTrapGate then eflags else eflags &&& ~~~interruptFlag) &&& 0xFFFCBEFF

/-- The entry through a gate, which pushes the error code of an exception above the frame. -/
def through (gate : Descriptor) (cs ss0 : BitVec 16) (esp0 : Word) (code : Option Word) (c : Cpu) :
    Cpu :=
  let entered := enter ⟨cs, ss0, esp0⟩ c
  { code.elim entered entered.push with
    eip := gate.offset
    eflags := entryFlags gate c.eflags }

/-- The entry into a ring, whose stack is tested when the ring is another than before. -/
def enterRing (t : Tables) (cause : Cause) (gate : Descriptor) (ring : Nat) (c : Cpu) :
    Except Fault Cpu :=
  -- The ring that is entered is also the one in the selector that is loaded.
  let cs := gate.selector &&& ~~~3 ||| BitVec.ofNat 16 ring
  if ring = (Cpu.ring c.cs).toNat then .ok (through gate cs c.ss c.esp cause.code c)
  else
    let (ss, esp) := t.innerStack ring
    let invalid : Fault := ⟨10, ss.setWidth 32 &&& ~~~3 ||| cause.bit⟩
    match t.segment ss with
    | none => .error invalid
    | some stack =>
      if (Cpu.ring ss).toNat ≠ ring ∨ stack.level ≠ ring ∨ ¬ stack.isStack then .error invalid
      else if ¬ stack.present then .error ⟨12, ss.setWidth 32 &&& ~~~3 ||| cause.bit⟩
      else .ok (through gate cs ss esp cause.code c)

/--
The delivery of an interrupt, or the exception it ends in.

The gates of tasks and those of 16 bits are taken for entries that are not gates.
-/
def deliver (t : Tables) (cause : Cause) (vector : BitVec 8) (c : Cpu) : Except Fault Cpu :=
  let entry := 8 * vector.setWidth 32 + 2 + cause.bit
  let ring := (Cpu.ring c.cs).toNat
  match t.idt[vector.toNat]? with
  | none => .error ⟨13, entry⟩
  | some gate =>
    -- Only an instruction needs a right to the gate.
    if ¬ (gate.isInterruptGate ∨ gate.isTrapGate) ∨ cause = .instruction ∧ gate.level < ring then
      .error ⟨13, entry⟩
    else if ¬ gate.present then .error ⟨11, entry⟩
    else
      let named := gate.selector.setWidth 32 &&& ~~~3 ||| cause.bit
      match t.segment gate.selector with
      | none => .error ⟨13, named⟩
      | some target =>
        if ¬ target.isCode ∨ ring < target.level then .error ⟨13, named⟩
        else if ¬ target.present then .error ⟨11, named⟩
        else t.enterRing cause gate (if target.isConforming then ring else target.level) c

/-- An interrupt with the exception it may end in, where `none` means that this one fails as well. -/
def interrupt (t : Tables) (cause : Cause) (vector : BitVec 8) (c : Cpu) : Option Cpu :=
  match t.deliver cause vector c with
  | .ok entered => some entered
  | .error fault => (t.deliver (.external (some fault.code)) fault.vector c).toOption

section Through

variable (gate : Descriptor) {cs : BitVec 16} (ss0 : BitVec 16) (esp0 : Word) (code : Option Word)
  {c : Cpu}

/-- Behind a gate the error code is on top of the stack, and below it the frame. -/
theorem through_stacked : (through gate cs ss0 esp0 code c).Stacked
    (code.toList ++ frame ⟨cs, ss0, esp0⟩ c) := by
  have framed := enter_stacked ⟨cs, ss0, esp0⟩ c
  have few : (frame ⟨cs, ss0, esp0⟩ c).length ≤ 5 := by
    unfold frame
    split <;> simp
  cases code with
  | none => exact framed
  | some value => exact framed.push value (by omega)

/-- The registers an entry into an inner ring changes, apart from the stack pointer. -/
theorem through_inner (inner : Cpu.ring c.cs ≠ Cpu.ring cs) :
    (through gate cs ss0 esp0 code c).cs = cs ∧ (through gate cs ss0 esp0 code c).ss = ss0 ∧
      (through gate cs ss0 esp0 code c).esp =
        esp0 - BitVec.ofNat 32 (4 * (code.toList.length + 5)) := by
  obtain ⟨mem, eflags, entered⟩ := enter_registers ⟨cs, ss0, esp0⟩ c
  have five : (frame ⟨cs, ss0, esp0⟩ c).length = 5 := by simp [frame, inner]
  simp only [five, if_neg inner] at entered
  cases code with
  | none => simp [through, entered]
  | some value =>
    have lower : esp0 - 20#32 - 4#32 = esp0 - 24#32 := by bv_omega
    simp [through, entered, Cpu.push, lower]

/-- An entry into an inner ring writes right below the top of its stack only. -/
theorem through_away (inner : Cpu.ring c.cs ≠ Cpu.ring cs) {b : Word}
    (away : 4 * (code.toList.length + 5) ≤
      (b - (esp0 - BitVec.ofNat 32 (4 * (code.toList.length + 5)))).toNat) :
    (through gate cs ss0 esp0 code c).mem b = c.mem b := by
  obtain ⟨mem, eflags, entered⟩ := enter_registers ⟨cs, ss0, esp0⟩ c
  have five : (frame ⟨cs, ss0, esp0⟩ c).length = 5 := by simp [frame, inner]
  have framed : 20 ≤ (b - (esp0 - 20)).toNat → (enter ⟨cs, ss0, esp0⟩ c).mem b = c.mem b := by
    intro beyond
    refine enter_away _ c ?_
    rw [five, entryStack, if_neg inner]
    exact beyond
  have top : (enter ⟨cs, ss0, esp0⟩ c).esp = esp0 - 20 := by simp [entered, five, inner]
  cases code with
  | none => exact framed away
  | some value =>
    -- The frame ends where the error code begins.
    have below : 24 ≤ (b - (esp0 - 24)).toNat := away
    have code : esp0 - 20 - 4 = esp0 - 24 := by bv_omega
    have rest : b - (esp0 - 20) = b - (esp0 - 24) - 4 := by bv_omega
    refine (if_neg ?_).trans (framed ?_)
    · rw [top, code]
      omega
    · rw [rest]
      generalize b - (esp0 - 24) = distance at below ⊢
      bv_omega

end Through

/-- The way through a gate into a ring is open, with a stack for whoever comes from outside. -/
structure LeadsInto (t : Tables) (gate : Descriptor) (ring : Nat) : Prop where
  kind : gate.isInterruptGate ∨ gate.isTrapGate
  present : gate.present
  target : ∃ segment, t.segment gate.selector = some segment ∧ segment.isCode ∧
    ¬ segment.isConforming ∧ segment.level = ring ∧ segment.present
  stack : ∃ segment, t.segment (t.innerStack ring).1 = some segment ∧ segment.isStack ∧
    segment.level = ring ∧ segment.present
  selector : (Cpu.ring (t.innerStack ring).1).toNat = ring

section Delivery

variable {t : Tables} {gate : Descriptor} {ring : Nat} {cause : Cause} {vector : BitVec 8}
  {c : Cpu}

/-- The selector that is loaded when a gate leads into a ring. -/
def enteredCs (gate : Descriptor) (ring : Nat) : BitVec 16 :=
  gate.selector &&& ~~~3 ||| BitVec.ofNat 16 ring

/-- An interrupt whose gate is open, and may be used, is delivered on the stack of the ring. -/
theorem LeadsInto.deliver (leads : t.LeadsInto gate ring) (entry : t.idt[vector.toNat]? = some gate)
    (inner : ring < (Cpu.ring c.cs).toNat)
    (allowed : cause = .instruction → (Cpu.ring c.cs).toNat ≤ gate.level) :
    t.deliver cause vector c = .ok (through gate (enteredCs gate ring)
      (t.innerStack ring).1 (t.innerStack ring).2 cause.code c) := by
  obtain ⟨kind, present, ⟨target, named, isCode, plain, level, there⟩,
    ⟨stack, stacked, writable, stackLevel, stackThere⟩, selector⟩ := leads
  have right : ¬ (cause = .instruction ∧ gate.level < (Cpu.ring c.cs).toNat) :=
    fun refused => absurd (allowed refused.1) (by omega)
  have outward : ¬ (Cpu.ring c.cs).toNat < target.level := by omega
  have other : ring ≠ (Cpu.ring c.cs).toNat := by omega
  -- None of the tests on the way fails.
  simp only [Tables.deliver, entry, kind, present, named, isCode, there, right, outward, not_true,
    or_self, if_false]
  rw [if_neg plain, level]
  simp [enterRing, other, stacked, writable, stackLevel, stackThere, selector, enteredCs]

/-- An instruction that may not use a gate raises the general protection exception. -/
theorem deliver_refused (entry : t.idt[vector.toNat]? = some gate)
    (refused : gate.level < (Cpu.ring c.cs).toNat) :
    t.deliver .instruction vector c = .error ⟨13, 8 * vector.setWidth 32 + 2⟩ := by
  simp [Tables.deliver, entry, refused, Cause.bit]

/-- An interrupt that is delivered raises no exception. -/
theorem LeadsInto.interrupt (leads : t.LeadsInto gate ring)
    (entry : t.idt[vector.toNat]? = some gate) (inner : ring < (Cpu.ring c.cs).toNat)
    (allowed : cause = .instruction → (Cpu.ring c.cs).toNat ≤ gate.level) :
    t.interrupt cause vector c = some (through gate (enteredCs gate ring)
      (t.innerStack ring).1 (t.innerStack ring).2 cause.code c) := by
  unfold Tables.interrupt
  rw [leads.deliver entry inner allowed]

/-- An instruction that is refused ends behind the gate of the general protection exception. -/
theorem LeadsInto.interrupt_refused {protection : Descriptor} (leads : t.LeadsInto protection ring)
    (entry : t.idt[vector.toNat]? = some gate) (refused : gate.level < (Cpu.ring c.cs).toNat)
    (exception : t.idt[13]? = some protection) (inner : ring < (Cpu.ring c.cs).toNat) :
    t.interrupt .instruction vector c = some (through protection (enteredCs protection ring)
      (t.innerStack ring).1 (t.innerStack ring).2 (some (8 * vector.setWidth 32 + 2)) c) := by
  unfold Tables.interrupt
  rw [deliver_refused entry refused]
  simp only
  -- Nobody needs a right to the gate of an exception.
  have raised : t.deliver (.external (some (8 * vector.setWidth 32 + 2))) 13 c =
      .ok (through protection (enteredCs protection ring) (t.innerStack ring).1
        (t.innerStack ring).2 (some (8 * vector.setWidth 32 + 2)) c) :=
    leads.deliver exception inner nofun
  rw [raised]
  rfl

end Delivery

end Tables

end Foundation.I386
