import SmallOs.Foundation.Memory
import SmallOs.Kernel.Gates

/-! Every vector leads to its handler, and programs may raise that of the system calls only. -/

namespace SmallOs

open Foundation Foundation.I386

/-- The entry of a vector as `idt_init` leaves it. -/
def idtEntry (link : Handler → Word) (n : Nat) : IdtDesc :=
  { offset15_00 := (handlerAddress link n &&& 0xFFFF).setWidth 16
    segSelector := kernelCs
    reserved4 := 0
    reserved3 := if n < interrupt32 then 1 else 0
    reserved2 := 1
    reserved1 := 1
    size := 1
    reserved0 := 0
    dpl := if n = 0x80 then 3 else 0
    present := 1
    offset31_16 := ((handlerAddress link n &&& 0xFFFF0000) >>> 16).setWidth 16 }

section Packing

variable (d : IdtDesc)

/-- The processor finds each field where the structure has it. -/
theorem pack_present : d.pack.present = d.present.getLsbD 0 := by
  simp only [IdtDesc.pack, Descriptor.present, BitVec.getLsbD_append]
  rfl

theorem pack_level : d.pack.level = d.dpl.toNat := by
  -- The fields are compared bit by bit.
  unfold Descriptor.level
  congr 1
  refine BitVec.eq_of_getLsbD_eq fun i inside => ?_
  simp only [IdtDesc.pack, BitVec.getLsbD_extractLsb', BitVec.getLsbD_append]
  grind

theorem pack_kind :
    d.pack.kind = d.reserved0 ++ d.size ++ d.reserved1 ++ d.reserved2 ++ d.reserved3 := by
  refine BitVec.eq_of_getLsbD_eq fun i inside => ?_
  simp only [Descriptor.kind, IdtDesc.pack, BitVec.getLsbD_extractLsb', BitVec.getLsbD_append]
  grind

theorem pack_selector : d.pack.selector = d.segSelector := by
  refine BitVec.eq_of_getLsbD_eq fun i inside => ?_
  simp only [Descriptor.selector, IdtDesc.pack, BitVec.getLsbD_extractLsb', BitVec.getLsbD_append]
  grind

theorem pack_offset : d.pack.offset = d.offset31_16 ++ d.offset15_00 := by
  refine BitVec.eq_of_getLsbD_eq fun i inside => ?_
  simp only [Descriptor.offset, IdtDesc.pack, BitVec.getLsbD_extractLsb', BitVec.getLsbD_append]
  grind

end Packing

/-- The two halves of an address are put together again. -/
theorem halves_append (handler : Word) : ((handler &&& 0xFFFF0000) >>> 16).setWidth 16 ++
    (handler &&& 0xFFFF).setWidth 16 = handler := by
  -- A bit of the address is in the half that its place says.
  have high : ∀ i < 16, (0xFFFF0000#32).getLsbD (16 + i) = true := by decide
  have low : ∀ i < 16, (0xFFFF#32).getLsbD i = true := by decide
  refine BitVec.eq_of_getLsbD_eq fun i inside => ?_
  simp only [BitVec.getLsbD_append, BitVec.getLsbD_setWidth, BitVec.getLsbD_and,
    BitVec.getLsbD_ushiftRight]
  by_cases lower : i < 16
  · have kept := low i lower
    simp_all
  · have upper : i - 16 < 16 := by omega
    have place : 16 + (i - 16) = i := by omega
    have kept := high _ upper
    simp_all

/-- No vector is set twice. -/
theorem idtEntries_nodup : (idtEntries.map Prod.fst).Nodup := by
  decide

/-- What the two loops make of an entry: the exceptions have no handler yet. -/
theorem idtLoops_entry (link : Handler → Word) {n : Nat} (inside : n < numVec) :
    idtLoops link (fun _ => .zero) n =
      if n < interrupt32 then IdtDesc.zero.initException
      else IdtDesc.zero.initInterrupt (link .generalInterrupt) := by
  unfold idtLoops
  rw [foldl_update_range _ _ (IdtDesc.initInterrupt (link .generalInterrupt)),
    foldl_update_range _ _ IdtDesc.initException]
  -- The first loop ends where the second one begins.
  by_cases exception : n < interrupt32
  · rw [if_neg (by omega), if_pos (by omega), if_pos exception]
  · rw [if_pos (by omega), if_neg (by omega), if_neg exception]

/-- Every entry as `idt_init` leaves it. -/
theorem idtInit_entry (link : Handler → Word) {n : Nat} (inside : n < numVec) :
    idtInit link (fun _ => .zero) n = idtEntry link n := by
  -- The loops come first, then every handler once, and then the gate of the system calls.
  have set := foldl_update_once Prod.fst (fun entry d => IdtDesc.setIdtEntry d (link entry.2))
    idtEntries_nodup (idtLoops link fun _ => .zero) n
  rw [idtLoops_entry link inside] at set
  unfold idtInit
  by_cases call : n = 0x80
  · subst call
    rw [Function.update_self, set]
    rfl
  · rw [Function.update_of_ne call]
    refine set.trans ?_
    unfold idtEntry handlerAddress handlerOf
    cases found : idtEntries.find? fun entry => entry.1 = n with
    | none =>
      by_cases exception : n < interrupt32
      · simp [exception, call, IdtDesc.zero, IdtDesc.initException]
      · simp [exception, call, IdtDesc.initInterrupt, IdtDesc.setIdtEntry]
    | some entry =>
      by_cases exception : n < interrupt32
      · simp [exception, call, IdtDesc.zero, IdtDesc.initException, IdtDesc.setIdtEntry]
      · simp [exception, call, IdtDesc.initInterrupt, IdtDesc.setIdtEntry]

/-- Only the system calls may be raised by programs. -/
theorem idtEntry_level (link : Handler → Word) (n : Nat) :
    (idtEntry link n).pack.level = if n = 0x80 then 3 else 0 := by
  have level : (idtEntry link n).dpl = if n = 0x80 then 3 else 0 := rfl
  rw [pack_level, level]
  split <;> rfl

/-- Behind every gate is the code of the kernel. -/
theorem idtEntry_selector (link : Handler → Word) (n : Nat) :
    (idtEntry link n).pack.selector = kernelCs :=
  pack_selector _

/-- The address behind every gate is the one of its handler. -/
theorem idtEntry_offset (link : Handler → Word) (n : Nat) :
    (idtEntry link n).pack.offset = handlerAddress link n := by
  rw [pack_offset]
  exact halves_append _

/-- Exceptions have trap gates, and everything else interrupt gates. -/
theorem idtEntry_trap (link : Handler → Word) (n : Nat) :
    (idtEntry link n).pack.isTrapGate = decide (n < interrupt32) ∧
      (idtEntry link n).pack.isInterruptGate = decide (¬ n < interrupt32) := by
  unfold Descriptor.isTrapGate Descriptor.isInterruptGate
  rw [pack_kind]
  by_cases exception : n < interrupt32
  · simp [idtEntry, exception]
  · simp [idtEntry, exception]

section Delivery

variable {link : Handler → Word} {tssDesc ldtDesc : Descriptor} {tss : Tss} {c : Cpu}

/-- The processor finds the entries of `idt_init`. -/
theorem kernelTables_idt {n : Nat} (inside : n < numVec) :
    (kernelTables link tssDesc ldtDesc tss).idt[n]? = some (idtEntry link n).pack := by
  simp [kernelTables, inside, idtInit_entry link inside]

/-- The stack of the innermost ring, with the selector as the processor reads it. -/
theorem innerStack_zero (link : Handler → Word) (tssDesc ldtDesc : Descriptor)
    (stack : tss.ss0 = kernelDs) : (kernelTables link tssDesc ldtDesc tss).innerStack 0 =
      (0x0018, BitVec.ofNat 32 tss.esp0) := by
  simp [kernelTables, stack, kernelDs]

/-- Every gate leads into the kernel, where the task state segment has the kernel's stack segment. -/
theorem kernelTables_leads (stack : tss.ss0 = kernelDs) (n : Nat) :
    (kernelTables link tssDesc ldtDesc tss).LeadsInto (idtEntry link n).pack 0 := by
  -- The gate is present and of one of the two kinds, and both selectors are in the table.
  have inner := innerStack_zero link tssDesc ldtDesc stack
  have there : (idtEntry link n).pack.present = true := by
    have present : (idtEntry link n).present = 1 := rfl
    rw [pack_present, present]
    decide
  refine ⟨?_, there, ⟨0x00CF9A000000FFFF, ?_, by decide, by decide, by decide, by decide⟩,
    ⟨0x00CF92000000FFFF, ?_, by decide, by decide, by decide⟩, ?_⟩
  · rw [(idtEntry_trap link n).1, (idtEntry_trap link n).2]
    simp only [decide_eq_true_eq]
    exact (Decidable.em _).symm
  · rw [idtEntry_selector]
    rfl
  · rw [inner]
    simp only
    rfl
  · rw [inner]
    simp only
    rfl

/-- The vector whose gate is entered when a program, or something else, raises one. -/
def takenVector (cause : Cause) (vector : BitVec 8) : Nat :=
  if cause = .instruction ∧ vector ≠ 0x80 then 13 else vector.toNat

/-- The error code that is pushed then. -/
def takenCode (cause : Cause) (vector : BitVec 8) : Option Word :=
  if cause = .instruction ∧ vector ≠ 0x80 then some (8 * vector.setWidth 32 + 2) else cause.code

/-- Whatever a program is interrupted by, it goes on behind the gate of one vector. -/
theorem interrupt_program (stack : tss.ss0 = kernelDs) (program : Cpu.ring c.cs = 3) (cause : Cause)
    (vector : BitVec 8) : (kernelTables link tssDesc ldtDesc tss).interrupt cause vector c =
      some (Tables.through (idtEntry link (takenVector cause vector)).pack kernelCs
        0x0018 (BitVec.ofNat 32 tss.esp0) (takenCode cause vector) c) := by
  have inner := innerStack_zero link tssDesc ldtDesc stack
  have ring : (Cpu.ring c.cs).toNat = 3 := congrArg BitVec.toNat program
  have small : vector.toNat < numVec := vector.isLt
  have loaded : ∀ n, Tables.enteredCs (idtEntry link n).pack 0 = kernelCs := by
    intro n
    unfold Tables.enteredCs
    rw [idtEntry_selector]
    rfl
  have entry : (kernelTables link tssDesc ldtDesc tss).idt[vector.toNat]? =
      some (idtEntry link vector.toNat).pack := kernelTables_idt small
  unfold takenVector takenCode
  -- An instruction is refused at every gate but one.
  by_cases refused : cause = .instruction ∧ vector ≠ 0x80
  · obtain ⟨rfl, other⟩ := refused
    have level : (idtEntry link vector.toNat).pack.level = 0 := by
      have differ : vector.toNat ≠ 0x80 := fun same => other (BitVec.eq_of_toNat_eq same)
      rw [idtEntry_level, if_neg differ]
    have done := (kernelTables_leads stack 13).interrupt_refused entry
      (by rw [level, ring]; decide) (kernelTables_idt (by decide)) (by rw [ring]; decide)
    rw [done, inner, loaded, if_pos ⟨rfl, other⟩, if_pos ⟨rfl, other⟩]
  · have allowed : cause = .instruction →
        (Cpu.ring c.cs).toNat ≤ (idtEntry link vector.toNat).pack.level := by
      intro instruction
      have call : vector = 0x80 := by
        by_contra other
        exact refused ⟨instruction, other⟩
      subst call
      rw [ring, idtEntry_level]
      decide
    have done := (kernelTables_leads stack vector.toNat).interrupt entry (by rw [ring]; decide)
      allowed
    rw [done, inner, loaded, if_neg refused, if_neg refused]

/-- How the kernel is entered when a program is interrupted. -/
structure KernelEntered (link : Handler → Word) (tss : Tss) (cause : Cause) (vector : BitVec 8)
    (before after : Cpu) : Prop where
  eip : after.eip = handlerAddress link (takenVector cause vector)
  cs : after.cs = kernelCs
  ss : after.ss = BitVec.ofNat 16 kernelDs
  /-- Exceptions leave interrupts as they are. -/
  eflags : after.eflags &&& interruptFlag =
    if takenVector cause vector < interrupt32 then before.eflags &&& interruptFlag else 0
  esp : after.esp = BitVec.ofNat 32 tss.esp0 -
    BitVec.ofNat 32 (4 * ((takenCode cause vector).toList.length + 5))
  stacked : after.Stacked ((takenCode cause vector).toList ++
    [before.eip, before.cs.setWidth 32, before.eflags, before.esp, before.ss.setWidth 32])
  /-- Nothing is written but the words on top of the stack. -/
  away : ∀ b, 4 * ((takenCode cause vector).toList.length + 5) ≤ (b - after.esp).toNat →
    after.mem b = before.mem b
  /-- The system calls and the devices find what their stubs are entered with. -/
  gate : ¬ takenVector cause vector < interrupt32 → takenCode cause vector = none →
    ∃ eip eflags, after =
      { enter (interruptGate tss) before with eip := eip, eflags := eflags }

/-- A program never gets past the gates, whatever it does. -/
theorem kernelEntered (stack : tss.ss0 = kernelDs) (program : Cpu.ring c.cs = 3) (cause : Cause)
    (vector : BitVec 8) : ∃ after,
      (kernelTables link tssDesc ldtDesc tss).interrupt cause vector c = some after ∧
        KernelEntered link tss cause vector c after := by
  -- The program comes from the outermost ring, so the stack is that of the task state segment.
  have outer : Cpu.ring c.cs ≠ Cpu.ring kernelCs := by
    rw [program]
    decide
  let gate := (idtEntry link (takenVector cause vector)).pack
  let code := takenCode cause vector
  obtain ⟨cs, ss, esp⟩ := Tables.through_inner gate 0x0018 (BitVec.ofNat 32 tss.esp0) code outer
  refine ⟨_, interrupt_program stack program cause vector, idtEntry_offset _ _, cs, ss, ?_, esp, ?_,
    ?_, ?_⟩
  · have trap := (idtEntry_trap link (takenVector cause vector)).1
    change Tables.entryFlags gate c.eflags &&& interruptFlag = _
    unfold Tables.entryFlags
    rw [trap]
    by_cases exception : takenVector cause vector < interrupt32
    · simp only [exception, decide_true, if_true]
      rw [BitVec.and_assoc]
      congr 1
    · have shut : ~~~interruptFlag &&& (0xFFFCBEFF &&& interruptFlag) = 0 := by decide
      simp only [exception, decide_false, if_false, Bool.false_eq_true]
      rw [BitVec.and_assoc, BitVec.and_assoc, shut]
      exact BitVec.and_zero
  · have stacked : (Tables.through gate kernelCs 0x0018 (BitVec.ofNat 32 tss.esp0) code c).Stacked
        (code.toList ++ frame ⟨kernelCs, 0x0018, BitVec.ofNat 32 tss.esp0⟩ c) :=
      Tables.through_stacked gate 0x0018 (BitVec.ofNat 32 tss.esp0) code
    unfold frame at stacked
    rw [if_neg outer] at stacked
    exact stacked
  · intro b away
    rw [esp] at away
    exact Tables.through_away gate 0x0018 _ code outer away
  · intro other plain
    have same : interruptGate tss = ⟨kernelCs, 0x0018, BitVec.ofNat 32 tss.esp0⟩ := by
      unfold interruptGate
      rw [stack]
      rfl
    rw [same, plain]
    exact ⟨_, _, rfl⟩

end Delivery

/-- A program that `execute` enters: in the outermost ring, with interrupts let in. -/
structure InProgram (entryPoint : Word) (c : Cpu) : Prop where
  ring : Cpu.ring c.cs = 3
  eip : c.eip = entryPoint
  eflags : c.eflags &&& interruptFlag = interruptFlag
  /-- The stack is in the page of the program, but not where `asm_hex` would have it. -/
  esp : c.esp = 0x83F002B
  ss : c.ss = userDs

/-- Flags that are pushed to be changed in a register are pushed again above the rest of the stack. -/
theorem flags_repushed {c : Cpu} {ws : List Word} (stacked : c.Stacked ws)
    (room : 4 * ws.length + 4 ≤ 2 ^ 32) :
    let pushed := exec (fun _ : Empty => id) c .pushfl
    ({ pushed.drop 1 with eax := pushed.word 0 ||| interruptFlag }.push
        (pushed.word 0 ||| interruptFlag)).Stacked
      ((c.eflags &&& 0x00FCFFFF ||| interruptFlag) :: ws) := by
  -- What is popped into the register is what was pushed, with the flag set.
  intro pushed
  have saved : pushed.Stacked ((c.eflags &&& 0x00FCFFFF) :: ws) := stacked.push _ room
  have flags : pushed.word 0 = c.eflags &&& 0x00FCFFFF := saved.word rfl
  rw [flags]
  have popped : ({ pushed.drop 1 with
      eax := c.eflags &&& 0x00FCFFFF ||| interruptFlag } : Cpu).Stacked ws := saved.drop 1
  exact popped.push _ room

/-- What `execute` pushes for the way into the program. -/
theorem pushProgram_stacked (entryPoint : Word) (c : Cpu) : (pushProgram entryPoint c).Stacked
    [entryPoint, userCs.setWidth 32, c.eflags &&& 0x00FCFFFF ||| interruptFlag,
      asmHex.extractLsb' 16 16 ++ userDs, userDs.setWidth 32] := by
  -- The five words are pushed one after the other, the entry point last.
  unfold pushProgram
  generalize asmHex.extractLsb' 16 16 ++ userDs = esp
  have nothing : ({ c with eax := esp, ebx := entryPoint } : Cpu).Stacked [] := trivial
  have stack := (nothing.push (userDs.setWidth 32) (by simp)).push esp (by simp)
  have flags := flags_repushed stack (by simp)
  exact (flags.push (userCs.setWidth 32) (by simp)).push entryPoint (by simp)

/-- The assembly of `execute` gets from the kernel into the program. -/
theorem enterProgram_inProgram (entryPoint : Word) {c : Cpu} (kernel : c.cs = kernelCs) :
    InProgram entryPoint (enterProgram entryPoint c) := by
  -- The selector that is popped is one of the outermost ring, so the stack is popped too.
  have outward : Cpu.ring ((userCs.setWidth 32).setWidth 16) ≠
      Cpu.ring (pushProgram entryPoint c).cs := by
    rw [show (pushProgram entryPoint c).cs = c.cs from rfl, kernel]
    decide
  unfold enterProgram
  rw [exec_iret_outward _ (pushProgram_stacked entryPoint c) outward]
  refine ⟨?_, rfl, ?_, ?_, ?_⟩
  · simp only
    decide
  · refine BitVec.eq_of_getElem_eq fun i inside => ?_
    simp only [BitVec.getElem_and, BitVec.getElem_or]
    cases interruptFlag[i] <;> simp
  · simp only
    decide
  · simp only
    decide

end SmallOs
