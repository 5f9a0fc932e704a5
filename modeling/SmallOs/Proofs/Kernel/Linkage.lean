import Mathlib.Data.List.GetD
import SmallOs.Kernel.Linkage
import SmallOs.Proofs.Kernel.Transparency

/-! System calls from the program to the kernel's function and back. -/

namespace SmallOs

open Foundation.I386

/-- A program goes on behind its system call, with its stack and its flags. -/
structure Returned (before after : Cpu) : Prop where
  esp : after.esp = before.esp
  ebp : after.ebp = before.ebp
  esi : after.esi = before.esi
  edi : after.edi = before.edi
  eip : after.eip = before.eip
  eflags : after.eflags = before.eflags
  cs : after.cs = before.cs
  ss : after.ss = before.ss

/-- The three pops take the words that the function left of its arguments. -/
theorem popArguments_eq (c : Cpu) : popArguments c =
    { c.drop 3 with ebx := c.word 0, ecx := c.word 1, edx := c.word 2 } := by
  have second : (c.drop 1).word 0 = c.word 1 := c.word_drop 1 0
  have third : ((c.drop 1).drop 1).word 0 = c.word 2 := by
    rw [c.drop_drop 1 1]
    exact c.word_drop 2 0
  have all : ((c.drop 1).drop 1).drop 1 = c.drop 3 := by
    rw [c.drop_drop 1 1, c.drop_drop 2 1]
  -- The registers that are loaded in between do not matter for the stack.
  calc popArguments c
    _ = { ((c.drop 1).drop 1).drop 1 with
          ebx := c.word 0, ecx := (c.drop 1).word 0, edx := ((c.drop 1).drop 1).word 0 } := rfl
    _ = _ := by rw [second, third, all]

/-- The signed comparisons let exactly the numbers of functions through. -/
theorem number_refused_iff (eax : Word) :
    (eax.toInt < 1 ∨ 8 < eax.toInt) ↔ syscallJumpTable eax.toNat = none := by
  have small := eax.isLt
  rw [BitVec.toInt_eq_toNat_cond]
  by_cases inside : eax.toNat < 9
  · -- A small number is not negative, and only zero is refused.
    have table : ∀ n < 9, syscallJumpTable n = none ↔ n = 0 := by decide
    rw [table _ inside, if_pos (by omega)]
    omega
  · have beyond : syscallJumpTable eax.toNat = none := List.getD_eq_default _ _ (by
      simp only [List.length_cons, List.length_nil]
      omega)
    simp only [beyond, iff_true]
    -- A number above that is large, or negative.
    split <;> omega

/-- The flags and the frame of a program's system call, which its function finds above the arguments. -/
def callInUse (tss : Tss) (c : Cpu) : Nat :=
  4 * (frame (interruptGate tss) c).length + 4

section Handler

variable {functions : SystemCall → Cpu → Cpu} {tss : Tss} {c : Cpu}

/-- At the call the arguments are on the kernel's stack, above them the flags and the frame. -/
theorem atSystemCall_stacked (functions : SystemCall → Cpu → Cpu) (gate : Gate) (c : Cpu) :
    ∃ flags, (atSystemCall functions (enter gate c)).Stacked
      ([c.ebx, c.ecx, c.edx] ++ flags :: frame gate c) := by
  have few := frame_length_le gate c
  obtain ⟨mem, eflags, entered⟩ := enter_registers gate c
  have framed := enter_stacked gate c
  -- The entry keeps the registers that are pushed.
  have ebx : (enter gate c).ebx = c.ebx := by rw [entered]
  have ecx : (enter gate c).ecx = c.ecx := by rw [entered]
  have edx : (enter gate c).edx = c.edx := by rw [entered]
  have pushed := framed.pushes [(enter gate c).eflags &&& 0x00FCFFFF, c.edx, c.ecx, c.ebx]
    (by simp only [List.length_cons, List.length_nil]; omega)
  refine ⟨(enter gate c).eflags &&& 0x00FCFFFF, ?_⟩
  rw [← ebx, ← ecx, ← edx] at pushed ⊢
  exact pushed

/-- The registers at the call are those of the entry, but for the stack pointer and the flags. -/
theorem atSystemCall_registers (functions : SystemCall → Cpu → Cpu) (gate : Gate) (c : Cpu) :
    ∃ mem eflags, atSystemCall functions (enter gate c) =
      { enter gate c with
        esp := (enter gate c).esp - 16
        eflags := eflags ||| interruptFlag
        mem := mem } := by
  obtain ⟨mem, same⟩ := foldl_push [(enter gate c).eflags &&& 0x00FCFFFF, (enter gate c).edx,
    (enter gate c).ecx, (enter gate c).ebx] (enter gate c)
  refine ⟨mem, (enter gate c).eflags, ?_⟩
  exact congrArg (fun k : Cpu => { k with eflags := k.eflags ||| interruptFlag }) same

/-- A function is called in the kernel, with interrupts let in. -/
theorem atSystemCall_mode (functions : SystemCall → Cpu → Cpu) (tss : Tss) (c : Cpu) :
    (atSystemCall functions (enter (interruptGate tss) c)).cs = kernelCs ∧
      (atSystemCall functions (enter (interruptGate tss) c)).eflags &&& interruptFlag =
        interruptFlag := by
  obtain ⟨below, flags, registers⟩ := atSystemCall_registers functions (interruptGate tss) c
  obtain ⟨mem, eflags, entered⟩ := enter_registers (interruptGate tss) c
  rw [registers]
  refine ⟨by rw [entered]; rfl, ?_⟩
  -- The flag is set by `sti`.
  refine BitVec.eq_of_getElem_eq fun i inside => ?_
  simp only [BitVec.getElem_and, BitVec.getElem_or]
  cases interruptFlag[i] <;> simp

/-- The handler from its call on: what the function leaves in the registers goes to the program. -/
theorem return_of_call (functions : SystemCall → Cpu → Cpu) {gate : Gate} {function : Cpu → Cpu}
    (takes : TakesArguments 3 (4 * (frame gate c).length + 4) function) :
    let called := atSystemCall functions (enter gate c)
    exec functions (exec functions (popArguments (function called)) .popfl) .iret =
      { function called with
        ebx := (function called).word 0
        ecx := (function called).word 1
        edx := (function called).word 2
        ebp := c.ebp, esi := c.esi, edi := c.edi
        esp := c.esp, eip := c.eip, eflags := c.eflags, cs := c.cs, ss := c.ss } := by
  intro called
  obtain ⟨mem, eflags, entered⟩ := enter_registers gate c
  obtain ⟨below, flags, registers⟩ := atSystemCall_registers functions gate c
  obtain ⟨saved, stacked⟩ := atSystemCall_stacked functions gate c
  have few := frame_length_le gate c
  have kept := takes called
  have pointer := takes.esp called
  have left := takes.stacked stacked rfl (by simp only [List.length_cons]; omega)
  rw [show atSystemCall functions (enter gate c) = called from rfl] at registers left
  generalize function called = after at kept pointer left ⊢
  -- Seven registers are as the program left them, or known from the entry.
  have ebp : after.ebp = c.ebp := kept.ebp.trans (by simp only [Cpu.drop, registers, entered])
  have esi : after.esi = c.esi := kept.esi.trans (by simp only [Cpu.drop, registers, entered])
  have edi : after.edi = c.edi := kept.edi.trans (by simp only [Cpu.drop, registers, entered])
  have cs : after.cs = gate.cs := kept.cs.trans (by simp only [Cpu.drop, registers, entered])
  have esp : after.esp = (enter gate c).esp - 16 := pointer.trans (by rw [registers])
  have ss : after.ss = (enter gate c).ss := kept.ss.trans (by simp only [Cpu.drop, registers])
  have popped : exec functions (popArguments after) .popfl =
      { after.drop 4 with
        ebx := after.word 0
        ecx := after.word 1
        edx := after.word 2
        eflags := (after.drop 3).word 0 } := by
    rw [popArguments_eq, ← after.drop_drop 3 1]
    rfl
  -- Without the arguments and the flags, the frame of the entry is on top.
  have framed : (exec functions (popArguments after) .popfl).Stacked (frame gate c) := by
    have rest := left.drop 1
    rw [after.drop_drop 3 1] at rest
    rw [popped]
    exact rest
  have selector : (exec functions (popArguments after) .popfl).cs = gate.cs := by rw [popped, ← cs]; rfl
  rw [exec_iret functions framed selector fun same => ?_, popped]
  · simp only [Cpu.drop, ebp, esi, edi]
  · have back : (after.drop 4).esp = (enter gate c).esp := by
      change after.esp + BitVec.ofNat 32 (4 * 4) = _
      rw [esp]
      bv_omega
    rw [popped]
    refine ⟨back.trans ?_, ss.trans ?_⟩
    · simp only [entered, if_pos same]
    · simp only [entered, if_pos same]

/-- The handler for a number that is refused: only the flags are pushed, and popped again. -/
theorem return_refused (functions : SystemCall → Cpu → Cpu) (gate : Gate) (c : Cpu) :
    exec functions { exec functions (exec functions (enter gate c) .pushfl) .popfl with
        eax := -1 } .iret =
      { c with eax := -1, mem := (exec functions (enter gate c) .pushfl).mem } := by
  -- The flags are popped again, so the return finds the frame of the entry.
  obtain ⟨mem, eflags, entered⟩ := enter_registers gate c
  have few := frame_length_le gate c
  have framed : ({ exec functions (exec functions (enter gate c) .pushfl) .popfl with
      eax := -1 } : Cpu).Stacked (frame gate c) :=
    ((enter_stacked gate c).push _ (by omega)).drop 1
  have back : (enter gate c).esp - 4 + BitVec.ofNat 32 (4 * 1) = (enter gate c).esp := by bv_omega
  rw [exec_iret functions framed (by simp only [exec, Cpu.drop, Cpu.push, entered]) fun same => ?_]
  · simp only [exec, Cpu.drop, Cpu.push, entered]
  · simp only [exec, Cpu.drop, Cpu.push, back]
    simp only [entered, if_pos same]
    exact ⟨trivial, trivial⟩

/-- A number that names a function calls it, and what it leaves goes to the program. -/
theorem systemCall_accepted {function : SystemCall}
    (takes : TakesArguments 3 (callInUse tss c) (functions function))
    (named : syscallJumpTable c.eax.toNat = some function) :
    ∃ after, systemCall functions tss c = some after ∧ Returned c after ∧
      after.eax =
        (functions function (atSystemCall functions (enter (interruptGate tss) c))).eax ∧
      after.mem =
        (functions function (atSystemCall functions (enter (interruptGate tss) c))).mem := by
  -- A number of the table passes both comparisons, and its function is called.
  obtain ⟨mem, eflags, entered⟩ := enter_registers (interruptGate tss) c
  have number : (enter (interruptGate tss) c).eax = c.eax := by rw [entered]
  have allowed : ¬ (c.eax.toInt < 1 ∨ 8 < c.eax.toInt) := by
    rw [number_refused_iff, named]
    exact nofun
  unfold systemCall syscallHandler
  rw [number, if_neg allowed, named]
  exact ⟨_, congrArg some (return_of_call functions takes),
    ⟨rfl, rfl, rfl, rfl, rfl, rfl, rfl, rfl⟩, rfl, rfl⟩

/-- Any other number comes back as an error, and nothing is called. -/
theorem systemCall_refused (functions : SystemCall → Cpu → Cpu) (tss : Tss)
    (unnamed : syscallJumpTable c.eax.toNat = none) :
    ∃ after, systemCall functions tss c = some after ∧ Returned c after ∧
      (after.eax = -1 ∧ after.ebx = c.ebx ∧ after.ecx = c.ecx ∧ after.edx = c.edx) ∧
      after.mem = (exec functions (enter (interruptGate tss) c) .pushfl).mem := by
  obtain ⟨mem, eflags, entered⟩ := enter_registers (interruptGate tss) c
  have number : (enter (interruptGate tss) c).eax = c.eax := by rw [entered]
  unfold systemCall syscallHandler
  rw [number, if_pos ((number_refused_iff c.eax).mpr unnamed)]
  refine ⟨_, rfl, ?_⟩
  rw [return_refused]
  exact ⟨⟨rfl, rfl, rfl, rfl, rfl, rfl, rfl, rfl⟩, ⟨rfl, rfl, rfl, rfl⟩, rfl⟩

end Handler

/--
Whatever a program has in its registers, its system call returns behind the call, with its stack.

A number of a function gives the function's result, which was called in the kernel with three
registers as arguments and interrupts let in, and every other number gives an error.
-/
theorem system_call_returns {functions : SystemCall → Cpu → Cpu} {tss : Tss} {c : Cpu}
    (takes : ∀ function, syscallJumpTable c.eax.toNat = some function →
      TakesArguments 3 (callInUse tss c) (functions function)) :
    ∃ after, systemCall functions tss c = some after ∧ Returned c after ∧
      (syscallJumpTable c.eax.toNat).elim
        (after.eax = -1 ∧ after.ebx = c.ebx ∧ after.ecx = c.ecx ∧ after.edx = c.edx)
        fun function =>
          let called := atSystemCall functions (enter (interruptGate tss) c)
          called.Stacked [c.ebx, c.ecx, c.edx] ∧ called.cs = kernelCs ∧
            called.eflags &&& interruptFlag = interruptFlag ∧
            after.eax = (functions function called).eax ∧
            after.mem = (functions function called).mem := by
  -- The handler refuses exactly the numbers that the table does not have.
  cases named : syscallJumpTable c.eax.toNat with
  | none =>
    obtain ⟨after, done, returned, registers, -⟩ := systemCall_refused functions tss named
    exact ⟨after, done, returned, registers⟩
  | some function =>
    obtain ⟨after, done, returned, eax, mem⟩ := systemCall_accepted (takes function named) named
    obtain ⟨_, stacked⟩ := atSystemCall_stacked functions (interruptGate tss) c
    obtain ⟨cs, flag⟩ := atSystemCall_mode functions tss c
    exact ⟨after, done, returned, ⟨stacked.1, stacked.2.1, stacked.2.2.1, trivial⟩, cs, flag, eax,
      mem⟩

/-- A function of three arguments that returns their sum. -/
def sumsArguments (_ : SystemCall) (c : Cpu) : Cpu :=
  { c with eax := c.word 0 + c.word 1 + c.word 2 }

theorem sumsArguments_takes (inUse : Nat) (function : SystemCall) :
    TakesArguments 3 inUse (sumsArguments function) :=
  fun _ => ⟨rfl, rfl, rfl, rfl, rfl, rfl, rfl, fun _ _ => rfl⟩

/-- The function finds its arguments on the stack. -/
theorem sumsArguments_eax {function : SystemCall} {called : Cpu} {first second third : Word}
    (stacked : called.Stacked [first, second, third]) :
    (sumsArguments function called).eax = first + second + third := by
  have word0 : called.word 0 = first := stacked.word rfl
  have word1 : called.word 1 = second := stacked.word rfl
  have word2 : called.word 2 = third := stacked.word rfl
  rw [← word0, ← word1, ← word2]
  rfl

/-- A program about to call the function of a number, with something on its stack. -/
def sampleProgram (number : Word) : Cpu :=
  { sampleCpu with
    eax := number
    esp := 0x83FFF00
    cs := 0x23
    ss := 0x2B
    mem := store (fun _ => 0) 0x83FFF04 7 }

/-- The sample's third function gets the registers, and no function has the number nine. -/
theorem system_call_returns_sample :
    (∃ after, systemCall sumsArguments ⟨0x800000, kernelDs⟩ (sampleProgram 3) = some after ∧
      Returned (sampleProgram 3) after ∧ after.eax = 9) ∧
    ∃ after, systemCall sumsArguments ⟨0x800000, kernelDs⟩ (sampleProgram 9) = some after ∧
      Returned (sampleProgram 9) after ∧ after.eax = -1 := by
  constructor
  · obtain ⟨after, done, returned, stacked, -, -, eax, -⟩ := @system_call_returns sumsArguments
      ⟨0x800000, kernelDs⟩ (sampleProgram 3) fun function _ => sumsArguments_takes _ function
    exact ⟨after, done, returned, eax.trans (sumsArguments_eax stacked)⟩
  · -- Nothing is asked of any function for a number that names none.
    obtain ⟨after, done, returned, eax, -⟩ := @system_call_returns sumsArguments
      ⟨0x800000, kernelDs⟩ (sampleProgram 9) fun _ named => by cases named
    exact ⟨after, done, returned, eax⟩

/-- The function that a wrapper is named after, if the kernel has it. -/
def Wrapper.function : Wrapper → Option SystemCall
  | .halt => some .halt
  | .execute => some .execute
  | .read => some .read
  | .write => some .write
  | .open => some .open
  | .close => some .close
  | .getargs => some .getargs
  | .vidmap => some .vidmap
  | .setHandler | .sigreturn => none

/-- The numbers of the library are those of the kernel's table, and two of them are behind its end. -/
theorem Wrapper.function_eq (w : Wrapper) : syscallJumpTable w.number.toNat = w.function := by
  cases w <;> rfl

section Library

variable {functions : SystemCall → Cpu → Cpu} {tss : Tss} {c : Cpu}

/-- Up to the call the handler writes four words. -/
theorem atSystemCall_mem (functions : SystemCall → Cpu → Cpu) (c : Cpu) :
    (atSystemCall functions c).mem =
      ([c.eflags &&& 0x00FCFFFF, c.edx, c.ecx, c.ebx].foldl Cpu.push c).mem :=
  rfl

/-- What a program leaves on its stack is not touched by the entry to the kernel. -/
theorem atSystemCall_away (functions : SystemCall → Cpu → Cpu)
    (user : Cpu.ring c.cs ≠ Cpu.ring kernelCs) (low : 36 ≤ tss.esp0) (high : tss.esp0 ≤ size8MB)
    {b : Word} (page : 0x8000000 ≤ b.toNat) :
    (exec functions (enter (interruptGate tss) c) .pushfl).mem b = c.mem b ∧
      (atSystemCall functions (enter (interruptGate tss) c)).mem b = c.mem b := by
  have outer : ¬ Cpu.ring c.cs = Cpu.ring (interruptGate tss).cs := user
  have five : (frame (interruptGate tss) c).length = 5 := by
    simp only [frame, if_neg outer, List.length_append, List.length_cons, List.length_nil]
  obtain ⟨mem, eflags, entered⟩ := enter_registers (interruptGate tss) c
  have pointer : (enter (interruptGate tss) c).esp = BitVec.ofNat 32 tss.esp0 - 20 := by
    rw [entered, five, if_neg outer]
    rfl
  simp only [size8MB] at high
  -- The kernel's stack is below eight megabytes.
  have framed : (enter (interruptGate tss) c).mem b = c.mem b := by
    refine enter_away _ _ ?_
    rw [five]
    simp only [entryStack, if_neg outer]
    change 4 * 5 ≤ (b - (BitVec.ofNat 32 tss.esp0 - BitVec.ofNat 32 (4 * 5))).toNat
    bv_omega
  constructor
  · refine Eq.trans (if_neg ?_) framed
    rw [pointer]
    bv_omega
  · rw [atSystemCall_mem]
    refine (pushes_away _ (by simp) ?_).trans framed
    rw [pointer]
    simp only [List.length_cons, List.length_nil]
    bv_omega

/-- The wrapper passes on the three words above its return address. -/
theorem Wrapper.enter_arguments (w : Wrapper) (c : Cpu) : (w.enter c).ebx = c.word 1 ∧
    (w.enter c).ecx = c.word 2 ∧ (w.enter c).edx = c.word 3 :=
  ⟨c.word_push c.ebx (by decide), c.word_push c.ebx (by decide), c.word_push c.ebx (by decide)⟩

/-- After the kernel the wrapper gives its caller back what it saved, and returns. -/
theorem Wrapper.leave_returns {w : Wrapper} {middle : Cpu} {inUse : Nat}
    (returned : Returned (w.enter c) middle) (bottom : 4 ≤ c.esp.toNat)
    (top : c.esp.toNat + 4 + inUse ≤ 2 ^ 32)
    (kept : ∀ k < inUse + 8, middle.mem (c.esp - 4 + BitVec.ofNat 32 k) =
      (w.enter c).mem (c.esp - 4 + BitVec.ofNat 32 k)) :
    Conventional inUse (c.drop 1) (Wrapper.leave middle) ∧
      (Wrapper.leave middle).eip = c.word 0 := by
  -- The saved register and the return address are the two lowest words.
  have pointer : middle.esp = (c.push c.ebx).esp := returned.esp
  have words : ∀ i < 2, middle.word i = (c.push c.ebx).word i := fun i low =>
    Cpu.word_congr pointer fun k inside => kept (4 * i + k) (by omega)
  have saved : middle.word 0 = c.ebx := by
    rw [words 0 (by omega)]
    exact (show (c.push c.ebx).Stacked [c.ebx] from ⟨load_store_self _ _ _, trivial⟩).word rfl
  have home : (middle.drop 1).word 0 = c.word 0 := by
    rw [middle.word_drop 1 0, words 1 (by omega)]
    exact c.word_push c.ebx (by decide)
  refine ⟨⟨saved, returned.esi, returned.edi, returned.ebp, ?_, returned.cs, returned.ss,
    fun k inside => ?_⟩, home⟩
  · change middle.esp + BitVec.ofNat 32 (4 * 1) + BitVec.ofNat 32 (4 * 1) =
      c.esp + BitVec.ofNat 32 (4 * 1)
    rw [pointer]
    change c.esp - 4 + BitVec.ofNat 32 (4 * 1) + BitVec.ofNat 32 (4 * 1) = _
    bv_omega
  · have place : c.esp - 4 + BitVec.ofNat 32 (k + 8) =
        c.esp + BitVec.ofNat 32 (4 * 1) + BitVec.ofNat 32 k := by bv_omega
    have same := kept (k + 8) (by omega)
    rw [place] at same
    refine same.trans (if_neg ?_)
    bv_omega

end Library

/--
A call of the system call library is a call of the kernel's function of the same name.

It keeps to the calling convention, its function finds the arguments that the program passed and
the memory of the program as it was, and the result is the function's. The two calls that the
kernel does not have give an error.
-/
theorem library_call {functions : SystemCall → Cpu → Cpu} (tss : Tss) (c : Cpu) (inUse : Nat)
    (w : Wrapper) (user : Cpu.ring c.cs ≠ Cpu.ring kernelCs)
    (low : 36 ≤ tss.esp0) (high : tss.esp0 ≤ size8MB)
    (bottom : 0x8000004 ≤ c.esp.toNat) (top : c.esp.toNat + 4 + inUse ≤ 0x8400000)
    (takes : ∀ function, w.function = some function → TakesArguments 3 24 (functions function))
    (spares : ∀ function, w.function = some function → ∀ before, ∀ k < inUse + 8,
      (functions function before).mem (c.esp - 4 + BitVec.ofNat 32 k) =
        before.mem (c.esp - 4 + BitVec.ofNat 32 k)) :
    ∃ after, w.call functions tss c = some after ∧ Conventional inUse (c.drop 1) after ∧
      after.eip = c.word 0 ∧
      w.function.elim (after.eax = -1) fun function =>
        ∃ called, called.Stacked [c.word 1, c.word 2, c.word 3] ∧ called.cs = kernelCs ∧
          (∀ b : Word, 0x8000000 ≤ b.toNat → called.mem b = (w.enter c).mem b) ∧
          after.eax = (functions function called).eax ∧
          after.mem = (functions function called).mem := by
  have outer : ¬ Cpu.ring (w.enter c).cs = Cpu.ring (interruptGate tss).cs := user
  have five : callInUse tss (w.enter c) = 24 := by
    simp only [callInUse, frame, if_neg outer, List.length_append, List.length_cons,
      List.length_nil]
  have number : syscallJumpTable (w.enter c).eax.toNat = w.function := w.function_eq
  have page : ∀ k < inUse + 8, 0x8000000 ≤ (c.esp - 4 + BitVec.ofNat 32 k).toNat := by
    intro k inside
    bv_omega
  have first : 4 ≤ c.esp.toNat := by omega
  have last : c.esp.toNat + 4 + inUse ≤ 2 ^ 32 := by omega
  have away := fun (b : Word) (page : 0x8000000 ≤ b.toNat) =>
    atSystemCall_away functions (c := w.enter c) user low high page
  unfold Wrapper.call
  cases named : w.function with
  | none =>
    obtain ⟨middle, done, returned, ⟨eax, -⟩, mem⟩ :=
      systemCall_refused functions tss (number.trans named)
    obtain ⟨convention, home⟩ := Wrapper.leave_returns returned first last fun k inside => by
      rw [mem]
      exact (away _ (page k inside)).1
    exact ⟨_, congrArg (Option.map Wrapper.leave) done, convention, home, eax⟩
  | some function =>
    have three : TakesArguments 3 (callInUse tss (w.enter c)) (functions function) :=
      five ▸ takes function named
    obtain ⟨middle, done, returned, eax, mem⟩ := systemCall_accepted three (number.trans named)
    -- The function spares the stack of the program, and so does the entry.
    obtain ⟨convention, home⟩ := Wrapper.leave_returns returned first last fun k inside => by
      rw [mem]
      exact (spares function named _ k inside).trans (away _ (page k inside)).2
    obtain ⟨_, stacked⟩ := atSystemCall_stacked functions (interruptGate tss) (w.enter c)
    obtain ⟨ebx, ecx, edx⟩ := w.enter_arguments c
    rw [ebx, ecx, edx] at stacked
    exact ⟨_, congrArg (Option.map Wrapper.leave) done, convention, home, _,
      ⟨stacked.1, stacked.2.1, stacked.2.2.1, trivial⟩, (atSystemCall_mode functions tss _).1,
      fun b page => (away b page).2, eax, mem⟩

/-- The sample reads through the library, and finds no function to set a handler. -/
theorem library_call_sample :
    (∃ after, Wrapper.read.call sumsArguments ⟨0x800000, kernelDs⟩ (sampleProgram 0) = some after ∧
      Conventional 16 ((sampleProgram 0).drop 1) after ∧ after.eax = 7) ∧
    ∃ after, Wrapper.setHandler.call sumsArguments ⟨0x800000, kernelDs⟩ (sampleProgram 0) =
      some after ∧ Conventional 16 ((sampleProgram 0).drop 1) after ∧ after.eax = -1 := by
  have user : Cpu.ring (sampleProgram 0).cs ≠ Cpu.ring kernelCs := by decide
  have call := fun w : Wrapper => library_call ⟨0x800000, kernelDs⟩ (sampleProgram 0) 16 w user
    (by decide) (by decide) (by decide) (by decide) (fun function _ => sumsArguments_takes 24 function)
    fun _ _ _ _ _ => rfl
  constructor
  · obtain ⟨after, done, kept, -, called, stacked, -, -, eax, -⟩ := call .read
    have arguments : (sampleProgram 0).word 1 + (sampleProgram 0).word 2 +
        (sampleProgram 0).word 3 = 7 := by decide +kernel
    exact ⟨after, done, kept, (eax.trans (sumsArguments_eax stacked)).trans arguments⟩
  · obtain ⟨after, done, kept, -, eax⟩ := call .setHandler
    exact ⟨after, done, kept, eax⟩

end SmallOs
