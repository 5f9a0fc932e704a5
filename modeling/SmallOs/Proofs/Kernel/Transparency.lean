import SmallOs.Kernel.Interrupts

/-! Which entry stubs give the interrupted code its registers back. -/

namespace SmallOs

open Foundation.I386

/-- The frame of an interrupt is a few words. -/
theorem frame_length_le (gate : Gate) (c : Cpu) : (frame gate c).length ≤ 5 := by
  unfold frame
  -- The privilege changes or it does not, and two more words are pushed if it does.
  split <;> simp

section Stubs

variable (functions : CFunction → Cpu → Cpu) (gate : Gate) (c : Cpu)

/--
A stub that finds its frame again resumes the interrupted code.

Three registers are left to the function it called, and every other one has been seen to.
-/
theorem resumed_iff (last : Cpu) (stacked : last.Stacked (frame gate c))
    (kept : Conventional 0 (enter gate c) last) :
    Resumed c (exec functions last .iret) ↔
      last.eax = c.eax ∧ last.ecx = c.ecx ∧ last.edx = c.edx := by
  obtain ⟨mem, eflags, entered⟩ := enter_registers gate c
  rw [entered] at kept
  -- The return finds the stack pointer and the selectors of the entry.
  have returned : exec functions last .iret =
      { last with
        esp := c.esp
        eip := c.eip
        eflags := c.eflags
        cs := c.cs
        ss := c.ss } := by
    refine exec_iret functions stacked kept.cs fun same => ?_
    rw [kept.esp, kept.ss]
    simp only [if_pos same]
    exact ⟨trivial, trivial⟩
  rw [returned]
  constructor
  · intro resumed
    exact ⟨resumed.eax, resumed.ecx, resumed.edx⟩
  · rintro ⟨eax, ecx, edx⟩
    exact ⟨eax, ecx, edx, kept.ebx, rfl, kept.ebp, kept.esi, kept.edi, rfl, rfl, rfl, rfl⟩

/-- A stub that saves no register resumes the code with what its function returned in three of them. -/
theorem unsaved_resumed_iff {function : CFunction}
    (obeys : ∀ before, Conventional (4 * (frame gate c).length + 4) before
      (functions function before)) :
    Resumed c (run functions (enter gate c) [.cli, .pushfl, .call function, .popfl, .sti, .iret]) ↔
      let after := functions function (run functions (enter gate c) [.cli, .pushfl])
      after.eax = c.eax ∧ after.ecx = c.ecx ∧ after.edx = c.edx := by
  have few := frame_length_le gate c
  -- Up to its return the stub is a guarded call, after which interrupts are let in again.
  have kept := conventional_guarded obeys (by omega) (exec functions (enter gate c) .cli)
  have framed : (exec functions (enter gate c) .cli).Stacked (frame gate c) := enter_stacked gate c
  have stacked := kept.stacked framed (Nat.le_refl _)
  exact resumed_iff functions gate c _ stacked
    ⟨kept.ebx, kept.esi, kept.edi, kept.ebp, kept.esp, kept.cs, kept.ss, fun _ none => by omega⟩

/-- A stub that changed nothing since its entry but memory below the frame resumes the code. -/
theorem resumed_of_entered {mem : Memory} (eip eflags : Word)
    (held : Holds mem (enter gate c).esp (frame gate c)) :
    Resumed c (exec functions
      { enter gate c with mem := mem, eip := eip, eflags := eflags } .iret) := by
  obtain ⟨_, _, entered⟩ := enter_registers gate c
  have eax := congrArg Cpu.eax entered
  have ecx := congrArg Cpu.ecx entered
  have edx := congrArg Cpu.edx entered
  refine (resumed_iff functions gate c
    { enter gate c with mem := mem, eip := eip, eflags := eflags } held ?_).mpr ⟨eax, ecx, edx⟩
  -- Nothing but memory, the flags, and the next instruction differs from the entry.
  exact ⟨rfl, rfl, rfl, rfl, rfl, rfl, rfl, fun k none => absurd none (Nat.not_lt_zero k)⟩

/-- A stub that saves all registers resumes the code with every one of them. -/
theorem saved_resumed {function : CFunction}
    (obeys : ∀ before, Conventional (4 * (frame gate c).length + 36) before
      (functions function before)) :
    Resumed c (run functions (enter gate c)
      [.cli, .pushal, .pushfl, .call function, .popfl, .popal, .sti, .iret]) := by
  have few := frame_length_le gate c
  have framed : (exec functions (enter gate c) .cli).Stacked (frame gate c) := enter_stacked gate c
  -- Between the two accesses to the interrupt flag, only memory and the flags change.
  obtain ⟨mem, eip, eflags, same, held⟩ := run_saved obeys (by omega) framed
  have returns : run functions (enter gate c)
      [.cli, .pushal, .pushfl, .call function, .popfl, .popal, .sti, .iret] =
        exec functions (exec functions (run functions (exec functions (enter gate c) .cli)
          [.pushal, .pushfl, .call function, .popfl, .popal]) .sti) .iret := rfl
  rw [returns, same]
  exact resumed_of_entered functions gate c eip (eflags ||| interruptFlag) held

end Stubs

/--
An interrupt gives every register back exactly when its stub saves them or its function keeps three.

The function may do whatever the calling convention allows.
-/
theorem interrupt_resumed_iff (irq : Irq) (functions : CFunction → Cpu → Cpu) (tss : Tss) (c : Cpu)
    (obeys : ∀ before, Conventional (irq.inUse tss c) before (functions irq.handler before)) :
    Resumed c (irq.serve functions tss c) ↔
      irq = .pit ∨
        let after := functions irq.handler (irq.atCall functions tss c)
        after.eax = c.eax ∧ after.ecx = c.ecx ∧ after.edx = c.edx := by
  cases irq with
  | keyboard | rtc =>
    -- Both stubs save nothing but the flags.
    have resumed := unsaved_resumed_iff functions (interruptGate tss) c obeys
    simp only [reduceCtorEq, false_or]
    exact resumed
  | pit => exact ⟨fun _ => .inl rfl, fun _ => saved_resumed functions (interruptGate tss) c obeys⟩

/-- A function that returns zero, as one that computes in `eax` may. -/
def clearsEax (_ : CFunction) (c : Cpu) : Cpu :=
  { c with eax := 0 }

/-- Some code of the kernel, about to use what it has in `eax`. -/
def sampleCpu : Cpu :=
  { eax := 1
    ecx := 2
    edx := 3
    ebx := 4
    esp := 0x7FE000
    ebp := 0x7FE010
    esi := 5
    edi := 6
    eip := 0x401000
    eflags := 0x202
    cs := kernelCs
    ss := 0x18
    mem := fun _ => 0 }

theorem clearsEax_conventional (inUse : Nat) (function : CFunction) (before : Cpu) :
    Conventional inUse before (clearsEax function before) :=
  ⟨rfl, rfl, rfl, rfl, rfl, rfl, rfl, fun _ _ => rfl⟩

/-- The timer interrupts code that keeps its `eax`. -/
theorem interrupt_resumed_iff_sample :
    Resumed sampleCpu (Irq.pit.serve clearsEax ⟨0x800000, kernelDs⟩ sampleCpu) :=
  (interrupt_resumed_iff .pit clearsEax ⟨0x800000, kernelDs⟩ sampleCpu
    fun before => clearsEax_conventional _ _ before).mpr (.inl rfl)

/-- A key press in the same place loses it, although the function keeps to the convention. -/
theorem keyboard_interrupt_loses_eax :
    (∀ before, Conventional (Irq.keyboard.inUse ⟨0x800000, kernelDs⟩ sampleCpu) before
      (clearsEax .printKeyboard before)) ∧
    (Irq.keyboard.serve clearsEax ⟨0x800000, kernelDs⟩ sampleCpu).eax = 0 ∧
    ¬ Resumed sampleCpu (Irq.keyboard.serve clearsEax ⟨0x800000, kernelDs⟩ sampleCpu) := by
  have lost : (Irq.keyboard.serve clearsEax ⟨0x800000, kernelDs⟩ sampleCpu).eax = 0 := by
    decide +kernel
  -- The function may return what it likes in `eax`, and the stub does not save it.
  refine ⟨fun before => clearsEax_conventional _ _ before, lost, fun resumed => ?_⟩
  have kept := resumed.eax
  rw [lost] at kept
  exact absurd kept (by decide)

end SmallOs
