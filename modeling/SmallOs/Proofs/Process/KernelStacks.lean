import SmallOs.Proofs.Kernel.Gates
import SmallOs.Proofs.Kernel.Transparency
import SmallOs.Proofs.Process.Protection

/-! Programs enter the kernel behind its gates only, each of them on a kernel stack of its own. -/

namespace SmallOs

open Foundation Foundation.I386

/-- The room between two control blocks. -/
def kernelStackSize : Nat := size8KB - pcbSize

/-- The kernel stack of a process, which grows from its control block down to the next one. -/
def InKernelStack (pid address : Nat) : Prop :=
  pcbAddr pid ≤ address + kernelStackSize ∧ address < pcbAddr pid

/-- The task state segment has the kernel stack of the process that runs. -/
structure StackServed (s : Kernel) : Prop where
  selector : s.tss.ss0 = kernelDs
  /-- Ticks leave a word of the stack unused. -/
  top : s.tss.esp0 = pcbAddr s.scheduled.currentPid ∨
    s.tss.esp0 + 4 = pcbAddr s.scheduled.currentPid

/-- The kernel stacks of the processes, and what lies around them. -/
structure OwnStack (env : Env) (s : Kernel) (address : Nat) : Prop where
  /-- No control block is there. -/
  blocks : ∀ p < maxProcesses, ¬ (pcbAddr p ≤ address ∧ address < pcbAddr p + pcbSize)
  /-- It is on the stack of no other process. -/
  others : ∀ p < maxProcesses, p ≠ s.scheduled.currentPid → ¬ InKernelStack p address
  /-- The kernel finds it where it is, and programs do not reach it. -/
  kernel : s.translation env.tableAddr (address / 0x1000) = some ⟨address / 0x1000, false, true⟩

/-- The control blocks of the table, from the top of the kernel's page down. -/
theorem pcbAddr_eq {p : Nat} (slot : p < maxProcesses) : pcbAddr p + 0x2000 * (p + 1) = 0x800000 := by
  simp only [pcbAddr, sub32, u32, size8MB, size8KB, maxProcesses] at *
  omega

section Served

variable {env : Env} {s next : Kernel} {event : Event}

/-- A program that was entered has its own stack. -/
theorem Entered.stackServed {frame : CallFrame} {command : List Byte} {entryPoint : Nat}
    (entered : Entered env s frame command entryPoint next) : StackServed next := by
  have tss : next.tss = ⟨pcbAddr entered.pid, kernelDs⟩ := by
    refine (congrArg Kernel.tss entered.started).trans ?_
    rw [← stackTop_eq]
    rfl
  refine ⟨by rw [tss], .inl ?_⟩
  rw [tss, entered.scheduled.2.2]

/-- Every admitted step has the stack of the process that runs after it. -/
theorem StackServed.step (served : StackServed s) (serving : Serving s.processes)
    (met : KeepsUserPage env s event) (taken : step env s event = some next) :
    StackServed next := by
  obtain ⟨⟨path, acc⟩, running, -⟩ := serving
  cases step_cases taken with
  | quiet kept _ =>
    have same : next.scheduled.currentPid = s.scheduled.currentPid :=
      congrArg (fun ps => (ps.slots ps.running).currentPid) kept.processes
    refine ⟨kept.tss ▸ served.selector, ?_⟩
    rw [kept.tss, same]
    exact served.top
  | @tick esp ebp =>
    -- The number of the process that is picked is used for its frame and for its stack.
    have picked : (s.terminals (pickTerminal s)).firstProcess = true := met
    have slot := (acc.live (acc.pointed _ picked).2).1
    have current : (pitHandler s esp ebp).scheduled.currentPid =
        (s.terminals (pickTerminal s)).currentPid := by
      have ticked := congrArg (fun ps => (ps.slots ps.running).currentPid)
        (pitHandler_processes s esp ebp)
      exact ticked.trans (s.processes.tick_currentPid _ _ esp ebp)
    have tss : (pitHandler s esp ebp).tss = ⟨sub32 (sub32 size8MB (u32 (size8KB *
        u32 ((s.terminals (pickTerminal s)).currentPid + 1)))) 4, kernelDs⟩ := rfl
    refine ⟨by rw [tss], .inr ?_⟩
    rw [tss, current]
    have number : (s.terminals (pickTerminal s)).currentPid < maxProcesses := slot
    have place := pcbAddr_eq number
    simp only [sub32, u32, size8MB, size8KB, maxProcesses] at *
    omega
  | enter entered => exact entered.stackServed
  | finish _ mapped halted =>
    cases halted with
    | child above =>
      -- The parent's number is read from the block of the process that ends.
      have tss : (resumeParent (endProcess s) s.curPcb.parentPid).tss =
          ⟨pcbAddr ((endProcess s).pcbs (endProcess s).currentPcb).parentPid, kernelDs⟩ := rfl
      rw [endProcess_parentPid s] at tss
      have current : (resumeParent (endProcess s) s.curPcb.parentPid).scheduled.currentPid =
          s.curPcb.parentPid := by
        have resumed := congrArg (fun ps => (ps.slots ps.running).currentPid) (child_processes s)
        exact resumed.trans (by simp [Processes.resume])
      refine ⟨by rw [tss], .inl ?_⟩
      rw [tss, current]
    | stranded base refused =>
      exact absurd refused ((met base).not_failed acc mapped base)
    | restarted base entered => exact entered.stackServed

/-- What the stack in the task state segment is in every state of an admitted run. -/
theorem stackServed_of_run {start : Kernel} {events : List Event} (booted : boot env = some start)
    (run : Run (step env) (KeepsUserPage env) start events s) :
    StackServed s ∧ Serving s.processes := by
  refine run.invariant (fun s => StackServed s ∧ Serving s.processes) ?_
    fun _ _ _ held met taken => ⟨held.1.step held.2 met taken, held.2.step met taken⟩
  obtain ⟨_, ⟨entered⟩⟩ := boot_entered booted
  exact ⟨entered.stackServed, Serving.booted booted⟩

/-- The kernel stack of the process that runs is shared with nothing. -/
theorem InKernelStack.own (reach : Reachable env s) (serving : Serving s.processes)
    (aligned : 0x1000 ∣ env.tableAddr) {address : Nat}
    (inside : InKernelStack s.scheduled.currentPid address) : OwnStack env s address := by
  -- The stacks lie below the blocks of their processes, eight kilobytes apart.
  obtain ⟨⟨path, acc⟩, running, mapped⟩ := serving
  have slot : s.scheduled.currentPid < maxProcesses :=
    (acc.live (acc.pointed s.currTerminal running).2).1
  have protect := protected_of_frame (LowTables.reachable reach) (UnwrittenEntries.reachable reach)
    aligned slot mapped
  have place := pcbAddr_eq slot
  obtain ⟨low, high⟩ := inside
  simp only [kernelStackSize, size8KB, pcbSize, maxProcesses] at low slot
  refine ⟨fun p known block => ?_, fun p known other overlap => ?_, ?_⟩
  · -- The blocks are as far apart as the stacks, and a stack ends above the next block.
    have home := pcbAddr_eq known
    simp only [pcbSize] at block
    omega
  · have home := pcbAddr_eq known
    obtain ⟨lower, upper⟩ := overlap
    simp only [kernelStackSize, size8KB, pcbSize] at lower
    omega
  · refine protect.kernel _ ?_ ?_
    · omega
    · omega

end Served

end SmallOs
