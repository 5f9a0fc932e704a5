import SmallOs.Foundation.Forest
import SmallOs.Kernel.Machine

/-! Processes without their devices: the process table, the parent links, and what each terminal runs. -/

namespace SmallOs

open Foundation

/-- What a terminal's record says about the process it runs. -/
structure Slot where
  curPcb : Nat
  firstProcess : Bool
  currentPid : Nat
  currentEsp : Nat
  currentEbp : Nat
  deriving DecidableEq

/-- The stack and base pointers that a record has saved. -/
def Slot.registers (slot : Slot) : Nat × Nat :=
  (slot.currentEsp, slot.currentEbp)

/-- What a control block says about its process, less the descriptors. -/
structure Block where
  pid : Nat
  parentPid : Nat
  oldEsp : Nat
  oldEbp : Nat
  pcbArg : List Byte
  argSize : Nat
  deriving DecidableEq

/-- The processes of a kernel state, and which of them the processor runs and maps. -/
structure Processes where
  slots : Terminal → Slot
  processArray : Nat → Nat
  blocks : Nat → Block
  running : Terminal
  /-- The page directory entry of the user page. -/
  userEntry : Nat

/-- The slot of a terminal record. -/
def InitTerminal.slot (term : InitTerminal) : Slot :=
  ⟨term.curPcb, term.firstProcess, term.currentPid, term.currentEsp, term.currentEbp⟩

/-- The identity of a control block. -/
def Pcb.block (pcb : Pcb) : Block :=
  ⟨pcb.pid, pcb.parentPid, pcb.oldEsp, pcb.oldEbp, pcb.pcbArg, pcb.argSize⟩

/-- The processes of a kernel state. -/
def Kernel.processes (s : Kernel) : Processes :=
  { slots := fun t => (s.terminals t).slot
    processArray := s.processArray
    blocks := fun address => (s.pcbs address).block
    running := s.currTerminal
    userEntry := s.pageDirectory userPde }

/-- The directory entry that maps the frame of a process with user rights. -/
def frameEntry (pid : Nat) : Nat :=
  u32 (0x400000 * u32 (pid + 2)) ||| allO

namespace Processes

/-- The parent of a process, read from the control block its number has. -/
def parent (ps : Processes) (pid : Nat) : Option Nat :=
  if (ps.blocks (pcbAddr pid)).parentPid = noParent then none
  else some (ps.blocks (pcbAddr pid)).parentPid

/-- The process a terminal runs, read from its control block pointer. -/
def top (ps : Processes) (t : Terminal) : Option Nat :=
  if (ps.slots t).firstProcess then some (ps.blocks (ps.slots t).curPcb).pid else none

/-- A process number that the process table marks as taken. -/
def Live (ps : Processes) (pid : Nat) : Prop :=
  pid < maxProcesses ∧ ps.processArray pid = 1

instance (ps : Processes) (pid : Nat) : Decidable (ps.Live pid) :=
  inferInstanceAs (Decidable (_ ∧ _))

/-- The slot `execute` takes for a new process of a terminal. -/
def Fresh (ps : Processes) (t : Terminal) (pid : Nat) : Prop :=
  if (ps.slots t).firstProcess then pid ∈ [3, 4, 5] ∧ ps.processArray pid = 0 else pid = t.val

/-- Put a new process in front of the chain of one terminal, and run it. -/
def spawn (ps : Processes) (t : Terminal) (pid : Nat) (frame : CallFrame) (arg : List Byte) :
    Processes :=
  let above := if (ps.slots t).firstProcess then (ps.slots t).currentPid else noParent
  let slot :=
    { ps.slots t with curPcb := pcbAddr pid, firstProcess := true, currentPid := pid }
  { slots := Function.update ps.slots t slot
    processArray := Function.update ps.processArray pid 1
    blocks := Function.update ps.blocks (pcbAddr pid)
      ⟨pid, above, frame.esp, frame.ebp, arg, arg.length⟩
    running := t
    userEntry := frameEntry pid }

/-- The control block of the running terminal's process. -/
def current (ps : Processes) : Block :=
  ps.blocks (ps.slots ps.running).curPcb

/-- Take the running process out of the process table. -/
def release (ps : Processes) : Processes :=
  { ps with processArray := Function.update ps.processArray ps.current.pid 0 }

/-- Leave the running terminal without a process. -/
def vacate (ps : Processes) : Processes :=
  let slot := { ps.slots ps.running with firstProcess := false }
  { ps with slots := Function.update ps.slots ps.running slot }

/-- Make a process the one its terminal runs, and map its frame. -/
def resume (ps : Processes) (pid : Nat) : Processes :=
  let slot := { ps.slots ps.running with curPcb := pcbAddr pid, currentPid := pid }
  { ps with
    slots := Function.update ps.slots ps.running slot
    userEntry := frameEntry pid }

/-- Save the registers of the running terminal, and let another one run. -/
def tick (ps : Processes) (next : Terminal) (esp ebp : Nat) : Processes :=
  let slot := { ps.slots ps.running with currentEsp := esp, currentEbp := ebp }
  { ps with
    slots := Function.update ps.slots ps.running slot
    running := next
    userEntry := u32 (0x800000 + 0x400000 * (ps.slots next).currentPid) ||| allO }

section Slots

variable (ps : Processes) (t : Terminal)

/-- A part of a record that an update leaves alone is the same for every terminal. -/
theorem read_update {α : Type} {slots : Terminal → Slot} {written : Terminal} {slot : Slot}
    (read : Slot → α) (same : read slot = read (slots written)) :
    read (Function.update slots written slot t) = read (slots t) := by
  rw [Function.apply_update (fun _ => read), same, Function.update_eq_self]

/-- A tick saves registers only. -/
@[simp] theorem tick_curPcb (next : Terminal) (esp ebp : Nat) :
    ((ps.tick next esp ebp).slots t).curPcb = (ps.slots t).curPcb :=
  read_update t Slot.curPcb rfl

@[simp] theorem tick_firstProcess (next : Terminal) (esp ebp : Nat) :
    ((ps.tick next esp ebp).slots t).firstProcess = (ps.slots t).firstProcess :=
  read_update t Slot.firstProcess rfl

@[simp] theorem tick_currentPid (next : Terminal) (esp ebp : Nat) :
    ((ps.tick next esp ebp).slots t).currentPid = (ps.slots t).currentPid :=
  read_update t Slot.currentPid rfl

@[simp] theorem release_slots : ps.release.slots = ps.slots := rfl

@[simp] theorem vacate_idle : (ps.vacate.slots ps.vacate.running).firstProcess = false := by
  simp [vacate]

@[simp] theorem vacate_curPcb : (ps.vacate.slots t).curPcb = (ps.slots t).curPcb :=
  read_update t Slot.curPcb rfl

/-- The registers a terminal was left with. -/
@[simp] theorem spawn_registers (u : Terminal) (pid : Nat) (frame : CallFrame) (arg : List Byte) :
    ((ps.spawn u pid frame arg).slots t).registers = (ps.slots t).registers :=
  read_update t Slot.registers rfl

@[simp] theorem vacate_registers : (ps.vacate.slots t).registers = (ps.slots t).registers :=
  read_update t Slot.registers rfl

@[simp] theorem resume_registers (pid : Nat) :
    ((ps.resume pid).slots t).registers = (ps.slots t).registers :=
  read_update t Slot.registers rfl

/-- Only the running terminal's registers are saved. -/
theorem tick_registers (next : Terminal) (esp ebp : Nat) :
    ((ps.tick next esp ebp).slots t).registers =
      if t = ps.running then (esp, ebp) else (ps.slots t).registers := by
  unfold tick
  simp only
  split
  · rename_i same
    rw [same, Function.update_self]
    rfl
  · rename_i other
    rw [Function.update_of_ne other]

end Slots

/-- Who is live besides a new process was live before. -/
theorem live_of_spawn {ps : Processes} {t : Terminal} {pid p : Nat} {frame : CallFrame}
    {arg : List Byte} (other : p ≠ pid) (alive : (ps.spawn t pid frame arg).Live p) : ps.Live p :=
  ⟨alive.1, by simpa [spawn, other] using alive.2⟩

section Spawn

variable (ps : Processes) (t : Terminal) (pid : Nat) (frame : CallFrame) (arg : List Byte)

/-- The control block of a new process. -/
theorem spawn_block : (ps.spawn t pid frame arg).blocks (pcbAddr pid) =
    ⟨pid, if (ps.slots t).firstProcess then (ps.slots t).currentPid else noParent,
      frame.esp, frame.ebp, arg, arg.length⟩ := by
  simp [spawn]

/-- Every other control block is as it was. -/
theorem spawn_block_other {p : Nat} (apart : pcbAddr p ≠ pcbAddr pid) :
    (ps.spawn t pid frame arg).blocks (pcbAddr p) = ps.blocks (pcbAddr p) := by
  simp [spawn, apart]

/-- The terminal runs its new process. -/
theorem spawn_slot : (ps.spawn t pid frame arg).slots t =
    { ps.slots t with curPcb := pcbAddr pid, firstProcess := true, currentPid := pid } := by
  simp [spawn]

/-- Every other terminal runs what it did. -/
theorem spawn_slot_other {u : Terminal} (differ : u ≠ t) :
    (ps.spawn t pid frame arg).slots u = ps.slots u := by
  simp [spawn, differ]

/-- The new process is live besides those that were. -/
theorem spawn_live (slot : pid < maxProcesses) (p : Nat) :
    (ps.spawn t pid frame arg).Live p ↔ p = pid ∨ ps.Live p := by
  by_cases same : p = pid
  · subst same
    simp [Live, spawn, slot]
  · simp [Live, spawn, same]

end Spawn

end Processes

end SmallOs
