import SmallOs.Foundation.Word
import SmallOs.Foundation.Memory

/-! The kernel's static variables, process control blocks, and terminal records. -/

namespace SmallOs

open Foundation

/-- One byte of memory, a `uint8_t` or a `char` of the source. -/
abbrev Byte := UInt8

/-- Index of a terminal, so that `current_id - 1` and `curr_terminal` are values of one type. -/
abbrev Terminal := Fin 3

/-- There are terminals, so their indices have literals. -/
instance neZero_terminals : NeZero 3 :=
  ⟨by decide⟩

/-- `MAX_FD`: the highest descriptor of a process. -/
def maxFd : Nat := 7

/-- `max_processes`: the length of the process table. -/
def maxProcesses : Nat := 6

/-- `_8KB`: the distance between two process control blocks. -/
def size8KB : Nat := 0x2000

/-- `_8MB`: the top of the kernel's own page. -/
def size8MB : Nat := 0x800000

/-- `bufsize` and `buf_size`: the capacity of the line buffers. -/
def bufsize : Nat := 128

/-- `KERNEL_DS`: the kernel's data segment selector. -/
def kernelDs : Nat := 0x0018

/-- The word that holds `-1`, the `parent_pid` of a base shell. -/
def noParent : Nat := 2 ^ 32 - 1

/-- The six operation tables a descriptor can point at. -/
inductive OpTable where
  | rtc | dir | file | stdin | stdout | noOp
  deriving DecidableEq, Repr

/-- `file_descriptor_t`. -/
structure FileDescriptor where
  /-- The jump table, or `none` for the null pointer `execute` stores. -/
  opTable : Option OpTable
  inode : Nat
  filePosition : Nat
  flags : Nat
  deriving DecidableEq, Repr

/-- `pcb_t`, less the field `eip` that nothing reads. -/
structure Pcb where
  pid : Nat
  parentPid : Nat
  fd : Nat → FileDescriptor
  oldEsp : Nat
  oldEbp : Nat
  /-- The string in `pcb_arg`, without its terminating NUL. -/
  pcbArg : List Byte
  argSize : Nat

/-- `init_terminal`, less the fields `tem_num` and `esp0` that nothing reads. -/
structure InitTerminal where
  /-- The field `open`. -/
  isOpen : Bool
  screenX : Nat
  screenY : Nat
  cursorX : Nat
  cursorY : Nat
  buf : Nat → Byte
  bufIndex : Nat
  /-- `cur_pcb`, as the address it holds. -/
  curPcb : Nat
  currentEbp : Nat
  currentEsp : Nat
  firstProcess : Bool
  currentPid : Nat
  readFlag : Bool
  fish : Bool

/-- The static variables of `keyboard.c`. -/
structure Keyboard where
  capsLockFlags : Bool
  shiftFlags : Bool
  ctrlFlags : Bool
  altFlags : Bool
  keyboardbuf : Nat → Byte
  bufIndex : Nat
  count : Nat
  vdX : Int
  vdY : Int
  enterFlag : Bool

/-- The static variables of `lib.c`, the memory behind `video_mem`, and the hardware cursor. -/
structure Console where
  screenX : Int
  screenY : Int
  /-- Low memory by address: the live screen and the terminals' backing pages. -/
  video : Nat → Byte
  /-- The position last sent to the cursor registers. -/
  cursor : Nat

/-- The statics of `terminal.c` through which the switch routines pass a record. -/
structure SwitchStatics where
  terminalBufferIndex : Nat
  currentX : Int
  currentY : Int
  currentCursorX : Int
  currentCursorY : Int
  kbbuf : Nat → Byte

/-- The two fields of the task state segment that the kernel writes. -/
structure Tss where
  esp0 : Nat
  ss0 : Nat
  deriving DecidableEq, Repr

/-- Everything the modelled kernel code reads or writes. -/
structure Kernel where
  terminals : Terminal → InitTerminal
  /-- `current_id - 1`, the displayed terminal. -/
  currentId : Terminal
  /-- `curr_terminal`, the scheduled terminal. -/
  currTerminal : Terminal
  nextTerminal : Terminal
  processArray : Nat → Nat
  /-- The process control blocks, by the address of each. -/
  pcbs : Nat → Pcb
  currentPcb : Nat
  keyboard : Keyboard
  console : Console
  switch : SwitchStatics
  pageDirectory : Nat → Nat
  firstPageTable : Nat → Nat
  tss : Tss
  /-- The physical memory of the user frames, by address. -/
  frames : Nat → Byte
  dirReadLoc : Nat
  rtcInterruptFlag : Bool
  /-- Status register A of the real-time clock. -/
  rtcRegisterA : Nat

/-- The address at which `execute` and `halt` place the control block of a process. -/
def pcbAddr (pid : Nat) : Nat :=
  -- The product wraps, so the parent of a base shell would sit at eight megabytes itself.
  sub32 size8MB (size8KB * u32 (pid + 1))

/-- The size of a control block in bytes. -/
def pcbSize : Nat := 280

/--
A control block pointer that can be followed: the kernel's page maps all of the block.

The first four kilobytes count as absent here also after a call of `vidmap`, which maps a page of
screen memory there: what a null pointer finds then is no control block.
-/
def Mapped (address : Nat) : Prop :=
  0x400000 ≤ address ∧ address + pcbSize ≤ size8MB

instance (address : Nat) : Decidable (Mapped address) :=
  inferInstanceAs (Decidable (_ ∧ _))

namespace Kernel

/-- The terminal whose screen is displayed, `terminals[current_id - 1]`. -/
def displayed (s : Kernel) : InitTerminal :=
  s.terminals s.currentId

/-- The terminal whose process runs, `terminals[curr_terminal]`. -/
def scheduled (s : Kernel) : InitTerminal :=
  s.terminals s.currTerminal

/-- Change the record of one terminal. -/
def setTerminal (s : Kernel) (t : Terminal) (change : InitTerminal → InitTerminal) : Kernel :=
  { s with terminals := Function.update s.terminals t (change (s.terminals t)) }

/-- Change one process control block in place. -/
def setPcb (s : Kernel) (address : Nat) (change : Pcb → Pcb) : Kernel :=
  { s with pcbs := Function.update s.pcbs address (change (s.pcbs address)) }

/-- The control block of the scheduled terminal's process, `terminals[curr_terminal].cur_pcb`. -/
def curPcb (s : Kernel) : Pcb :=
  s.pcbs s.scheduled.curPcb

end Kernel

/-- Distinct live processes have distinct control blocks. -/
theorem pcbAddr_inj {p q : Nat} (left : p < maxProcesses) (right : q < maxProcesses)
    (same : pcbAddr p = pcbAddr q) : p = q := by
  simp only [pcbAddr, sub32, u32, size8MB, size8KB, maxProcesses] at *
  omega

/-- The control block of every process slot lies in the kernel's page. -/
theorem mapped_pcbAddr {p : Nat} (slot : p < maxProcesses) : Mapped (pcbAddr p) := by
  simp only [Mapped, pcbAddr, sub32, u32, size8MB, size8KB, maxProcesses, pcbSize] at *
  omega

end SmallOs
