import SmallOs.Foundation.I386
import SmallOs.Kernel.State

/-! The entry stubs of `interrupthandler.S` for the three devices. -/

namespace SmallOs

open Foundation.I386

/-- The compiled functions the stubs call. -/
inductive CFunction where
  | printKeyboard | rtcHandleInterrupt | pitHandler
  deriving DecidableEq, Repr

/-- `keyboard_interrupt`. -/
def keyboardInterrupt : List (Instr CFunction) :=
  [.cli, .pushfl, .call .printKeyboard, .popfl, .sti, .iret]

/-- `rtc_interrupt`. -/
def rtcInterrupt : List (Instr CFunction) :=
  [.cli, .pushfl, .call .rtcHandleInterrupt, .popfl, .sti, .iret]

/-- `pit_interrupt`. -/
def pitInterrupt : List (Instr CFunction) :=
  [.cli, .pushal, .pushfl, .call .pitHandler, .popfl, .popal, .sti, .iret]

/-- The three interrupt lines that have a stub. -/
inductive Irq where
  | keyboard | rtc | pit
  deriving DecidableEq, Repr

/-- The stub of a line. -/
def Irq.stub : Irq → List (Instr CFunction)
  | .keyboard => keyboardInterrupt
  | .rtc => rtcInterrupt
  | .pit => pitInterrupt

/-- The function the stub of a line calls. -/
def Irq.handler : Irq → CFunction
  | .keyboard => .printKeyboard
  | .rtc => .rtcHandleInterrupt
  | .pit => .pitHandler

/-- `KERNEL_CS`: the selector in every entry of the interrupt table. -/
def kernelCs : BitVec 16 := 0x0010

/-- The interrupt gate of every line, with the kernel stack of the task state segment. -/
def interruptGate (tss : Tss) : Gate :=
  ⟨kernelCs, BitVec.ofNat 16 tss.ss0, BitVec.ofNat 32 tss.esp0⟩

/-- An interrupt of some code: the gate is entered, and its stub is run to the end. -/
def Irq.serve (irq : Irq) (functions : CFunction → Cpu → Cpu) (tss : Tss) (c : Cpu) : Cpu :=
  run functions (enter (interruptGate tss) c) irq.stub

/-- The state in which the stub calls its function. -/
def Irq.atCall (irq : Irq) (functions : CFunction → Cpu → Cpu) (tss : Tss) (c : Cpu) : Cpu :=
  -- The call is the only instruction between the two accesses to the flags.
  run functions (enter (interruptGate tss) c) (irq.stub.takeWhile fun instr =>
    match instr with
    | .call _ => false
    | _ => true)

/-- The bytes of the stack that the frame of the interrupt and the stub have in use at the call. -/
def Irq.inUse (irq : Irq) (tss : Tss) (c : Cpu) : Nat :=
  4 * (frame (interruptGate tss) c).length +
    match irq with
    | .keyboard | .rtc => 4
    | .pit => 32 + 4

end SmallOs
