import SmallOs.Foundation.CallFrames
import SmallOs.Kernel.Interrupts

/-! How a program reaches a system call: its library wrapper, and the handler of the kernel. -/

namespace SmallOs

open Foundation.I386

/-- The functions in `syscall_jump_table`. -/
inductive SystemCall where
  | halt | execute | read | write | «open» | close | getargs | vidmap
  deriving DecidableEq, Repr

/-- `syscall_jump_table`, where `none` is the null pointer in front of it and whatever is behind it. -/
def syscallJumpTable (index : Nat) : Option SystemCall :=
  [none, some .halt, some .execute, some .read, some .write, some .open, some .close,
    some .getargs, some .vidmap].getD index none

/-- The way back to the caller at the end of `syscall_handler`: `popl` for three registers. -/
def popArguments (c : Cpu) : Cpu :=
  let c := { c.drop 1 with ebx := c.word 0 }
  let c := { c.drop 1 with ecx := c.word 0 }
  { c.drop 1 with edx := c.word 0 }

/-- The state in which `syscall_handler` calls a function: `pushfl`, the arguments, and `sti`. -/
def atSystemCall (functions : SystemCall → Cpu → Cpu) (c : Cpu) : Cpu :=
  let c := exec functions c .pushfl
  exec functions (((c.push c.edx).push c.ecx).push c.ebx) .sti

/-- `syscall_handler`, where `none` is a call through a pointer that is none of the table's. -/
def syscallHandler (functions : SystemCall → Cpu → Cpu) (c : Cpu) : Option Cpu :=
  -- Both comparisons of the number are signed.
  if c.eax.toInt < 1 ∨ 8 < c.eax.toInt then
    let c := exec functions (exec functions c .pushfl) .popfl
    some (exec functions { c with eax := -1 } .iret)
  else
    (syscallJumpTable c.eax.toNat).map fun function =>
      let c := functions function (atSystemCall functions c)
      let c := exec functions (popArguments c) .popfl
      exec functions c .iret

/-- `INT $0x80`: the gate of the system calls is entered, and its handler runs to the end. -/
def systemCall (functions : SystemCall → Cpu → Cpu) (tss : Tss) (c : Cpu) : Option Cpu :=
  syscallHandler functions (enter (interruptGate tss) c)

/-- The wrappers of the system call library. -/
inductive Wrapper where
  | halt | execute | read | write | «open» | close | getargs | vidmap | setHandler | sigreturn
  deriving DecidableEq, Repr

/-- The numbers of `ece391sysnum.h`. -/
def Wrapper.number : Wrapper → Word
  | .halt => 1
  | .execute => 2
  | .read => 3
  | .write => 4
  | .open => 5
  | .close => 6
  | .getargs => 7
  | .vidmap => 8
  | .setHandler => 9
  | .sigreturn => 10

/-- `DO_CALL` up to its `INT`: the arguments are taken from the stack of the caller. -/
def Wrapper.enter (w : Wrapper) (c : Cpu) : Cpu :=
  let c := c.push c.ebx
  -- The saved register and the return address are below the arguments.
  { c with eax := w.number, ebx := c.word 2, ecx := c.word 3, edx := c.word 4 }

/-- `DO_CALL` after its `INT`: `POPL` and `RET`. -/
def Wrapper.leave (c : Cpu) : Cpu :=
  let c := { c.drop 1 with ebx := c.word 0 }
  { c.drop 1 with eip := c.word 0 }

/-- `DO_CALL`, called with its return address and the arguments on the stack. -/
def Wrapper.call (w : Wrapper) (functions : SystemCall → Cpu → Cpu) (tss : Tss) (c : Cpu) :
    Option Cpu :=
  (systemCall functions tss (w.enter c)).map Wrapper.leave

end SmallOs
