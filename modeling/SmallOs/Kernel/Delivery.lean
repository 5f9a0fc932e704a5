import SmallOs.Foundation.I8259
import SmallOs.Foundation.Run
import SmallOs.Kernel.Gates
import SmallOs.Kernel.InterruptController

/-! The way of an interrupt from its device to its handler, which acknowledges it on the way. -/

namespace SmallOs

open Foundation Foundation.I8259

/-- `EOI`. -/
def eoiByte : BitVec 32 := 0x60

/-- `PIN_NUM`: the line of the first controller that the second one is on. -/
def pinNum : BitVec 32 := 0x02

/-- A port, and the byte that `outb` sends there. -/
abbrev PortWrite := Nat × BitVec 8

/-- What the controllers make of some writes. -/
def hear (pair : Pair) (writes : List PortWrite) : Pair :=
  writes.foldl (fun pair write => pair.write write.1 write.2) pair

/-- The writes of `i8259_init`. -/
def i8259InitWrites : List PortWrite :=
  [(master8259Port, 0x11), (slave8259Port, 0x11), (master8259PortData, 0x20),
    (slave8259PortData, 0x28), (master8259PortData, 0x04), (slave8259PortData, 0x02),
    (master8259PortData, 0x01), (slave8259PortData, 0x01), (master8259PortData, 0xFF),
    (slave8259PortData, 0xFF)]

/-- The writes in which `enable_irq` and `disable_irq` end. -/
def maskWrites (p : Pic) : List PortWrite :=
  [(master8259PortData, p.masterMask), (slave8259PortData, p.slaveMask)]

/-- `send_eoi`. -/
def sendEoi (irqNum : BitVec 32) : List PortWrite :=
  if portNum ≤ irqNum then
    [(slave8259Port, (eoiByte ||| (irqNum - portNum)).setWidth 8),
      (master8259Port, (eoiByte ||| pinNum).setWidth 8)]
  else [(master8259Port, (eoiByte ||| irqNum).setWidth 8)]

/-- What code does about interrupts; whatever else it does is left out. -/
inductive Op where
  | cli | sti
  /-- The flags are popped that were pushed behind `cli`. -/
  | popfl
  | irq (call : IrqCall)
  | eoi (irqNum : BitVec 32)
  /-- `do_switch`, behind which the thread goes on when it is switched back to. -/
  | doSwitch
  /-- The kernel or a program runs, for as long as it likes. -/
  | work
  /-- The interrupted code had let interrupts in. -/
  | iret
  deriving DecidableEq, Repr

/-- `keyboard_interrupt` and `print_keyboard`, which may open a terminal and start its shell. -/
def keyboardOps (opens : Bool) : List Op :=
  -- A shell is started with interrupts let in, after the line was ended once more.
  [.cli, .eoi 1] ++ (if opens then [.eoi 1, .sti, .work] else []) ++ [.popfl, .sti, .iret]

/-- `rtc_interrupt` and `rtc_handle_interrupt`. -/
def rtcOps : List Op :=
  [.cli, .cli, .eoi 8, .sti, .popfl, .sti, .iret]

/-- `pit_interrupt` and `pit_handler`. -/
def pitOps : List Op :=
  [.cli, .cli, .eoi 0, .doSwitch, .sti, .popfl, .sti, .iret]

/-- `rtc_init`, which `rtc_open` calls as well. -/
def rtcInitOps : List Op :=
  [.cli, .irq (.disable 8), .irq (.disable 2), .irq (.enable 2), .irq (.enable 8), .sti]

/-- `entry` after `i8259_init`: the keyboard, the clock, and the timer are enabled. -/
def entryOps : List Op :=
  [.irq (.enable 1)] ++ rtcInitOps ++ [.irq (.enable 0), .work]

/-- The handlers that acknowledge a line. -/
def Handler.ops (opens : Bool) : Handler → Option (List Op)
  | .keyboardInterrupt => some (keyboardOps opens)
  | .rtcInterrupt => some rtcOps
  | .pitInterrupt => some pitOps
  | _ => none

/-- The kernel's masks, the controllers, and the code that runs. -/
structure Delivery where
  pic : Pic
  pair : Pair
  /-- The interrupt flag of the processor. -/
  interruptsOn : Bool
  /-- What is left to do of the routines that run, the innermost first. -/
  routines : List (List Op)
  /-- The threads that were switched away from, or wait for a program they started. -/
  threads : List (List (List Op))

/-- What the kernel may do about interrupts outside the handlers. -/
inductive Work where
  | cli | sti
  /-- `rtc_open`. -/
  | rtcInit
  /-- `execute` enters a program, with a stack of its own. -/
  | enter
  /-- `halt` goes back to a thread that waits for it. -/
  | leave (thread : Nat)
  deriving DecidableEq, Repr

/-- What happens next. -/
inductive DeliveryEvent where
  /-- A device raises its line. -/
  | raise (line : Fin 16)
  /-- The processor accepts an interrupt, and is given its vector. -/
  | accept (vector : BitVec 8) (opens : Bool)
  /-- The innermost routine goes on. -/
  | next
  /-- `do_switch` goes on in one of the threads. -/
  | switchTo (thread : Nat)
  | work (work : Work)
  deriving DecidableEq, Repr

namespace Delivery

/-- One operation of the innermost routine, which has been taken off it. -/
def run (s : Delivery) : Op → Option Delivery
  | .cli | .popfl => some { s with interruptsOn := false }
  | .sti | .iret => some { s with interruptsOn := true }
  | .irq call =>
    let pic := call.run s.pic
    some { s with pic, pair := hear s.pair (maskWrites pic) }
  | .eoi irqNum => some { s with pair := hear s.pair (sendEoi irqNum) }
  | .work => some s
  | .doSwitch => none

/-- Whether the code that runs is none of a handler's own. -/
def working (s : Delivery) : Bool :=
  match s.routines with
  | [] => true
  | routine :: _ => routine.head? = some .work

/-- What the kernel does outside the handlers. -/
def doWork (s : Delivery) : Work → Option Delivery
  | .cli => some { s with interruptsOn := false }
  | .sti => some { s with interruptsOn := true }
  | .rtcInit => some { s with routines := rtcInitOps :: s.routines }
  -- The program is entered with interrupts let in.
  | .enter => some { s with
      interruptsOn := true, routines := [], threads := s.routines :: s.threads }
  | .leave thread => s.threads[thread]?.map fun routines => { s with routines }

/-- One step, where `none` means that it cannot happen, or that a handler acknowledges no line. -/
def step (s : Delivery) : DeliveryEvent → Option Delivery
  | .raise line => some { s with pair := s.pair.raise line }
  | .accept vector opens =>
    if s.interruptsOn then
      (s.pair.acknowledge.filter fun given => given.1 = vector).bind fun given =>
        ((handlerOf vector.toNat).bind (Handler.ops opens)).map fun ops =>
          { s with pair := given.2, interruptsOn := false, routines := ops :: s.routines }
    else none
  | .next =>
    match s.routines with
    | [] => none
    | [] :: rest => some { s with routines := rest }
    | (op :: ops) :: rest => { s with routines := ops :: rest }.run op
  | .switchTo thread =>
    match s.routines with
    | (.doSwitch :: ops) :: rest =>
      -- The thread itself is one of those that can be picked.
      let threads := (ops :: rest) :: s.threads
      threads[thread]?.map fun routines => { s with routines, threads }
    | _ => none
  | .work work => if s.working then s.doWork work else none

/-- After `i8259_init`, with the masks and the controllers as they were found. -/
def entered (p : Pic) (pair : Pair) : Delivery :=
  { pic := i8259Init p
    pair := hear pair i8259InitWrites
    interruptsOn := true
    routines := [entryOps]
    threads := [] }

end Delivery

end SmallOs
