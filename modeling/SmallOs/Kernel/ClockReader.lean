import SmallOs.Kernel.Machine

/-! `rtc_read` in the steps between which it can be interrupted. -/

namespace SmallOs

open Foundation

/-- A call that reads from the clock. -/
def AwaitsClock (s : Kernel) : Call → Prop
  | .read fd _ _ =>
    ¬ (fd < 0 ∨ fd > maxFd) ∧ Mapped s.scheduled.curPcb ∧ (s.curPcb.fd fd.toNat).flags ≠ 0 ∧
      (s.curPcb.fd fd.toNat).opTable = some .rtc
  | _ => False

instance (s : Kernel) : (request : Call) → Decidable (AwaitsClock s request)
  | .read fd _ _ =>
    inferInstanceAs (Decidable (¬ (fd < 0 ∨ fd > maxFd) ∧ Mapped s.scheduled.curPcb ∧
      (s.curPcb.fd fd.toNat).flags ≠ 0 ∧ (s.curPcb.fd fd.toNat).opTable = some .rtc))
  | .halt _ | .execute _ | .write _ _ _ | .open _ | .close _ | .getargs _ _ | .vidmap _ =>
    inferInstanceAs (Decidable False)

/-- How far the process of a terminal has come in `rtc_read`. -/
inductive ClockPhase where
  /-- It is not in the driver. -/
  | outside
  /-- It has set the flag, and the waiting loop is about to test it. -/
  | waiting
  deriving DecidableEq, Repr

/-- The kernel, and how far the terminals' processes have come in the driver. -/
structure ClockReading where
  kernel : Kernel
  phases : Terminal → ClockPhase

/-- The phase of the process that runs. -/
def ClockReading.phase (r : ClockReading) : ClockPhase :=
  r.phases r.kernel.currTerminal

/-- The process that runs moves on in the driver. -/
def ClockReading.goTo (r : ClockReading) (phase : ClockPhase) : ClockReading :=
  { r with phases := Function.update r.phases r.kernel.currTerminal phase }

/-- What happens next: an interrupt, another call, or a step of the process inside the driver. -/
inductive ClockEvent where
  /-- A device interrupts; a clock interrupt clears the flag. -/
  | interrupt (event : Event)
  /-- A call that does not read from the clock. -/
  | call (frame : CallFrame) (request : Call)
  /-- The driver is called: interrupts are enabled, and the flag is set. -/
  | enter
  /-- The waiting loop tests the flag, and the driver returns once it is clear. -/
  | test

/-- One step, where an interrupt may come before each step of the driver. -/
def clockStep (env : Env) (r : ClockReading) : ClockEvent → Option ClockReading
  | .interrupt (.call _ _) => none
  | .interrupt event => (step env r.kernel event).map fun s => { r with kernel := s }
  | .call frame request =>
    if r.phase = .outside ∧ ¬ AwaitsClock r.kernel request then
      (step env r.kernel (.call frame request)).map fun s => { r with kernel := s }
    else none
  | .enter =>
    if r.phase = .outside then
      -- One flag serves the processes of all terminals.
      some ({ r with kernel := { r.kernel with rtcInterruptFlag := true } }.goTo .waiting)
    else none
  | .test =>
    if r.phase = .waiting then some (if r.kernel.rtcInterruptFlag then r else r.goTo .outside)
    else none

end SmallOs
