import SmallOs.Kernel.Machine

/-! `terminal_read` in the steps between which it can be interrupted. -/

namespace SmallOs

open Foundation

/-- A call that reads from the terminal of the scheduled process. -/
def TakesLine (s : Kernel) : Event → Prop
  | .call _ (.read fd _ _) =>
    ¬ (fd < 0 ∨ fd > maxFd) ∧ Mapped s.scheduled.curPcb ∧ (s.curPcb.fd fd.toNat).flags ≠ 0 ∧
      (s.curPcb.fd fd.toNat).opTable = some .stdin
  | _ => False

instance (s : Kernel) : (event : Event) → Decidable (TakesLine s event)
  | .call _ (.read fd _ _) =>
    inferInstanceAs (Decidable (¬ (fd < 0 ∨ fd > maxFd) ∧ Mapped s.scheduled.curPcb ∧
      (s.curPcb.fd fd.toNat).flags ≠ 0 ∧ (s.curPcb.fd fd.toNat).opTable = some .stdin))
  | .call _ (.halt _) | .call _ (.execute _) | .call _ (.write _ _ _) | .call _ (.open _)
  | .call _ (.close _) | .call _ (.getargs _ _) | .call _ (.vidmap _) =>
    inferInstanceAs (Decidable False)
  | .keyboard _ | .pit _ _ | .rtc => inferInstanceAs (Decidable False)

/-- How far the process of a terminal has come in `terminal_read`. -/
inductive ReadPhase where
  /-- It is not in the driver. -/
  | outside
  /-- Interrupts are enabled, and the waiting loop is about to load the flag. -/
  | waiting
  /-- The flag was set when it was loaded, and the terminals are about to be compared. -/
  | flagged
  /-- The loop has ended, and interrupts are about to be disabled. -/
  | passed
  deriving DecidableEq, Repr

/-- The kernel, and how far the terminals' processes have come in the driver. -/
structure Reading where
  kernel : Kernel
  phases : Terminal → ReadPhase

/-- The phase of the process that runs. -/
def Reading.phase (r : Reading) : ReadPhase :=
  r.phases r.kernel.currTerminal

/-- The process that runs moves on in the driver. -/
def Reading.goTo (r : Reading) (phase : ReadPhase) : Reading :=
  { r with phases := Function.update r.phases r.kernel.currTerminal phase }

/-- What happens next: a step of the kernel, or of the process that runs inside the driver. -/
inductive ReaderEvent where
  /-- An interrupt, or a call that does not read from a terminal. -/
  | event (event : Event)
  /-- The driver is called. -/
  | enter
  /-- The waiting loop loads the flag of the displayed terminal. -/
  | loadFlag
  /-- The waiting loop compares the scheduled terminal with the displayed one. -/
  | compare
  /-- Interrupts are disabled, and the line is taken. -/
  | take

/-- One step, where an interrupt may come before each step of the driver. -/
def readerStep (env : Env) (r : Reading) : ReaderEvent → Option Reading
  | .event event =>
    if TakesLine r.kernel event then none
    else (step env r.kernel event).map fun s => { r with kernel := s }
  | .enter => if r.phase = .outside then some (r.goTo .waiting) else none
  | .loadFlag =>
    if r.phase = .waiting then
      some (r.goTo (if r.kernel.displayed.readFlag then .flagged else .waiting))
    else none
  | .compare =>
    if r.phase = .flagged then
      some (r.goTo (if r.kernel.currTerminal = r.kernel.currentId then .passed else .waiting))
    else none
  | .take =>
    -- Nothing is tested again, whichever terminal is displayed by now. The bytes themselves go to
    -- the reader's own page, where no step of the driver looks.
    if r.phase = .passed then
      some ({ r with kernel := (takeLine r.kernel).kernel }.goTo .outside)
    else none

end SmallOs
