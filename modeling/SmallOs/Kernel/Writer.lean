import SmallOs.Kernel.Keyboard

/-!
`terminal_write` in steps between which it can be interrupted: no switch comes inside a byte.

`putc` disables interrupts for its byte, and a byte of `putm`, which does not, is taken as one step.
-/

namespace SmallOs

open Foundation

/-- Which output routine the driver has decided for. -/
inductive Route where
  /-- The terminals are not compared yet. -/
  | undecided
  /-- The scheduled terminal was displayed, so `putc` prints on the live screen. -/
  | foreground
  /-- Another terminal was displayed, so `putm` prints on the backing page. -/
  | background
  deriving DecidableEq, Repr

/-- The kernel, and how far the process that runs has come in the driver. -/
structure Writing where
  kernel : Kernel
  route : Route
  /-- The bytes that are not printed yet. -/
  rest : List Byte
  /-- Whether an interrupt may come. -/
  interrupts : Bool

/-- The driver is called with a text; the system call has enabled interrupts. -/
def Writing.begin (s : Kernel) (text : List Byte) : Writing :=
  ⟨s, .undecided, text, true⟩

/-- What happens next: a keyboard interrupt, or a step of the process inside the driver. -/
inductive WriterEvent where
  /-- A function key displays another terminal, one that is open. -/
  | switch (t : Terminal)
  /-- The scheduled terminal is compared with the displayed one, once for the whole text. -/
  | compare
  /-- One byte is printed, by the whole of `putc` or of `putm`. -/
  | print
  /-- The call returns with the flags it was entered with. -/
  | leave
  deriving DecidableEq, Repr

/-- One step, where an interrupt may come before each byte while interrupts are enabled. -/
def writerStep (w : Writing) : WriterEvent → Option Writing
  | .switch t =>
    if w.interrupts then (switchStep w.kernel t).map fun s => { w with kernel := s } else none
  | .compare =>
    if w.route = .undecided then
      some { w with
        route := if w.kernel.currTerminal = w.kernel.currentId then .foreground else .background }
    else none
  | .print =>
    match w.route, w.rest with
    -- `putc` disables interrupts and never enables them again.
    | .foreground, c :: rest =>
      some { w with kernel := putc w.kernel c, rest := rest, interrupts := false }
    | .background, c :: rest => some { w with kernel := putm w.kernel c, rest := rest }
    | _, _ => none
  | .leave =>
    if w.route ≠ .undecided ∧ w.rest = [] then some { w with interrupts := true } else none

end SmallOs
