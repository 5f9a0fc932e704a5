import SmallOs.Kernel.Process

/-! The timer interrupt of `schedule.c`. -/

namespace SmallOs

open Foundation

/-- The terminal `pit_handler` picks: the first other open one in turn, else the last one picked. -/
def pickTerminal (s : Kernel) : Terminal :=
  -- The numbers wrap at three, and the running terminal itself is never tested.
  if (s.terminals (s.currTerminal + 1)).isOpen then s.currTerminal + 1
  else if (s.terminals (s.currTerminal + 2)).isOpen then s.currTerminal + 2
  else s.nextTerminal

/-- The saving half of `do_switch`, with the registers it reads. -/
def saveContext (s : Kernel) (esp ebp : Nat) : Kernel :=
  s.setTerminal s.currTerminal fun term => { term with currentEsp := esp, currentEbp := ebp }

/-- The screen refresh of `do_switch` for a terminal that runs `fish`. -/
def refreshFish (s : Kernel) : Kernel :=
  -- The page is shown only where the terminal that is left is displayed.
  if s.currTerminal = s.currentId ∧ s.scheduled.fish then
    s.setConsole fun con =>
      { con with video := copyBlock videoBase (videoPtr s.currentId) onepage con.video }
  else s

/-- `do_switch`, which leaves the registers it loads in the record of `next_terminal`. -/
def doSwitch (s : Kernel) (esp ebp nextPid : Nat) : Kernel :=
  let s := saveContext s esp ebp
  let s := refreshFish s
  -- The frame is computed from the number, and not from the control block.
  let s := vurPhy s (0x800000 + 0x400000 * nextPid)
  { s with
    tss := ⟨sub32 (sub32 size8MB (u32 (size8KB * u32 (nextPid + 1)))) 4, kernelDs⟩
    currTerminal := s.nextTerminal }

/-- `pit_handler`. -/
def pitHandler (s : Kernel) (esp ebp : Nat) : Kernel :=
  let s := { s with nextTerminal := pickTerminal s }
  doSwitch s esp ebp (s.terminals s.nextTerminal).currentPid

/-- The stack and base pointers `do_switch` loads, read after the running terminal was saved. -/
def loadedContext (s : Kernel) (esp ebp : Nat) : Nat × Nat :=
  let next := (pitHandler s esp ebp).terminals (pickTerminal s)
  (next.currentEsp, next.currentEbp)

end SmallOs
