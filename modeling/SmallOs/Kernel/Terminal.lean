import SmallOs.Kernel.FileSystem
import SmallOs.Kernel.LineEditor

/-! The switch routines of `terminal.c` and its two drivers. -/

namespace SmallOs

open Foundation

/-- `copy_keyboard_buf`, for an index of at most 128: `kbbuf` has no room for more. -/
def copyKeyboardBuf (s : Kernel) (kb : Nat → Byte) (index : Nat) : Kernel :=
  s.setSwitch fun sw => { sw with kbbuf := fun i => if i < index then kb i else sw.kbbuf i }

/--
The part the three switch routines share: the displayed terminal's record and page are saved.

Past an index of 128 the copy would go on over the record's own index, page and control block.
-/
def saveTerminal (s : Kernel) : Kernel :=
  let index := getBufIndex s
  let x := s.console.screenX
  let y := s.console.screenY
  let s := s.setSwitch fun sw =>
    { sw with
      terminalBufferIndex := index
      currentX := x
      currentY := y
      currentCursorX := x
      currentCursorY := y }
  let s := s.setTerminal s.currentId fun term =>
    { term with
      bufIndex := index
      screenX := ofInt32 x
      screenY := ofInt32 y
      cursorX := ofInt32 x
      cursorY := ofInt32 y
      -- The whole buffer is cleared before the unfinished line is copied in.
      buf := fun i => if i < index then s.switch.kbbuf i else if i < bufsize then 0 else term.buf i }
  -- The live screen is copied to the backing page of the terminal that is left.
  let s := s.setConsole fun con =>
    { con with video := copyBlock (videoPtr s.currentId) videoBase onepage con.video }
  clearbufferindex (clearbuffuer s)

/-- The statics a switch routine loads from the record of the terminal it displays. -/
def loadStatics (s : Kernel) (t : Terminal) : Kernel :=
  let term := s.terminals t
  s.setSwitch fun sw =>
    { sw with
      terminalBufferIndex := term.bufIndex
      currentX := toInt32 term.screenX
      currentY := toInt32 term.screenY
      currentCursorX := toInt32 term.cursorX
      currentCursorY := toInt32 term.cursorY }

/-- The last statements of a restore: the page is copied back and the positions are set from the statics. -/
def showPage (s : Kernel) : Kernel :=
  let s := s.setConsole fun con =>
    { con with video := copyBlock videoBase (videoPtr s.currentId) onepage con.video }
  let s := resetCursor s s.switch.currentCursorX s.switch.currentCursorY
  resetPosition s s.switch.currentX s.switch.currentY

/-- The restoring branch of `switch_to_terminal_2` and `switch_to_terminal_3`. -/
def restoreTerminal (s : Kernel) (t : Terminal) : Kernel :=
  let s := loadStatics (s.display t) t
  let s := copyToKeyboardBuf s s.displayed.bufIndex s.displayed.buf
  showPage s

/-- The branch that opens a terminal for the first time, up to the `sti` before its shell is started. -/
def openTerminal (s : Kernel) (t : Terminal) : Kernel :=
  let s := s.setTerminal t fun term => { term with isOpen := true }
  -- The screen is cleared while the old terminal still counts as displayed.
  let s := resetCursor (resetPosition (clear s) 0 0) 0 0
  (s.display t).setSwitch fun sw =>
    { sw with currentX := 0, currentY := 0, currentCursorX := 0, currentCursorY := 0 }

/-- The text `already in terminal`, with the digit of the terminal. -/
def alreadyIn (digit : Byte) : List Byte :=
  ascii ['a', 'l', 'r', 'e', 'a', 'd', 'y', ' ', 'i', 'n', ' ',
    't', 'e', 'r', 'm', 'i', 'n', 'a', 'l', ' '] ++ [digit]

/-- `switch_to_terminal_1`, which never tests whether the terminal is open. -/
def switchToTerminal1 (s : Kernel) : Kernel :=
  if s.currentId = 0 then putText s (alreadyIn 0x31)
  else
    let s := saveTerminal s
    -- This routine restores the line last, after the page and the positions.
    let s := showPage (loadStatics (s.display 0) 0)
    copyToKeyboardBuf s s.displayed.bufIndex s.displayed.buf

/-- The routine `switch_to_terminal_2` and `switch_to_terminal_3` are both written as. -/
def switchToTerminal (t : Terminal) (digit : Byte) (s : Kernel) : Kernel :=
  if s.currentId = t then putText s (alreadyIn digit)
  else
    let s := saveTerminal s
    if (s.terminals t).isOpen then restoreTerminal s t else openTerminal s t

/-- `switch_to_terminal_2`; the shell of a first opening is started by a call of its own. -/
def switchToTerminal2 (s : Kernel) : Kernel :=
  switchToTerminal 1 0x32 s

/-- `switch_to_terminal_3`; the shell of a first opening is started by a call of its own. -/
def switchToTerminal3 (s : Kernel) : Kernel :=
  switchToTerminal 2 0x33 s

/-- `clear_buf`, on the displayed terminal. -/
def clearBuf (s : Kernel) : Kernel :=
  s.setTerminal s.currentId fun term =>
    { term with
      buf := fun i => if i < term.bufIndex ∧ i < bufsize then 0 else term.buf i
      bufIndex := 0 }

/--
The bytes of a terminal record from its buffer on.

The index follows the buffer, and the page pointer that follows the index starts with a NUL.
-/
def recordBytes (term : InitTerminal) : Nat → Byte :=
  fun i =>
    if i < bufsize then term.buf i
    else (wordBytes term.bufIndex).getD (i - bufsize) 0

/-- The number of bytes `terminal_read` finds before the first NUL of the displayed record. -/
def lineSize (s : Kernel) : Nat :=
  -- A full buffer has no NUL of its own, so the scan goes on into the index.
  strlen (recordBytes s.displayed) (bufsize + 5)

/-- The part of `terminal_read` after its waiting loop, with interrupts disabled. -/
def takeLine (s : Kernel) : DriverRead :=
  let size := lineSize s
  let bytes := (List.range size).map (recordBytes s.displayed)
  -- The bytes are copied to the reader before the buffer is cleared.
  let s := clearBuf s
  ⟨size, bytes, s.setTerminal s.currentId fun term => { term with readFlag := false }⟩

/-- `terminal_read`, which returns only once its waiting loop has ended. -/
def terminalRead (s : Kernel) : Option DriverRead :=
  -- The loop waits for a line, and for the reader's own terminal to be displayed.
  if s.displayed.readFlag ∧ s.currTerminal = s.currentId then some (takeLine s) else none

/-- `terminal_write` of `nbytes` bytes of a buffer, run without interruption. -/
def terminalWrite (s : Kernel) (buf : List Byte) (nbytes : Int) : Int × Kernel :=
  let text := (List.range nbytes.toNat).map (cstr buf)
  -- The driver decides once which of the two output routines takes the whole buffer.
  if s.currTerminal = s.currentId then (nbytes, text.foldl putc s)
  else (nbytes, text.foldl putm s)

end SmallOs
