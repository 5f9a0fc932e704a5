import SmallOs.Kernel.Console

/-! The line editor of `keyboard.c`: storing a typed character, erasing one, and handing a line over. -/

namespace SmallOs

open Foundation

/-- `screen_legth`. -/
def screenLegth : Nat := 80

/-- `screen_width`. -/
def screenWidth : Nat := 23

/-- `clearbuffuer`. -/
def clearbuffuer (s : Kernel) : Kernel :=
  s.setKeyboard fun kb =>
    { kb with keyboardbuf := fun i => if i < bufsize then 0 else kb.keyboardbuf i }

/-- `clearbufferindex`. -/
def clearbufferindex (s : Kernel) : Kernel :=
  s.setKeyboard fun kb => { kb with bufIndex := 0 }

/-- `get_buf_index`. -/
def getBufIndex (s : Kernel) : Nat :=
  s.keyboard.bufIndex

/-- `copy_to_keyboard_buf`, for an index of at most 128. -/
def copyToKeyboardBuf (s : Kernel) (index : Nat) (keyBuf : Nat → Byte) : Kernel :=
  s.setKeyboard fun kb =>
    { kb with
      keyboardbuf := fun i => if i < index then keyBuf i else kb.keyboardbuf i
      bufIndex := index }

/-- The first statements of `prout`: the character is stored while the buffer has room. -/
def storeTyped (s : Kernel) (c : Byte) : Kernel :=
  s.setKeyboard fun kb =>
    { kb with
      keyboardbuf :=
        if kb.bufIndex ≤ bufsize - 1 then Function.update kb.keyboardbuf kb.bufIndex c
        else kb.keyboardbuf
      -- The index is counted up whether or not the character was stored.
      bufIndex := kb.bufIndex + 1
      vdX := kb.vdX + 1 }

/-- `prout`. -/
def prout (s : Kernel) (c : Byte) : Kernel :=
  if s.keyboard.count = bufsize then
    -- A full line takes no further character, not even the newline.
    resetCursor s s.keyboard.vdX s.keyboard.vdY
  else
    let s := storeTyped s c
    if s.keyboard.vdX = screenLegth then
      -- Past the last column the position goes on in the next row.
      let s := putc s c
      let s := s.setKeyboard fun kb =>
        { kb with count := kb.count + 1, vdY := kb.vdY + 1, vdX := 0 }
      if s.keyboard.vdY = 25 then
        let s := clearRow (resetVideo s)
        let s := resetPosition s s.keyboard.vdX (s.keyboard.vdY - 1)
        resetCursor s s.keyboard.vdX (s.keyboard.vdY - 1)
      else
        let s := resetPosition s s.keyboard.vdX s.keyboard.vdY
        resetCursor s s.keyboard.vdX s.keyboard.vdY
    else
      let s := putc s c
      let s := s.setKeyboard fun kb => { kb with count := kb.count + 1 }
      resetCursor s s.keyboard.vdX s.keyboard.vdY

/-- The end of both branches of `backspace`: the last character is dropped from the buffer. -/
def dropTyped (s : Kernel) : Kernel :=
  if s.keyboard.count > 0 ∧ s.keyboard.bufIndex > 0 then
    s.setKeyboard fun kb =>
      { kb with
        count := kb.count - 1
        bufIndex := kb.bufIndex - 1
        keyboardbuf := Function.update kb.keyboardbuf (kb.bufIndex - 1) 0 }
  else s

/-- `backspace`. -/
def backspace (s : Kernel) : Kernel :=
  -- At the start of the line, or in the corner of the screen, there is nothing to erase.
  if s.keyboard.count = 0 then s
  else if s.keyboard.vdX = 0 ∧ s.keyboard.vdY = 0 then s
  else if s.keyboard.vdX = 0 ∧ s.keyboard.count = 0 ∧ s.keyboard.bufIndex = 0 then s
  else if s.keyboard.vdX = 0 then
    -- From the first column the editor goes back to the row above.
    let s := putUpbackspace s
    let s := s.setKeyboard fun kb => { kb with vdX := (screenLegth : Int) - 1, vdY := kb.vdY - 1 }
    let s := resetPosition s s.keyboard.vdX s.keyboard.vdY
    dropTyped (resetCursor s s.keyboard.vdX s.keyboard.vdY)
  else
    let s := putBackspace s
    let s := s.setKeyboard fun kb => { kb with vdX := kb.vdX - 1 }
    let s := resetPosition s s.keyboard.vdX s.keyboard.vdY
    dropTyped (resetCursor s s.keyboard.vdX s.keyboard.vdY)

/--
`copy_to_teminal`: the line is left in the displayed terminal's record for its reader.

The line itself has at most 128 bytes, and the index it is added to may end anywhere.
-/
def copyToTeminal (s : Kernel) (keyBuf : Nat → Byte) (index : Nat) : Kernel :=
  s.setTerminal s.currentId fun term =>
    { term with
      readFlag := true
      buf := fun i => if i < index then keyBuf i else term.buf i
      -- Each stored byte counts the terminal's own index up from where it stood.
      bufIndex := term.bufIndex + index }

/-- The end of the Enter branch of `print_keyboard`: the editor moves to the next screen line. -/
def nextLine (s : Kernel) : Kernel :=
  if s.keyboard.vdY ≤ screenWidth + 1 then
    let s := s.setKeyboard fun kb => { kb with vdX := 0, vdY := kb.vdY + 1 }
    let s := resetCursor s s.keyboard.vdX s.keyboard.vdY
    s.setKeyboard fun kb => { kb with bufIndex := 0, count := 0 }
  else
    -- On the last row the page is scrolled, unless printing the newline did it.
    let s := if s.keyboard.enterFlag then s else clearRow (resetVideo s)
    let s := s.setKeyboard fun kb => { kb with vdX := 0, vdY := screenWidth + 1 }
    let s := resetCursor s s.keyboard.vdX s.keyboard.vdY
    let s := resetPosition s s.keyboard.vdX s.keyboard.vdY
    s.setKeyboard fun kb => { kb with bufIndex := 0, count := 0, enterFlag := false }

/-- The branch of `print_keyboard` taken for Enter. -/
def enterKey (s : Kernel) : Kernel :=
  -- The newline is printed, and stored like any other character.
  let s := prout s 0x0A
  let s := copyToTeminal s s.keyboard.keyboardbuf s.keyboard.bufIndex
  nextLine (clearbuffuer s)

/-- The branch of `print_keyboard` taken for `l` while Control is held. -/
def clearKey (s : Kernel) : Kernel :=
  let s := resetPosition (resetCursor (clear s) 0 0) 0 0
  s.setKeyboard fun kb => { kb with count := 0, bufIndex := 0, vdX := 0, vdY := 0 }

end SmallOs
