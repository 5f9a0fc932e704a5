import SmallOs.Kernel.State

/-! The screen functions of `lib.c`, with the position setters of the files they call into. -/

namespace SmallOs

open Foundation

/-- `VIDEO` and `screen_memeory`: the address of the live screen. -/
def videoBase : Nat := 0xB8000

/-- `onepage`: the bytes a terminal's backing page holds. -/
def onepage : Nat := 0x1000

/-- `NUM_COLS`. -/
def numCols : Nat := 80

/-- `NUM_ROWS`. -/
def numRows : Nat := 25

/-- `ATTRIB`. -/
def attrib : Byte := 0x7

/-- `space`. -/
def space : Byte := 0x20

/-- `terminals[t].video_ptr`, which is also the page `putm` picks for `curr_terminal`. -/
def videoPtr (t : Terminal) : Nat :=
  videoBase + onepage * (t.val + 1)

/-- The address of a screen cell of the page at `base`. -/
def cellAddr (base : Nat) (x y : Int) : Nat :=
  ((base : Int) + 2 * (numCols * y + x)).toNat

/-- Store a character and the attribute at the two bytes of a cell. -/
def storeCell (address : Nat) (c : Byte) (video : Nat → Byte) : Nat → Byte :=
  Function.update (Function.update video address c) (address + 1) attrib

/-- One turn of the scrolling loop: the cell below moves up. -/
def scrollCell (base a : Nat) (video : Nat → Byte) (b : Nat) : Nat → Byte :=
  storeCell (base + 2 * (numCols * a + b)) (video (base + 2 * (numCols * (a + 1) + b))) video

/-- One row of the scrolling loop. -/
def scrollRow (base : Nat) (video : Nat → Byte) (a : Nat) : Nat → Byte :=
  (List.range numCols).foldl (scrollCell base a) video

/-- The nested loops that move every row of a page up by one. -/
def scrollRows (base : Nat) (video : Nat → Byte) : Nat → Byte :=
  (List.range (numRows - 1)).foldl (scrollRow base) video

/-- The loop that blanks the last row of a page. -/
def blankRow (base : Nat) (video : Nat → Byte) : Nat → Byte :=
  (List.range numCols).foldl
    (fun video a => storeCell (base + 2 * (numCols * (numRows - 1) + a)) space video) video

/-- The loop of `clear` over the whole screen. -/
def clearScreen (video : Nat → Byte) : Nat → Byte :=
  -- The cells are numbered through, from the first row to the last.
  (List.range (numRows * numCols)).foldl
    (fun video i => storeCell (videoBase + 2 * i) space video) video

namespace Kernel

/-- Change the console. -/
def setConsole (s : Kernel) (change : Console → Console) : Kernel :=
  { s with console := change s.console }

/-- Change the keyboard's variables. -/
def setKeyboard (s : Kernel) (change : Keyboard → Keyboard) : Kernel :=
  { s with keyboard := change s.keyboard }

/-- Change the statics of the switch routines. -/
def setSwitch (s : Kernel) (change : SwitchStatics → SwitchStatics) : Kernel :=
  { s with switch := change s.switch }

/-- Make a terminal the displayed one. -/
def display (s : Kernel) (t : Terminal) : Kernel :=
  { s with currentId := t }

end Kernel

/-- `clear`. -/
def clear (s : Kernel) : Kernel :=
  s.setConsole fun con => { con with video := clearScreen con.video }

/-- `get_position`, which sets the statics it is named after. -/
def getPosition (s : Kernel) (x y : Int) : Kernel :=
  s.setSwitch fun sw => { sw with currentX := x, currentY := y }

/-- `get_cursor`, which sets the statics it is named after. -/
def getCursor (s : Kernel) (x y : Int) : Kernel :=
  s.setSwitch fun sw => { sw with currentCursorX := x, currentCursorY := y }

/-- `reset_position`. -/
def resetPosition (s : Kernel) (x y : Int) : Kernel :=
  (getPosition s x y).setConsole fun con => { con with screenX := x, screenY := y }

/-- `reset_cursor`: the sixteen-bit position is sent in two bytes. -/
def resetCursor (s : Kernel) (x y : Int) : Kernel :=
  (getCursor s x y).setConsole fun con =>
    { con with cursor := ((y * numCols + x) % 2 ^ 16).toNat }

/-- `copy_position`. -/
def copyPosition (s : Kernel) (x y : Int) : Kernel :=
  s.setKeyboard fun kb => { kb with vdX := x, vdY := y }

/-- `keyboard_write`. -/
def keyboardWrite (s : Kernel) : Kernel :=
  s.setKeyboard fun kb => { kb with enterFlag := true }

/-- `reset_video`. -/
def resetVideo (s : Kernel) : Kernel :=
  s.setConsole fun con => { con with video := scrollRows videoBase con.video }

/-- `clear_row`. -/
def clearRow (s : Kernel) : Kernel :=
  s.setConsole fun con => { con with video := blankRow videoBase con.video }

/-- The first statement of `put_backspace`: the position moves to the left. -/
def stepLeft (s : Kernel) : Kernel :=
  s.setConsole fun con => { con with screenX := con.screenX - 1 }

/-- The first statements of `put_upbackspace`: the position moves to the end of the row above. -/
def stepUp (s : Kernel) : Kernel :=
  s.setConsole fun con =>
    { con with screenX := (numCols : Int) - 1, screenY := con.screenY - 1 }

/-- A cell of the live screen or of the backing pages behind it: every page around these is absent. -/
def PresentCell (x y : Int) : Prop :=
  0 ≤ (numCols : Int) * y + x ∧ 2 * ((numCols : Int) * y + x) + 1 < 4 * onepage

instance (x y : Int) : Decidable (PresentCell x y) :=
  inferInstanceAs (Decidable (_ ∧ _))

/-- The stores both functions end with, to a cell whose page is present. -/
def blankCell (s : Kernel) : Kernel :=
  s.setConsole fun con =>
    { con with video := storeCell (cellAddr videoBase con.screenX con.screenY) space con.video }

/-- `put_backspace`, where the page of the cell is present. -/
def putBackspace (s : Kernel) : Kernel :=
  blankCell (stepLeft s)

/-- `put_upbackspace`, where the page of the cell is present. -/
def putUpbackspace (s : Kernel) : Kernel :=
  blankCell (stepUp s)

/-- The three setters that publish the screen position, in the order `putc` calls them. -/
def publishPosition (s : Kernel) : Kernel :=
  let x := s.console.screenX
  let y := s.console.screenY
  resetCursor (resetPosition (copyPosition s x y) x y) x y

/-- `putc`. -/
def putc (s : Kernel) (c : Byte) : Kernel :=
  if c = 0x0A ∨ c = 0x0D then
    if s.console.screenY = numRows - 1 then
      let s := keyboardWrite s
      let s := s.setConsole fun con => { con with screenX := 0, screenY := numRows - 1 }
      publishPosition (clearRow (resetVideo s))
    else
      publishPosition (s.setConsole fun con =>
        { con with screenX := 0, screenY := con.screenY + 1 })
  else
    publishPosition (s.setConsole fun con =>
      -- The column is reduced before it is carried into the row.
      let x := (con.screenX + 1).tmod numCols
      { con with
        video := storeCell (cellAddr videoBase con.screenX con.screenY) c con.video
        screenX := x
        screenY := (con.screenY + x.tdiv numCols).tmod numRows })

/-- `printf` and `puts` of a text without conversions. -/
def putText (s : Kernel) (text : List Byte) : Kernel :=
  -- Both functions print one character after another.
  text.foldl putc s

/-- The address `putm` computes with unsigned coordinates. -/
def cellAddrUnsigned (base x y : Nat) : Nat :=
  base + u32 (2 * (numCols * y + x))

/-- `putm`, on the backing page of the scheduled terminal. -/
def putm (s : Kernel) (c : Byte) : Kernel :=
  let printscreen := videoPtr s.currTerminal
  let x := s.scheduled.screenX
  let y := s.scheduled.screenY
  if c = 0x0A ∨ c = 0x0D then
    -- On the last row the page itself is scrolled, and nothing of the live screen.
    if y = numRows - 1 then
      let s := keyboardWrite s
      let s := s.setTerminal s.currTerminal fun term =>
        { term with screenX := 0, screenY := numRows - 1 }
      s.setConsole fun con =>
        { con with video := blankRow printscreen (scrollRows printscreen con.video) }
    else
      s.setTerminal s.currTerminal fun term =>
        { term with screenX := 0, screenY := u32 (term.screenY + 1) }
  else
    let s := s.setConsole fun con =>
      { con with video := storeCell (cellAddrUnsigned printscreen x y) c con.video }
    let x := u32 (x + 1) % numCols
    s.setTerminal s.currTerminal fun term =>
      { term with screenX := x, screenY := u32 (y + x / numCols) % numRows }

end SmallOs
