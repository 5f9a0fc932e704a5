import SmallOs.Abstract.Lines
import SmallOs.Abstract.TextTerminal

/-! Terminals that have nothing to do with each other: a screen, and the line that is typed on it. -/

namespace SmallOs

namespace TextTerminal

/-- There are columns, so they have literals. -/
local instance neZero_columns : NeZero 80 :=
  Nat.instNeZeroSucc

/-- So have the rows. -/
local instance neZero_rows : NeZero 25 :=
  Nat.instNeZeroSucc

/-- A screen of spaces, printed on from its first cell on. -/
def blank : TextTerminal :=
  ⟨fun _ _ => Cell.blank, 0, 0⟩

/-- The position moves back by one cell, from the first column to the end of the row above. -/
def back (t : TextTerminal) : TextTerminal :=
  if 0 < t.x.val then { t with x := ⟨t.x.val - 1, by omega⟩ }
  else if 0 < t.y.val then { t with x := 79, y := ⟨t.y.val - 1, by omega⟩ }
  else t

/-- The cell before the position is erased, and is the next one to be printed in. -/
def erase (t : TextTerminal) : TextTerminal :=
  t.back.put space

/-- Print a text without line wrap. -/
def overprints (t : TextTerminal) (text : List Byte) : TextTerminal :=
  text.foldl overprint t

end TextTerminal

/-- A terminal on its own. -/
structure Tty where
  screen : TextTerminal
  /-- The line that is being typed. -/
  line : List Byte

namespace Tty

/-- A terminal that was just opened. -/
def blank : Tty :=
  ⟨.blank, []⟩

/-- A text is printed, which wraps no line. -/
def prints (tty : Tty) (text : List Byte) : Tty :=
  { tty with screen := tty.screen.overprints text }

/-- What a key shows, where typed characters do wrap. -/
def echo (tty : Tty) : KeyAction → TextTerminal
  | .char c => if tty.line.length < bufsize then tty.screen.print .characters c else tty.screen
  | .backspace => if tty.line = [] then tty.screen else tty.screen.erase
  | .enter => tty.screen.newRow .characters
  | .clear => .blank
  | .display _ | .nothing => tty.screen

/-- A key is typed. -/
def key (tty : Tty) (action : KeyAction) : Tty :=
  ⟨tty.echo action, edit tty.line action⟩

end Tty

/-- The three terminals. -/
abbrev Ttys := Terminal → Tty

namespace Ttys

variable (ttys : Ttys) (t : Terminal)

/-- A key is typed on one of them. -/
def type (action : KeyAction) : Ttys :=
  Function.update ttys t ((ttys t).key action)

/-- A text is printed on one of them. -/
def print (text : List Byte) : Ttys :=
  Function.update ttys t ((ttys t).prints text)

/-- One of them is opened. -/
def start : Ttys :=
  Function.update ttys t .blank

end Ttys

end SmallOs
