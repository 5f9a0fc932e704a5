import SmallOs.Kernel.Terminal

/-! The keyboard interrupt of `keyboard.c`: scan codes, modifier flags, and the key tables. -/

namespace SmallOs

/-- One entry of `keyboard_sc` or `keyboard_Cap`: the scan code of a press, and its character. -/
structure Kboard where
  pressed : Byte
  asciiNumber : Byte

/-- `character_pressed_array`: the scan codes of `a` to `z`. -/
def characterPressedArray : List Byte :=
  [0x1E, 0x30, 0x2E, 0x20, 0x12, 0x21, 0x22, 0x23, 0x17, 0x24, 0x25, 0x26, 0x32,
   0x31, 0x18, 0x19, 0x10, 0x13, 0x1F, 0x14, 0x16, 0x2F, 0x11, 0x2D, 0x15, 0x2C]

/-- The twenty-six letter entries of a table, from the character of its first letter on. -/
def letterEntries (first : Nat) : List Kboard :=
  -- The loops of `ini_keyboard` count the character up with the place in the array.
  characterPressedArray.mapIdx fun i pressed => ⟨pressed, UInt8.ofNat (first + i)⟩

/-- The ten digit entries of `keyboard_sc`. -/
def digitEntries : List Kboard :=
  (List.range 9).map (fun x => ⟨UInt8.ofNat (0x02 + x), UInt8.ofNat (0x31 + x)⟩) ++ [⟨0x0B, 0x30⟩]

/-- `keyboard_sc`, as `ini_keyboard` fills it. -/
def keyboardSc : List Kboard :=
  digitEntries ++ letterEntries 0x61

/-- `keyboard_Cap`, as `ini_keyboard` fills it. -/
def keyboardCap : List Kboard :=
  [⟨0x0B, 0x29⟩, ⟨0x02, 0x21⟩, ⟨0x03, 0x40⟩, ⟨0x04, 0x23⟩, ⟨0x05, 0x24⟩,
   ⟨0x06, 0x25⟩, ⟨0x07, 0x5E⟩, ⟨0x08, 0x26⟩, ⟨0x09, 0x2A⟩, ⟨0x0A, 0x28⟩] ++ letterEntries 0x41

/-- The keys tested one by one while Shift is held. -/
def shiftKeys : List Kboard :=
  [⟨0x29, 0x7E⟩, ⟨0x0C, 0x5F⟩, ⟨0x0D, 0x2B⟩, ⟨0x1A, 0x7B⟩, ⟨0x1B, 0x7D⟩, ⟨0x2B, 0x7C⟩,
   ⟨0x27, 0x3A⟩, ⟨0x28, 0x22⟩, ⟨0x33, 0x3C⟩, ⟨0x34, 0x3E⟩, ⟨0x35, 0x3F⟩]

/-- The keys tested one by one while Shift is not held, with Caps Lock on or off. -/
def plainKeys : List Kboard :=
  [⟨0x29, 0x60⟩, ⟨0x0C, 0x2D⟩, ⟨0x0D, 0x3D⟩, ⟨0x1A, 0x5B⟩, ⟨0x1B, 0x5D⟩, ⟨0x27, 0x3B⟩,
   ⟨0x28, 0x27⟩, ⟨0x33, 0x2C⟩, ⟨0x34, 0x2E⟩, ⟨0x35, 0x2F⟩, ⟨0x2B, 0x5C⟩]

/-- The character of the first entry a scan code matches. -/
def lookupKey (table : List Kboard) (c : Byte) : Option Byte :=
  (table.find? fun key => key.pressed = c).map Kboard.asciiNumber

/-- The character the tables give a scan code under the modifier flags. -/
def typedChar (kb : Keyboard) (c : Byte) : Option Byte :=
  -- Shift decides first, so Caps Lock has no effect while it is held.
  if kb.shiftFlags then lookupKey (shiftKeys ++ keyboardCap) c
  -- Caps Lock takes digits from one table, and letters from the other.
  else if kb.capsLockFlags then
    lookupKey (plainKeys ++ keyboardSc.take 10 ++ keyboardCap.drop 10) c
  else lookupKey (plainKeys ++ keyboardSc) c

/-- The first tests of `print_keyboard`: a release clears its modifier's flag. -/
def releaseFlags (kb : Keyboard) (c : Byte) : Keyboard :=
  let kb := if c = 0xAA ∨ c = 0xB6 then { kb with shiftFlags := false } else kb
  let kb := if c = 0x9D then { kb with ctrlFlags := false } else kb
  if c = 0xB8 then { kb with altFlags := false } else kb

/-- The next tests of `print_keyboard`: a press sets, or toggles, its modifier's flag. -/
def pressFlags (kb : Keyboard) (c : Byte) : Keyboard :=
  let kb := if c = 0x3A then { kb with capsLockFlags := !kb.capsLockFlags } else kb
  let kb := if c = 0x2A ∨ c = 0x36 then { kb with shiftFlags := true } else kb
  let kb := if c = 0x1D then { kb with ctrlFlags := true } else kb
  if c = 0x38 then { kb with altFlags := true } else kb

/-- What one press asks for, once the modifier flags are up to date. -/
inductive KeyAction where
  /-- A character is typed into the line. -/
  | char (c : Byte)
  | backspace
  | enter
  /-- `l` is pressed while Control is held. -/
  | clear
  /-- The function key of a terminal is pressed while Alt is held. -/
  | display (t : Terminal)
  /-- Modifiers, releases, and keys no table names. -/
  | nothing
  deriving DecidableEq, Repr

/-- The branch of `print_keyboard` a press takes, in the order the source tests them. -/
def keyAction (kb : Keyboard) (c : Byte) : KeyAction :=
  -- Enter is tested before the modifiers, so they do not change it.
  if c = 0x1C then .enter
  else if kb.altFlags ∧ c = 0x3C then .display 1
  else if kb.altFlags ∧ c = 0x3B then .display 0
  else if kb.altFlags ∧ c = 0x3D then .display 2
  else if kb.ctrlFlags ∧ c = 0x26 then .clear
  -- Neither space nor Backspace is in a table, so the tests that follow them find nothing more.
  else if c = 0x39 then .char space
  else if c = 0x0E then .backspace
  else match typedChar kb c with
    | some ascii => .char ascii
    | none => .nothing

/-- The switch a function key makes: the line is copied out first. -/
def displayKey (s : Kernel) (t : Terminal) : Kernel :=
  let s := copyKeyboardBuf s s.keyboard.keyboardbuf s.keyboard.bufIndex
  -- Each function key has a routine of its own.
  match t with
  | 0 => switchToTerminal1 s
  | 1 => switchToTerminal2 s
  | 2 => switchToTerminal3 s

/-- Carry out what a press asks for, where that is defined. -/
def performKey (s : Kernel) : KeyAction → Kernel
  | .char c => prout s c
  | .backspace => backspace s
  | .enter => enterKey s
  | .clear => clearKey s
  | .display t => displayKey s t
  | .nothing => s

/-- The keyboard after the tests of the modifier keys. -/
def flagsAfter (kb : Keyboard) (c : Byte) : Keyboard :=
  -- The releases are tested before the bound, and the presses behind it.
  if c > 0x80 then releaseFlags kb c else pressFlags (releaseFlags kb c) c

/-- What a scan code asks for: a release asks for nothing. -/
def pressAction (kb : Keyboard) (c : Byte) : KeyAction :=
  -- A release above the bound returns before any table is searched.
  if c > 0x80 then .nothing else keyAction (flagsAfter kb c) c

/-- Backspace gets as far as the buffer, with a character counted and away from the corner. -/
def erases (s : Kernel) : Bool :=
  s.keyboard.count ≠ 0 ∧ ¬ (s.keyboard.vdX = 0 ∧ s.keyboard.vdY = 0)

/-- The state in which `backspace` stores: the screen's position is moved back first. -/
def movedBack (s : Kernel) : Kernel :=
  if s.keyboard.vdX = 0 then stepUp s else stepLeft s

/-- The page of the cell Backspace blanks is present. -/
def BlanksPresent (s : Kernel) : Prop :=
  PresentCell (movedBack s).console.screenX (movedBack s).console.screenY

instance (s : Kernel) : Decidable (BlanksPresent s) :=
  inferInstanceAs (Decidable (PresentCell _ _))

/--
The loops and stores of a key stay inside `keyboardbuf`, `kbbuf` and the terminals' buffers.

An index past the end would make them overwrite the variables behind these arrays of 128 bytes.
-/
def KeyFits (s : Kernel) : KeyAction → Prop
  -- `prout` tests the index before it stores, and the position and the index are all it changes.
  | .char _ | .clear | .nothing => True
  | .backspace => erases s = true → s.keyboard.bufIndex ≤ bufsize
  -- The line is copied with the newline `prout` has added to it.
  | .enter => (prout s 0x0A).keyboard.bufIndex ≤ bufsize
  -- The line is copied out, and where an open terminal is switched to, its own is copied back.
  | .display t =>
    s.keyboard.bufIndex ≤ bufsize ∧
      (t ≠ s.currentId → t = 0 ∨ (s.terminals t).isOpen = true →
        (s.terminals t).bufIndex ≤ bufsize)

instance (s : Kernel) : (action : KeyAction) → Decidable (KeyFits s action)
  | .char _ | .clear | .nothing => inferInstanceAs (Decidable True)
  | .backspace => inferInstanceAs (Decidable (erases s = true → s.keyboard.bufIndex ≤ bufsize))
  | .enter => inferInstanceAs (Decidable ((prout s 0x0A).keyboard.bufIndex ≤ bufsize))
  | .display t =>
    inferInstanceAs (Decidable (s.keyboard.bufIndex ≤ bufsize ∧
      (t ≠ s.currentId → t = 0 ∨ (s.terminals t).isOpen = true →
        (s.terminals t).bufIndex ≤ bufsize)))

/-- A switch to a different, already open terminal, as a function key makes it where the lines fit. -/
def switchStep (s : Kernel) (t : Terminal) : Option Kernel :=
  if t ≠ s.currentId ∧ (s.terminals t).isOpen = true ∧ KeyFits s (.display t) then
    some (displayKey s t)
  else none

/--
What a key does is defined: it stays inside the buffers, and does not fault on the screen.

Where Backspace stores to a page that is not present, the exception handler stops the machine.
-/
def KeyDefined (s : Kernel) (action : KeyAction) : Prop :=
  KeyFits s action ∧ (action = .backspace → erases s = true → BlanksPresent s)

instance (s : Kernel) (action : KeyAction) : Decidable (KeyDefined s action) :=
  inferInstanceAs (Decidable (_ ∧ _))

/--
`print_keyboard`, on the scan code read from the port.

The machine takes a key only where `KeyDefined` holds: the functions below are about the others.
-/
def printKeyboard (s : Kernel) (c : Byte) : Kernel :=
  let s := s.setKeyboard fun kb => releaseFlags kb c
  -- Releases above the bound only change flags.
  if c > 0x80 then s
  else
    let s := s.setKeyboard fun kb => pressFlags kb c
    performKey s (keyAction s.keyboard c)

end SmallOs
