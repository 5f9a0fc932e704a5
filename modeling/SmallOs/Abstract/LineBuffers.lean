import SmallOs.Kernel.Keyboard

/-! The buffers a line passes through, apart from the rest of the kernel: the editor's, and one for each terminal. -/

namespace SmallOs

open Foundation

/-- The part of a terminal's record through which its lines pass. -/
structure Mailbox where
  isOpen : Bool
  buf : Nat → Byte
  bufIndex : Nat
  readFlag : Bool

/--
The bytes a reader finds from a mailbox's buffer on.

The index follows the buffer, and the page pointer that follows the index starts with a NUL.
-/
def Mailbox.bytes (box : Mailbox) : Nat → Byte :=
  fun i =>
    if i < bufsize then box.buf i
    else (wordBytes box.bufIndex).getD (i - bufsize) 0

/-- The text a reader would take out of a mailbox: the bytes before the first NUL. -/
def Mailbox.text (box : Mailbox) : List Byte :=
  bytesOf box.bytes (strlen box.bytes (bufsize + 5))

/-- The completed line that waits in a mailbox, if there is one. -/
def Mailbox.pending (box : Mailbox) : List (List Byte) :=
  if box.readFlag then [box.text] else []

/-- Everything that holds a line: the editor of the displayed terminal, and the mailboxes. -/
structure LineBuffers where
  displayed : Terminal
  keyboardbuf : Nat → Byte
  bufIndex : Nat
  count : Nat
  mailboxes : Terminal → Mailbox

namespace LineBuffers

variable (b : LineBuffers)

/-- The mailbox of the displayed terminal. -/
def front : Mailbox :=
  b.mailboxes b.displayed

/-- The mailbox of the displayed terminal is replaced. -/
def deliver (box : Mailbox) : LineBuffers :=
  { b with mailboxes := Function.update b.mailboxes b.displayed box }

/-- The editor's buffer is cleared, up to its size. -/
def wipe : LineBuffers :=
  { b with keyboardbuf := fun i => if i < bufsize then 0 else b.keyboardbuf i }

/-- A character is typed. -/
def type (c : Byte) : LineBuffers :=
  -- The counter alone decides, and the index alone says where the character goes.
  if b.count = bufsize then b
  else
    { b with
      keyboardbuf :=
        if b.bufIndex ≤ bufsize - 1 then Function.update b.keyboardbuf b.bufIndex c
        else b.keyboardbuf
      bufIndex := b.bufIndex + 1
      count := b.count + 1 }

/-- The last character is erased. -/
def erase : LineBuffers :=
  if b.count > 0 ∧ b.bufIndex > 0 then
    { b with
      keyboardbuf := Function.update b.keyboardbuf (b.bufIndex - 1) 0
      bufIndex := b.bufIndex - 1
      count := b.count - 1 }
  else b

/-- The line is handed over, and a new one begins. -/
def enter : LineBuffers :=
  let b := b.type 0x0A
  let handed := b.deliver { b.front with
    readFlag := true
    buf := fun i => if i < b.bufIndex then b.keyboardbuf i else b.front.buf i
    -- The mailbox's index is added to, not set.
    bufIndex := b.front.bufIndex + b.bufIndex }
  { handed.wipe with bufIndex := 0, count := 0 }

/-- The unfinished line is put away in the mailbox of the displayed terminal. -/
def leave : LineBuffers :=
  let saved := b.deliver { b.front with
    buf := fun i =>
      if i < b.bufIndex then b.keyboardbuf i else if i < bufsize then 0 else b.front.buf i
    bufIndex := b.bufIndex }
  -- The counter stays behind, and goes on counting on the next terminal.
  { saved.wipe with bufIndex := 0 }

/-- A terminal is displayed with the line in its mailbox. -/
def restore (t : Terminal) : LineBuffers :=
  { b with
    displayed := t
    keyboardbuf := fun i =>
      if i < (b.mailboxes t).bufIndex then (b.mailboxes t).buf i else b.keyboardbuf i
    bufIndex := (b.mailboxes t).bufIndex }

/-- A terminal is displayed for the first time. -/
def start (t : Terminal) : LineBuffers :=
  { b with
    displayed := t
    mailboxes := Function.update b.mailboxes t { b.mailboxes t with isOpen := true } }

/-- A function key displays a terminal, where the first one counts as open. -/
def display (t : Terminal) : LineBuffers :=
  if b.displayed = t then b
  else if t = 0 ∨ (b.mailboxes t).isOpen then b.leave.restore t else b.leave.start t

/-- What a key does, where Backspace erases only where the editor stands away from the corner. -/
def key (erases : Bool) : KeyAction → LineBuffers
  -- The modifiers were taken into account when the action was found.
  | .char c => b.type c
  | .backspace => if erases then b.erase else b
  | .enter => b.enter
  | .clear => { b with bufIndex := 0, count := 0 }
  | .display t => b.display t
  | .nothing => b

/-- A process takes the line of the displayed terminal. -/
def take : LineBuffers :=
  -- The index says how far the buffer is cleared, and is cleared itself.
  b.deliver { b.front with
    buf := fun i => if i < b.front.bufIndex ∧ i < bufsize then 0 else b.front.buf i
    bufIndex := 0
    readFlag := false }

section Laws

variable {b : LineBuffers}

@[simp] theorem deliver_front (box : Mailbox) : (b.deliver box).mailboxes b.displayed = box :=
  Function.update_self _ _ _

/-- Only the displayed terminal's mailbox is replaced. -/
theorem deliver_other (box : Mailbox) {t : Terminal} (other : t ≠ b.displayed) :
    (b.deliver box).mailboxes t = b.mailboxes t :=
  Function.update_of_ne other _ _

/-- Typing changes no mailbox. -/
theorem type_mailboxes (c : Byte) :
    (b.type c).mailboxes = b.mailboxes ∧ (b.type c).displayed = b.displayed := by
  -- Whether there is room or not, only the editor changes.
  unfold type
  split
  · exact ⟨rfl, rfl⟩
  · exact ⟨rfl, rfl⟩

theorem type_front (c : Byte) : (b.type c).front = b.front := by
  obtain ⟨boxes, shown⟩ := type_mailboxes (b := b) c
  unfold front
  rw [boxes, shown]

/-- What Enter leaves in the mailbox of the displayed terminal. -/
theorem enter_front : b.enter.mailboxes b.displayed =
    { b.front with
      readFlag := true
      buf := fun i => if i < (b.type 0x0A).bufIndex then (b.type 0x0A).keyboardbuf i
        else b.front.buf i
      bufIndex := b.front.bufIndex + (b.type 0x0A).bufIndex } := by
  obtain ⟨-, shown⟩ := type_mailboxes (b := b) 0x0A
  have delivered := deliver_front (b := b.type 0x0A) { (b.type 0x0A).front with
    readFlag := true
    buf := fun i => if i < (b.type 0x0A).bufIndex then (b.type 0x0A).keyboardbuf i
      else (b.type 0x0A).front.buf i
    bufIndex := (b.type 0x0A).front.bufIndex + (b.type 0x0A).bufIndex }
  rw [shown] at delivered
  -- Typing the newline left the mailbox as it was.
  refine Eq.trans delivered ?_
  rw [type_front]

/-- Enter leaves every other mailbox alone. -/
theorem enter_other {t : Terminal} (other : t ≠ b.displayed) :
    b.enter.mailboxes t = b.mailboxes t := by
  -- The newline goes into the editor, and the line into one mailbox.
  obtain ⟨boxes, shown⟩ := type_mailboxes (b := b) 0x0A
  have delivered := deliver_other (b := b.type 0x0A) { (b.type 0x0A).front with
    readFlag := true
    buf := fun i => if i < (b.type 0x0A).bufIndex then (b.type 0x0A).keyboardbuf i
      else (b.type 0x0A).front.buf i
    bufIndex := (b.type 0x0A).front.bufIndex + (b.type 0x0A).bufIndex } (shown ▸ other)
  rw [boxes] at delivered
  exact delivered

/-- What a switch puts away in the mailbox of the displayed terminal. -/
theorem leave_front : b.leave.mailboxes b.displayed =
    { b.front with
      buf := fun i =>
        if i < b.bufIndex then b.keyboardbuf i else if i < bufsize then 0 else b.front.buf i
      bufIndex := b.bufIndex } :=
  Function.update_self _ _ _

theorem leave_other {t : Terminal} (other : t ≠ b.displayed) :
    b.leave.mailboxes t = b.mailboxes t :=
  Function.update_of_ne other _ _

end Laws

end LineBuffers

end SmallOs
