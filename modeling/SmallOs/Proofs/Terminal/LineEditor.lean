import SmallOs.Proofs.Terminal.Positions

/-! The line editor of `keyboard.c`: what each key does to the unfinished line, wherever it stands on the screen. -/

namespace SmallOs

open Foundation

/-- The line in the editor. -/
def Kernel.line (s : Kernel) : List Byte :=
  -- The buffer may hold older bytes behind the index, which are no part of the line.
  bytesOf s.keyboard.keyboardbuf s.keyboard.bufIndex

/-- The line, its two counters and the modifier flags, as a step on the screen leaves them. -/
structure SameLine (s next : Kernel) : Prop where
  keyboardbuf : next.keyboard.keyboardbuf = s.keyboard.keyboardbuf
  bufIndex : next.keyboard.bufIndex = s.keyboard.bufIndex
  count : next.keyboard.count = s.keyboard.count
  modifiers : next.keyboard.modifiers = s.keyboard.modifiers

namespace SameLine

variable {s middle next : Kernel}

theorem refl (s : Kernel) : SameLine s s := ⟨rfl, rfl, rfl, rfl⟩

/-- The flags are the same when each of them is. -/
theorem of_flags (keyboardbuf : next.keyboard.keyboardbuf = s.keyboard.keyboardbuf)
    (bufIndex : next.keyboard.bufIndex = s.keyboard.bufIndex)
    (count : next.keyboard.count = s.keyboard.count)
    (flags : next.keyboard.capsLockFlags = s.keyboard.capsLockFlags ∧
      next.keyboard.shiftFlags = s.keyboard.shiftFlags ∧
      next.keyboard.ctrlFlags = s.keyboard.ctrlFlags ∧
      next.keyboard.altFlags = s.keyboard.altFlags) : SameLine s next :=
  ⟨keyboardbuf, bufIndex, count, modifiers_iff.mpr flags⟩

theorem trans (first : SameLine s middle) (second : SameLine middle next) : SameLine s next :=
  ⟨second.keyboardbuf.trans first.keyboardbuf, second.bufIndex.trans first.bufIndex,
    second.count.trans first.count, second.modifiers.trans first.modifiers⟩

theorem line (same : SameLine s next) : next.line = s.line := by
  -- The line is read off the buffer and its index.
  unfold Kernel.line
  rw [same.keyboardbuf, same.bufIndex]

end SameLine

/-- Printing on the screen leaves the line in the editor alone. -/
theorem sameLine_putc (s : Kernel) (c : Byte) : SameLine s (putc s c) := by
  -- The keyboard is touched where the editor is moved along, and where a scroll is noted.
  unfold putc
  split
  · split
    · exact .of_flags rfl rfl rfl ⟨rfl, rfl, rfl, rfl⟩
    · exact .of_flags rfl rfl rfl ⟨rfl, rfl, rfl, rfl⟩
  · exact .of_flags rfl rfl rfl ⟨rfl, rfl, rfl, rfl⟩

section Typing

variable {s : Kernel}

/-- Settling counts the character, and leaves the line as it was stored. -/
theorem settle_line (wraps : Bool) (s : Kernel) :
    (settle wraps s).keyboard.keyboardbuf = s.keyboard.keyboardbuf ∧
      (settle wraps s).keyboard.bufIndex = s.keyboard.bufIndex ∧
      (settle wraps s).keyboard.count = s.keyboard.count + 1 ∧
      (settle wraps s).keyboard.modifiers = s.keyboard.modifiers := by
  -- Only the position is treated differently in the three branches.
  unfold settle
  split
  · simp only
    split
    · exact ⟨rfl, rfl, rfl, modifiers_iff.mpr ⟨rfl, rfl, rfl, rfl⟩⟩
    · exact ⟨rfl, rfl, rfl, modifiers_iff.mpr ⟨rfl, rfl, rfl, rfl⟩⟩
  · exact ⟨rfl, rfl, rfl, modifiers_iff.mpr ⟨rfl, rfl, rfl, rfl⟩⟩

@[simp] theorem keyboard_setConsole (s : Kernel) (change : Console → Console) :
    (s.setConsole change).keyboard = s.keyboard := rfl

@[simp] theorem keyboard_setKeyboard (s : Kernel) (change : Keyboard → Keyboard) :
    (s.setKeyboard change).keyboard = change s.keyboard := rfl

/-- Clearing the screen leaves the keyboard in the corner, with no character counted. -/
theorem keyboard_clearKey (s : Kernel) : (clearKey s).keyboard =
    { s.keyboard with count := 0, bufIndex := 0, vdX := 0, vdY := 0 } := by
  -- The cells are never compared: each setter keeps the keyboard as a whole.
  have cleared : (clear s).keyboard = s.keyboard := keyboard_setConsole s _
  unfold clearKey
  simp only
  rw [keyboard_setKeyboard, keyboard_resetPosition, keyboard_resetCursor, cleared]

/-- A typed character goes to the end of the line, as long as the buffer has room. -/
theorem storeTyped_line (room : s.keyboard.bufIndex < bufsize) (c : Byte) :
    (storeTyped s c).line = s.line ++ [c] := by
  -- With room the byte lands right behind the line.
  have inside : s.keyboard.bufIndex ≤ bufsize - 1 := by omega
  have stored : (storeTyped s c).keyboard.keyboardbuf =
      Function.update s.keyboard.keyboardbuf s.keyboard.bufIndex c := if_pos inside
  have grown : (storeTyped s c).keyboard.bufIndex = s.keyboard.bufIndex + 1 := rfl
  unfold Kernel.line
  rw [stored, grown, bytesOf_store]

/-- What `prout` does to the line and its counters while it has room. -/
theorem prout_stored (below : s.keyboard.count ≠ bufsize) (c : Byte) :
    (prout s c).keyboard.keyboardbuf = (storeTyped s c).keyboard.keyboardbuf ∧
      (prout s c).keyboard.bufIndex = s.keyboard.bufIndex + 1 ∧
      (prout s c).keyboard.count = s.keyboard.count + 1 ∧
      (prout s c).keyboard.modifiers = s.keyboard.modifiers := by
  -- The line is stored first, and neither the printing nor the settling touches it.
  have printed := sameLine_putc (storeTyped s c) c
  obtain ⟨buf, index, count, flags⟩ :=
    settle_line ((storeTyped s c).keyboard.vdX = screenLegth) (putc (storeTyped s c) c)
  rw [prout_eq below]
  refine ⟨buf.trans printed.keyboardbuf, index.trans printed.bufIndex, ?_,
    flags.trans printed.modifiers⟩
  rw [count, printed.count]
  rfl

/-- A character that is typed while there is room goes to the end of the line. -/
theorem prout_line (below : s.keyboard.count ≠ bufsize) (room : s.keyboard.bufIndex < bufsize)
    (c : Byte) : (prout s c).line = s.line ++ [c] := by
  -- What was stored is still there after the character was printed.
  obtain ⟨buf, index, -, -⟩ := prout_stored below c
  rw [← storeTyped_line room, Kernel.line, buf, index]
  rfl

/-- Where a typed character moves the two positions. -/
def Positions.typed (p : Positions) (c : Byte) : Positions :=
  let printed := printPosition p.screenX p.screenY c
  -- From the last column the editor goes on to the next row, which the screen does not do by itself.
  if p.vdX = 79 then
    { p with
      screenX := 0
      screenY := if printed.2 = 24 then 24 else printed.2 + 1
      vdX := 0
      vdY := printed.2 + 1 }
  else p.publish printed.1 printed.2

/-- Where `prout` moves the two positions while it has room. -/
theorem prout_positions (below : s.keyboard.count ≠ bufsize)
    (column : 0 ≤ s.console.screenX ∧ s.console.screenX < 80)
    (row : 0 ≤ s.console.screenY ∧ s.console.screenY < 25) (c : Byte) :
    (prout s c).positions = s.positions.typed c := by
  have printed := putc_positions_eq (s := storeTyped s c) column row c
  have editorRow : (putc (storeTyped s c) c).keyboard.vdY =
      (printPosition s.console.screenX s.console.screenY c).2 := congrArg Positions.vdY printed
  -- `prout` counts the column before it tests it against the width.
  have wraps : (storeTyped s c).keyboard.vdX = screenLegth ↔ s.keyboard.vdX = 79 := by
    change s.keyboard.vdX + 1 = 80 ↔ _
    omega
  rw [prout_eq below, settle_positions, editorRow, printed]
  simp only [decide_eq_true_eq, wraps]
  rfl

end Typing

section Erasing

variable {s : Kernel}

/-- What Backspace drops from the buffer, once it got that far. -/
theorem dropTyped_line (counted : 0 < s.keyboard.count) :
    (dropTyped s).line = s.line.dropLast ∧
      (dropTyped s).keyboard.bufIndex = s.keyboard.bufIndex - 1 ∧
      (dropTyped s).keyboard.modifiers = s.keyboard.modifiers := by
  unfold dropTyped
  -- The second test of the counters is on the index, which may be zero by itself.
  by_cases some : 0 < s.keyboard.bufIndex
  · rw [if_pos ⟨counted, some⟩]
    exact ⟨bytesOf_erase s.keyboard.keyboardbuf s.keyboard.bufIndex 0, rfl, rfl⟩
  · -- An empty line has nothing to drop.
    have empty : s.keyboard.bufIndex = 0 := by omega
    rw [if_neg fun both => some both.2]
    refine ⟨?_, by omega, rfl⟩
    rw [Kernel.line, empty]
    rfl

/-- With both counters above zero, both are counted down. -/
theorem dropTyped_count (counted : 0 < s.keyboard.count) (some : 0 < s.keyboard.bufIndex) :
    (dropTyped s).keyboard.count = s.keyboard.count - 1 := by
  -- The test is passed, so both are decremented.
  unfold dropTyped
  rw [if_pos ⟨counted, some⟩]
  rfl

/-- Where Backspace moves both positions: one column back, or to the end of the row above. -/
def erasePosition (x y : Int) : Int × Int :=
  if x = 0 then (79, y - 1) else (x - 1, y)

/-- Backspace with something to count, away from the corner, erases and drops one character. -/
theorem backspace_eq (counted : 0 < s.keyboard.count)
    (away : ¬ (s.keyboard.vdX = 0 ∧ s.keyboard.vdY = 0)) :
    ∃ m, backspace s = dropTyped m ∧ SameLine s m ∧
      m.positions = s.positions.publish (erasePosition s.keyboard.vdX s.keyboard.vdY).1
        (erasePosition s.keyboard.vdX s.keyboard.vdY).2 := by
  unfold backspace erasePosition
  rw [if_neg (by omega), if_neg away, if_neg fun all => by omega]
  -- In the first column Backspace goes back to the last column of the row above.
  by_cases first : s.keyboard.vdX = 0
  · simp only [if_pos first]
    exact ⟨_, rfl, .of_flags rfl rfl rfl ⟨rfl, rfl, rfl, rfl⟩, rfl⟩
  · simp only [if_neg first]
    exact ⟨_, rfl, .of_flags rfl rfl rfl ⟨rfl, rfl, rfl, rfl⟩, rfl⟩

end Erasing

/--
The editor's position goes with the screen's, and with the characters it counts.

These characters fit between the corner of the screen and the position, so the editor never stands
in the corner while it counts one.
-/
structure Aligned (p : Positions) (count : Nat) : Prop where
  -- The screen's position is always on the screen.
  column : 0 ≤ p.screenX ∧ p.screenX < 80
  row : 0 ≤ p.screenY ∧ p.screenY < 25
  -- They stand together, unless the editor wrapped on the last row, or a new line begins.
  placed : (p.vdX = p.screenX ∧ p.vdY = p.screenY) ∨
    (p.vdX = 0 ∧ p.vdY = 25 ∧ p.screenX = 0 ∧ p.screenY = 24) ∨
    (p.vdX = 0 ∧ count = 0 ∧ (p.screenX = 79 → 1 ≤ p.screenY))
  -- The editor has moved at least one column for each character it counts.
  reach : (count : Int) ≤ 80 * p.vdY + p.vdX

namespace Aligned

variable {p : Positions} {count : Nat}

/-- Positions given one by one are aligned when they are so as numbers. -/
theorem of_numbers {x y u v : Int} {saved : Terminal → Nat × Nat} (column : 0 ≤ x ∧ x < 80)
    (row : 0 ≤ y ∧ y < 25)
    (placed : (u = x ∧ v = y) ∨ (u = 0 ∧ v = 25 ∧ x = 0 ∧ y = 24) ∨
      (u = 0 ∧ count = 0 ∧ (x = 79 → 1 ≤ y)))
    (reach : (count : Int) ≤ 80 * v + u) : Aligned ⟨x, y, u, v, saved⟩ count :=
  ⟨column, row, placed, reach⟩

/-- A typed character moves the position at least as far as the count. -/
theorem typed (aligned : Aligned p count) (room : count < bufsize) (c : Byte) :
    Aligned (p.typed c) (count + 1) := by
  obtain ⟨column, row, placed, reach⟩ := aligned
  obtain ⟨nextColumn, nextRow⟩ := printPosition_inside row p.screenX c
  -- A character stays in its row, and a newline leaves it.
  have moved : ((printPosition p.screenX p.screenY c).1 = (p.screenX + 1) % 80 ∧
        (printPosition p.screenX p.screenY c).2 = p.screenY) ∨
      ((printPosition p.screenX p.screenY c).1 = 0 ∧
        ((printPosition p.screenX p.screenY c).2 = 24 ∨
          (printPosition p.screenX p.screenY c).2 = p.screenY + 1)) := by
    unfold printPosition
    split
    · refine .inr ⟨rfl, ?_⟩
      simp only
      split
      · exact .inl rfl
      · exact .inr rfl
    · exact .inl ⟨rfl, rfl⟩
  -- What is left is arithmetic on the row, the column and the count.
  simp only [bufsize] at room
  unfold Positions.typed
  simp only
  split
  · by_cases bottom : (printPosition p.screenX p.screenY c).2 = 24
    · rw [if_pos bottom]
      exact of_numbers (by omega) (by omega) (by omega) (by omega)
    · rw [if_neg bottom]
      exact of_numbers (by omega) (by omega) (by omega) (by omega)
  · exact of_numbers nextColumn nextRow (.inl ⟨rfl, rfl⟩) (by omega)

/-- With a character to count the editor is not in the corner. -/
theorem away (aligned : Aligned p count) (counted : 0 < count) : ¬ (p.vdX = 0 ∧ p.vdY = 0) := by
  -- The corner is at distance zero, and there is something to count.
  have reach := aligned.reach
  omega

/-- Erasing a character moves the position back by one. -/
theorem erased (aligned : Aligned p count) (counted : 0 < count) :
    Aligned (p.publish (erasePosition p.vdX p.vdY).1 (erasePosition p.vdX p.vdY).2) (count - 1) := by
  -- Backspace moves to the position before the editor's, and takes the screen along.
  have away := aligned.away counted
  obtain ⟨column, row, placed, reach⟩ := aligned
  unfold erasePosition Positions.publish
  split
  · exact of_numbers (by omega) (by omega) (.inl ⟨rfl, rfl⟩) (by omega)
  · exact of_numbers (by omega) (by omega) (.inl ⟨rfl, rfl⟩) (by omega)

end Aligned

/-- The line editor is in step with itself and with the screen. -/
structure Editing (s : Kernel) : Prop where
  counted : s.keyboard.count = s.keyboard.bufIndex
  bounded : s.keyboard.bufIndex ≤ bufsize
  aligned : Aligned s.positions s.keyboard.count

namespace Editing

variable {s : Kernel}

/-- A step that keeps the line and the positions keeps the editor in step. -/
theorem congr (editing : Editing s) {next : Kernel} (same : SameLine s next)
    (moved : next.positions = s.positions) : Editing next := by
  -- Each of the three parts speaks of the line, of its counters or of the positions.
  refine ⟨?_, ?_, ?_⟩
  · rw [same.count, same.bufIndex]
    exact editing.counted
  · rw [same.bufIndex]
    exact editing.bounded
  · rw [moved, same.count]
    exact editing.aligned

/-- The length of the line is the count. -/
theorem length (editing : Editing s) : s.line.length = s.keyboard.count := by
  rw [Kernel.line, bytesOf_length, editing.counted]

/-- A character is appended, unless the line is full. -/
theorem char (editing : Editing s) (c : Byte) :
    Editing (prout s c) ∧ (prout s c).line = edit s.line (.char c) ∧
      (prout s c).keyboard.modifiers = s.keyboard.modifiers := by
  have same := editing.counted
  have fits := editing.bounded
  -- The editor stops at the length at which a full line takes no further character.
  by_cases full : s.keyboard.count = bufsize
  · -- A full line only sends the cursor again.
    have kept : SameLine s (resetCursor s s.keyboard.vdX s.keyboard.vdY) := ⟨rfl, rfl, rfl, rfl⟩
    rw [prout_full full]
    refine ⟨editing.congr kept rfl, ?_, kept.modifiers⟩
    rw [kept.line, edit, if_neg]
    rw [editing.length]
    omega
  · obtain ⟨-, index, count, flags⟩ := prout_stored full c
    have positions := prout_positions full editing.aligned.column editing.aligned.row c
    refine ⟨⟨?_, ?_, ?_⟩, ?_, flags⟩
    · rw [count, index, same]
    · rw [index]
      omega
    · rw [positions, count]
      exact editing.aligned.typed (by omega) c
    · rw [prout_line full (by omega), edit, if_pos]
      rw [editing.length]
      omega

/-- Backspace removes the last character, and is not refused while there is one. -/
theorem backspace (editing : Editing s) :
    Editing (backspace s) ∧ (SmallOs.backspace s).line = edit s.line .backspace ∧
      (SmallOs.backspace s).keyboard.modifiers = s.keyboard.modifiers := by
  have same := editing.counted
  have fits := editing.bounded
  by_cases counted : 0 < s.keyboard.count
  · obtain ⟨m, erased, kept, moved⟩ := backspace_eq counted (editing.aligned.away counted)
    have count := kept.count
    have index := kept.bufIndex
    obtain ⟨line, dropped, flags⟩ := dropTyped_line (s := m) (by omega)
    have uncounted := dropTyped_count (s := m) (by omega) (by omega)
    rw [erased]
    refine ⟨⟨by omega, by omega, ?_⟩, ?_, flags.trans kept.modifiers⟩
    · rw [positions_dropTyped, moved, uncounted, count]
      exact editing.aligned.erased counted
    · rw [line, kept.line, edit]
  · -- Without a character nothing happens, and nothing was to be removed.
    have none : s.keyboard.count = 0 := by omega
    have empty : s.line = [] := List.length_eq_zero_iff.mp (editing.length.trans none)
    have refused : SmallOs.backspace s = s := if_pos none
    rw [refused, empty]
    exact ⟨editing, rfl, rfl⟩

/-- Clearing the screen begins an empty line in its corner. -/
theorem clear (s : Kernel) :
    Editing (clearKey s) ∧ (clearKey s).line = [] ∧
      (clearKey s).keyboard.modifiers = s.keyboard.modifiers := by
  -- All positions are in the corner, and both counters are zero.
  have positions : (clearKey s).positions =
      { s.positions with screenX := 0, screenY := 0, vdX := 0, vdY := 0 } := rfl
  have flags : (clearKey s).keyboard.modifiers = s.keyboard.modifiers := by
    rw [keyboard_clearKey]
    rfl
  refine ⟨⟨rfl, Nat.zero_le _, ?_⟩, rfl, flags⟩
  rw [positions]
  exact Aligned.of_numbers (by omega) (by omega) (.inl ⟨rfl, rfl⟩) (Int.le_refl 0)

end Editing

/-- A key that stays on its terminal and in its line. -/
def KeyAction.Inline (action : KeyAction) : Prop :=
  action ≠ .enter ∧ ∀ t, action ≠ .display t

namespace Editing

variable {s : Kernel}

/-- Each key that stays in its line edits it as a line is edited. -/
theorem perform (editing : Editing s) {action : KeyAction} (inline : action.Inline) :
    Editing (performKey s action) ∧ (performKey s action).line = edit s.line action ∧
      (performKey s action).keyboard.modifiers = s.keyboard.modifiers := by
  -- Every key that stays in its line has its lemma above.
  cases action with
  | char c => exact editing.char c
  | backspace => exact editing.backspace
  | clear => exact clear s
  | nothing => exact ⟨editing, rfl, rfl⟩
  | enter => exact absurd rfl inline.1
  | display t => exact absurd rfl (inline.2 t)

/-- No key that stays in its line copies too much, or blanks a cell that is not there. -/
theorem defined (editing : Editing s) {action : KeyAction} (inline : action.Inline) :
    KeyDefined s action := by
  cases action with
  | backspace =>
    refine ⟨fun _ => editing.bounded, fun _ erasing => ?_⟩
    obtain ⟨counted, away⟩ : s.keyboard.count ≠ 0 ∧ ¬ (s.keyboard.vdX = 0 ∧ s.keyboard.vdY = 0) :=
      of_decide_eq_true erasing
    -- With a character counted the screen's position can be moved back by one.
    obtain ⟨column, row, placed, -⟩ := editing.aligned
    simp only [Kernel.positions] at column row placed
    unfold BlanksPresent PresentCell movedBack
    split
    · simp only [stepUp, Kernel.setConsole, numCols, onepage]
      omega
    · simp only [stepLeft, Kernel.setConsole, numCols, onepage]
      omega
  | char | clear | nothing => exact ⟨trivial, fun other => by cases other⟩
  | enter => exact absurd rfl inline.1
  | display t => exact absurd rfl (inline.2 t)

/-- So does each scan code, by what it asks for. -/
theorem press (editing : Editing s) {c : Byte} (inline : (pressAction s.keyboard c).Inline) :
    Editing (printKeyboard s c) ∧
      (printKeyboard s c).line = edit s.line (pressAction s.keyboard c) ∧
      (printKeyboard s c).keyboard.modifiers = (flagsAfter s.keyboard c).modifiers := by
  -- The flags are updated before the action, and the line does not see it.
  obtain ⟨buf, index, count, -⟩ := flagsAfter_kept s.keyboard c
  have flagged : Editing (s.setKeyboard fun kb => flagsAfter kb c) := by
    refine ⟨count.trans (editing.counted.trans index.symm), index.trans_le editing.bounded, ?_⟩
    have aligned := editing.aligned
    rw [← positions_flagsAfter s c, ← count] at aligned
    exact aligned
  have line : (s.setKeyboard fun kb => flagsAfter kb c).line = s.line := by
    change bytesOf (flagsAfter s.keyboard c).keyboardbuf (flagsAfter s.keyboard c).bufIndex = _
    rw [buf, index]
    rfl
  obtain ⟨next, edited, flags⟩ := flagged.perform inline
  rw [printKeyboard_eq]
  exact ⟨next, line ▸ edited, flags⟩

end Editing

/-- The kernel after a sequence of scan codes, with nothing in between. -/
def Kernel.types (s : Kernel) (scancodes : List Byte) : Kernel :=
  scancodes.foldl printKeyboard s

/-- A whole sequence of scan codes is taken by the machine, and edits the line, key by key. -/
theorem Editing.types {s : Kernel} (editing : Editing s) (env : Env) {scancodes : List Byte}
    (inline : ∀ action ∈ pressActions s.keyboard scancodes, action.Inline) :
    Run (step env) Always s (scancodes.map .keyboard) (s.types scancodes) ∧
      Editing (s.types scancodes) ∧
      (s.types scancodes).line = edits s.line (pressActions s.keyboard scancodes) := by
  -- The induction follows the scan codes, and what is left of them is read with the flags so far.
  induction scancodes generalizing s with
  | nil => exact ⟨.nil s, editing, rfl⟩
  | cons c scancodes ih =>
    obtain ⟨first, rest⟩ := List.forall_mem_cons.mp inline
    obtain ⟨next, edited, flags⟩ := editing.press first
    have later := pressActions_congr flags scancodes
    obtain ⟨run, last, line⟩ := ih next (later ▸ rest)
    have taken : Run (step env) Always s [.keyboard c] (printKeyboard s c) :=
      .snoc (.nil s) trivial (step_key (editing.defined first))
    refine ⟨taken.append run, last, line.trans ?_⟩
    rw [edited, later]
    rfl

/--
The line editor is a line editor.

From an empty line, with the editor and the screen at one position, every sequence of scan codes
without Enter and without a switch leaves the line those keys edit, and both counters its length.
The machine takes every one of these keys. A part of such a sequence is such a sequence, so this
holds after every key.
-/
theorem types_edits {env : Env} {s : Kernel} (empty : s.keyboard.count = 0 ∧ s.keyboard.bufIndex = 0)
    (column : 0 ≤ s.console.screenX ∧ s.console.screenX < 80)
    (row : 0 ≤ s.console.screenY ∧ s.console.screenY < 25)
    (together : s.keyboard.vdX = s.console.screenX ∧ s.keyboard.vdY = s.console.screenY)
    (scancodes : List Byte)
    (inline : ∀ action ∈ pressActions s.keyboard scancodes, action.Inline) :
    Run (step env) Always s (scancodes.map .keyboard) (s.types scancodes) ∧
      (s.types scancodes).keyboard.count = (s.types scancodes).keyboard.bufIndex ∧
      (s.types scancodes).keyboard.bufIndex ≤ bufsize ∧
      (s.types scancodes).line = edits [] (pressActions s.keyboard scancodes) := by
  -- At the start nothing is counted, so any position on the screen reaches far enough.
  have reach : (s.keyboard.count : Int) ≤ 80 * s.keyboard.vdY + s.keyboard.vdX := by omega
  have editing : Editing s := by
    refine ⟨empty.1.trans empty.2.symm, ?_, column, row, .inl together, reach⟩
    omega
  have start : s.line = [] := by
    rw [Kernel.line, empty.2]
    rfl
  obtain ⟨run, last, line⟩ := editing.types env inline
  rw [start] at line
  exact ⟨run, last.counted, last.bounded, line⟩

/-- Typing `a`, then `b`, then Backspace after boot leaves the first character. -/
theorem types_edits_sample :
    ((initialKernel sampleEnv).types [0x1E, 0x9E, 0x30, 0xB0, 0x0E]).line = [0x61] := by
  -- Each release is a scan code of its own, and asks for nothing.
  have actions : pressActions (initialKernel sampleEnv).keyboard [0x1E, 0x9E, 0x30, 0xB0, 0x0E] =
      [.char 0x61, .nothing, .char 0x62, .nothing, .backspace] := by decide +kernel
  have inline : ∀ action ∈ pressActions (initialKernel sampleEnv).keyboard
      [0x1E, 0x9E, 0x30, 0xB0, 0x0E], action.Inline := by
    rw [actions]
    simp [KeyAction.Inline]
  obtain ⟨-, -, -, line⟩ := @types_edits sampleEnv (initialKernel sampleEnv) ⟨rfl, rfl⟩
    ⟨by decide, by decide⟩ ⟨by decide, by decide⟩ ⟨rfl, rfl⟩ _ inline
  rw [line, actions]
  rfl

end SmallOs
