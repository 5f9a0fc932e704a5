import SmallOs.Abstract.Sheet
import SmallOs.Proofs.Process.Boot
import SmallOs.Proofs.Process.Step
import SmallOs.Proofs.Terminal.Keys

/-! Every screen position of a reachable state lies on the screen. -/

namespace SmallOs

open Foundation

/-- The positions of a kernel state: the screen's, the line editor's, and the saved ones. -/
structure Positions where
  screenX : Int
  screenY : Int
  vdX : Int
  vdY : Int
  saved : Terminal → Nat × Nat

/-- The positions of a kernel state. -/
def Kernel.positions (s : Kernel) : Positions :=
  -- The saved cursors are left out, since only the positions are printed at.
  { screenX := s.console.screenX
    screenY := s.console.screenY
    vdX := s.keyboard.vdX
    vdY := s.keyboard.vdY
    saved := fun t => ((s.terminals t).screenX, (s.terminals t).screenY) }

/-- Positions on the screen, where the line editor may stand at the start of the row below it. -/
structure Positions.InRange (p : Positions) : Prop where
  -- The screen's own position is strictly inside.
  column : 0 ≤ p.screenX ∧ p.screenX < 80
  row : 0 ≤ p.screenY ∧ p.screenY < 25
  editorColumn : 0 ≤ p.vdX ∧ p.vdX < 80
  editorRow : 0 ≤ p.vdY ∧ (p.vdY < 25 ∨ p.vdY = 25 ∧ p.vdX = 0)
  -- Saved positions are unsigned words.
  saved : ∀ t, (p.saved t).1 < 80 ∧ (p.saved t).2 < 25

namespace Positions

/-- The positions after the setters of `putc` publish the screen's. -/
def publish (p : Positions) (x y : Int) : Positions :=
  -- The editor is moved along with the screen.
  { p with screenX := x, screenY := y, vdX := x, vdY := y }

/-- Saved positions on the screen. -/
def SavedInRange (p : Positions) : Prop :=
  ∀ t, (p.saved t).1 < 80 ∧ (p.saved t).2 < 25

theorem publish_inRange {p : Positions} (saved : p.SavedInRange) {x y : Int}
    (column : 0 ≤ x ∧ x < 80) (row : 0 ≤ y ∧ y < 25) : (p.publish x y).InRange :=
  ⟨column, row, column, ⟨row.1, .inl row.2⟩, saved⟩

/-- Positions given one by one are in range when each of them is. -/
theorem inRange_mk {x y u v : Int} {saved : Terminal → Nat × Nat} (column : 0 ≤ x ∧ x < 80)
    (row : 0 ≤ y ∧ y < 25) (editorColumn : 0 ≤ u ∧ u < 80)
    (editorRow : 0 ≤ v ∧ (v < 25 ∨ v = 25 ∧ u = 0))
    (within : ∀ t, (saved t).1 < 80 ∧ (saved t).2 < 25) : InRange ⟨x, y, u, v, saved⟩ :=
  ⟨column, row, editorColumn, editorRow, within⟩

end Positions

section Devices

variable {s : Kernel}

/-- Publishing moves the editor to the screen's position. -/
theorem positions_publishPosition (s : Kernel) : (publishPosition s).positions =
    s.positions.publish s.console.screenX s.console.screenY := rfl

/-- Printing a character moves the screen's position, and the editor along with it. -/
theorem putc_positions_eq (column : 0 ≤ s.console.screenX ∧ s.console.screenX < 80)
    (row : 0 ≤ s.console.screenY ∧ s.console.screenY < 25) (c : Byte) :
    (putc s c).positions =
      s.positions.publish (printPosition s.console.screenX s.console.screenY c).1
        (printPosition s.console.screenX s.console.screenY c).2 := by
  -- A newline moves down one row unless it scrolls; a character moves right, or to column zero.
  unfold putc printPosition
  split
  · split
    · rename_i bottom
      have last : s.console.screenY = 24 := bottom
      rw [if_pos last]
      rfl
    · rename_i above
      have higher : ¬ s.console.screenY = 24 := above
      rw [if_neg higher]
      rfl
  · have wrapped : (s.console.screenX + 1).tmod numCols = (s.console.screenX + 1) % 80 :=
      Int.tmod_eq_emod_of_nonneg (by omega)
    have carried : ((s.console.screenX + 1) % 80).tdiv numCols = 0 :=
      Int.tdiv_eq_zero_of_lt (by omega) (by simp only [numCols]; omega)
    have kept : (s.console.screenY + 0).tmod numRows = s.console.screenY := by
      rw [Int.add_zero]
      exact Int.tmod_eq_of_lt row.1 (by simpa [numRows] using row.2)
    rw [positions_publishPosition]
    simp only [Kernel.setConsole, wrapped, carried, kept]
    rfl

/-- Printing a character keeps the positions on the screen, and moves the editor there. -/
theorem putc_positions (column : 0 ≤ s.console.screenX ∧ s.console.screenX < 80)
    (row : 0 ≤ s.console.screenY ∧ s.console.screenY < 25) (c : Byte) :
    ∃ x y, (0 ≤ x ∧ x < 80) ∧ (0 ≤ y ∧ y < 25) ∧
      (putc s c).positions = s.positions.publish x y := by
  -- Where exactly it moves does not matter here.
  obtain ⟨x, y⟩ := printPosition_inside row s.console.screenX c
  exact ⟨_, _, x, y, putc_positions_eq column row c⟩

theorem putc_inRange (range : s.positions.InRange) (c : Byte) : (putc s c).positions.InRange := by
  -- The editor is moved to the screen's position, which is inside.
  obtain ⟨x, y, column, row, same⟩ := putc_positions range.column range.row c
  rw [same]
  exact Positions.publish_inRange range.saved column row

theorem putText_inRange (range : s.positions.InRange) (text : List Byte) :
    (putText s text).positions.InRange := by
  -- The induction follows the text, one character at a time.
  induction text generalizing s with
  | nil => exact range
  | cons c text ih => exact ih (putc_inRange range c)

/-- The rest of `prout`, once the character is printed. -/
def settle (wraps : Bool) (s : Kernel) : Kernel :=
  -- The editor counts the row it goes to, and the page scrolls below the last one.
  if wraps then
    let s := s.setKeyboard fun kb =>
      { kb with count := kb.count + 1, vdY := kb.vdY + 1, vdX := 0 }
    if s.keyboard.vdY = 25 then
      let s := clearRow (resetVideo s)
      let s := resetPosition s s.keyboard.vdX (s.keyboard.vdY - 1)
      resetCursor s s.keyboard.vdX (s.keyboard.vdY - 1)
    else
      let s := resetPosition s s.keyboard.vdX s.keyboard.vdY
      resetCursor s s.keyboard.vdX s.keyboard.vdY
  else
    let s := s.setKeyboard fun kb => { kb with count := kb.count + 1 }
    resetCursor s s.keyboard.vdX s.keyboard.vdY

@[simp] theorem positions_resetPosition (s : Kernel) (x y : Int) :
    (resetPosition s x y).positions = { s.positions with screenX := x, screenY := y } := rfl

@[simp] theorem positions_resetCursor (s : Kernel) (x y : Int) :
    (resetCursor s x y).positions = s.positions := rfl

@[simp] theorem keyboard_resetPosition (s : Kernel) (x y : Int) :
    (resetPosition s x y).keyboard = s.keyboard := rfl

@[simp] theorem keyboard_resetCursor (s : Kernel) (x y : Int) :
    (resetCursor s x y).keyboard = s.keyboard := rfl

/-- Scrolling the page moves no position. -/
@[simp] theorem positions_scrolled (s : Kernel) :
    (clearRow (resetVideo s)).positions = s.positions := rfl

@[simp] theorem keyboard_scrolled (s : Kernel) :
    (clearRow (resetVideo s)).keyboard = s.keyboard := rfl

/-- After the last column the editor wraps by itself, and takes the screen with it. -/
theorem settle_positions (wraps : Bool) (s : Kernel) :
    (settle wraps s).positions =
      if wraps then
        { s.positions with
          screenX := 0
          screenY := if s.keyboard.vdY = 24 then 24 else s.keyboard.vdY + 1
          vdX := 0
          vdY := s.keyboard.vdY + 1 }
      else s.positions := by
  unfold settle
  split
  · generalize moved : (s.setKeyboard fun kb =>
      { kb with count := kb.count + 1, vdY := kb.vdY + 1, vdX := 0 }) = m
    have column : m.keyboard.vdX = 0 := by
      rw [← moved]
      rfl
    have row : m.keyboard.vdY = s.keyboard.vdY + 1 := by
      rw [← moved]
      rfl
    have positions : m.positions = { s.positions with vdX := 0, vdY := s.keyboard.vdY + 1 } := by
      rw [← moved]
      rfl
    by_cases bottom : s.keyboard.vdY = 24
    · -- Below the last row the page scrolls, and the screen stays one row above the editor.
      have passed : m.keyboard.vdY = 25 := by omega
      have above : m.keyboard.vdY - 1 = 24 := by omega
      simp only [if_pos passed, if_pos bottom, positions_resetCursor, positions_resetPosition,
        positions_scrolled, keyboard_scrolled, positions, column, above]
    · have passed : ¬ m.keyboard.vdY = 25 := by omega
      rw [if_neg passed, if_neg bottom]
      simp only [positions_resetCursor, positions_resetPosition, positions, column, row]
  · rfl

/-- Below its limit `prout` stores the character, prints it, and then settles the positions. -/
theorem prout_eq (below : s.keyboard.count ≠ bufsize) (c : Byte) :
    prout s c = settle ((storeTyped s c).keyboard.vdX = screenLegth) (putc (storeTyped s c) c) := by
  unfold prout settle
  rw [if_neg below]
  -- The column is tested once the character is stored, and before it is printed.
  by_cases wraps : (storeTyped s c).keyboard.vdX = screenLegth
  · simp only [if_pos wraps, decide_eq_true wraps, if_true]
  · simp only [if_neg wraps, decide_eq_false wraps]
    rfl

/-- At its limit `prout` only moves the cursor. -/
theorem prout_full (full : s.keyboard.count = bufsize) (c : Byte) :
    prout s c = resetCursor s s.keyboard.vdX s.keyboard.vdY :=
  if_pos full

/-- Typing a character keeps the positions on the screen. -/
theorem prout_inRange (range : s.positions.InRange) (c : Byte) :
    (prout s c).positions.InRange := by
  -- The editor may pass the last column before the character is printed, but not after it.
  obtain ⟨x, y, column, row, same⟩ := putc_positions (s := storeTyped s c) range.column range.row c
  have published : (putc (storeTyped s c) c).positions.InRange := by
    rw [same]
    exact Positions.publish_inRange range.saved column row
  have editorRow : (putc (storeTyped s c) c).keyboard.vdY = y := congrArg Positions.vdY same
  by_cases full : s.keyboard.count = bufsize
  · rw [prout_full full, positions_resetCursor]
    exact range
  · rw [prout_eq full, settle_positions, editorRow]
    split
    · -- The editor wraps by itself, and the screen is moved after it.
      split
      · exact Positions.inRange_mk (by omega) (by omega) (by omega) (by omega) published.saved
      · exact Positions.inRange_mk (by omega) (by omega) (by omega) (by omega) published.saved
    · exact published

/-- Dropping a character from the buffer moves nothing. -/
theorem positions_dropTyped (s : Kernel) : (dropTyped s).positions = s.positions := by
  -- Buffer and counters are no positions.
  unfold dropTyped
  split <;> rfl

/-- Erasing a character keeps the positions on the screen. -/
theorem backspace_inRange (range : s.positions.InRange) : (backspace s).positions.InRange := by
  -- The screen is moved to where the editor goes, whatever the erasing did before.
  have editorColumn : 0 ≤ s.keyboard.vdX ∧ s.keyboard.vdX < 80 := range.editorColumn
  have editorRow : 0 ≤ s.keyboard.vdY ∧
      (s.keyboard.vdY < 25 ∨ s.keyboard.vdY = 25 ∧ s.keyboard.vdX = 0) := range.editorRow
  unfold backspace
  split
  · exact range
  split
  · exact range
  split
  · exact range
  rename_i notCorner _
  split
  · rename_i first
    simp only [positions_dropTyped]
    change Positions.InRange ⟨80 - 1, s.keyboard.vdY - 1, 80 - 1, s.keyboard.vdY - 1,
      s.positions.saved⟩
    exact Positions.inRange_mk (by omega) (by omega) (by omega) (by omega) range.saved
  · simp only [positions_dropTyped]
    change Positions.InRange ⟨s.keyboard.vdX - 1, s.keyboard.vdY, s.keyboard.vdX - 1,
      s.keyboard.vdY, s.positions.saved⟩
    exact Positions.inRange_mk (by omega) (by omega) (by omega) (by omega) range.saved

/-- The end of a line keeps the positions on the screen. -/
theorem nextLine_inRange (range : s.positions.InRange) : (nextLine s).positions.InRange := by
  have editorRow : 0 ≤ s.keyboard.vdY ∧
      (s.keyboard.vdY < 25 ∨ s.keyboard.vdY = 25 ∧ s.keyboard.vdX = 0) := range.editorRow
  -- The editor may end on the row below the screen, but only in its first column.
  unfold nextLine
  split
  · rename_i above
    simp only [screenWidth] at above
    change Positions.InRange ⟨s.console.screenX, s.console.screenY, 0, s.keyboard.vdY + 1,
      s.positions.saved⟩
    exact Positions.inRange_mk range.column range.row (by omega) (by omega) range.saved
  · have saved : (if s.keyboard.enterFlag then s else clearRow (resetVideo s)).positions.saved =
        s.positions.saved := by split <;> rfl
    change Positions.InRange ⟨0, 23 + 1, 0, 23 + 1,
      (if s.keyboard.enterFlag then s else clearRow (resetVideo s)).positions.saved⟩
    rw [saved]
    exact Positions.inRange_mk (by omega) (by omega) (by omega) (by omega) range.saved

end Devices

/-- Changing a terminal's record moves its saved position, and no other one. -/
theorem positions_setTerminal_eq (s : Kernel) (t : Terminal)
    (change : InitTerminal → InitTerminal) :
    (s.setTerminal t change).positions =
      { s.positions with
        saved := Function.update s.positions.saved t
          ((change (s.terminals t)).screenX, (change (s.terminals t)).screenY) } := by
  -- The saved positions are compared one by one, because the records are a function of the terminal.
  have saved : (s.setTerminal t change).positions.saved = Function.update s.positions.saved t
      ((change (s.terminals t)).screenX, (change (s.terminals t)).screenY) := by
    funext u
    by_cases same : u = t
    · subst same
      simp [Kernel.positions, Kernel.setTerminal]
    · simp [Kernel.positions, Kernel.setTerminal, same]
  exact congrArg (fun saved => { s.positions with saved := saved }) saved

/-- Changing a terminal's record outside its saved position moves nothing. -/
theorem positions_setTerminal (s : Kernel) (t : Terminal) {change : InitTerminal → InitTerminal}
    (outside : ∀ term, (change term).screenX = term.screenX ∧
      (change term).screenY = term.screenY) :
    (s.setTerminal t change).positions = s.positions := by
  obtain ⟨x, y⟩ := outside (s.terminals t)
  rw [positions_setTerminal_eq, x, y]
  exact congrArg (fun saved => { s.positions with saved := saved })
    (Function.update_eq_self t s.positions.saved)

/-- Saving one position on the screen keeps all saved positions there. -/
theorem Positions.InRange.save {p : Positions} (range : p.InRange) (t : Terminal) {x y : Nat}
    (column : x < 80) (row : y < 25) :
    Positions.InRange { p with saved := Function.update p.saved t (x, y) } := by
  refine ⟨range.column, range.row, range.editorColumn, range.editorRow, fun u => ?_⟩
  -- One saved position is new, and it is on the screen.
  by_cases same : u = t
  · subst same
    simp [column, row]
  · simpa [same] using range.saved u

section Switch

variable {s : Kernel}

/-- Saving a terminal keeps the positions on the screen. -/
theorem saveTerminal_inRange (range : s.positions.InRange) :
    (saveTerminal s).positions.InRange := by
  -- The screen's position goes into the record as a word, unchanged.
  have column : 0 ≤ s.console.screenX ∧ s.console.screenX < 80 := range.column
  have row : 0 ≤ s.console.screenY ∧ s.console.screenY < 25 := range.row
  have saved : (saveTerminal s).positions =
      { s.positions with
        saved := Function.update s.positions.saved s.currentId
          (ofInt32 s.console.screenX, ofInt32 s.console.screenY) } :=
    positions_setTerminal_eq (s.setSwitch _) s.currentId _
  have x := ofInt32_of_nonneg column.1 (by omega)
  have y := ofInt32_of_nonneg row.1 (by omega)
  rw [saved]
  exact range.save _ (by omega) (by omega)

/-- Displaying a terminal again moves the screen to its saved position. -/
theorem shown_inRange (range : s.positions.InRange) (t : Terminal) :
    Positions.InRange { s.positions with
      screenX := toInt32 (s.terminals t).screenX, screenY := toInt32 (s.terminals t).screenY } := by
  -- A small word stays the same when it is read as a C integer.
  have within : (s.terminals t).screenX < 80 ∧ (s.terminals t).screenY < 25 := range.saved t
  rw [toInt32_of_lt (by omega), toInt32_of_lt (by omega)]
  exact Positions.inRange_mk (by omega) (by omega) range.editorColumn range.editorRow range.saved

/-- A function key keeps the positions on the screen. -/
theorem displayKey_inRange (range : s.positions.InRange) (t : Terminal) :
    (displayKey s t).positions.InRange := by
  -- The line is copied out first, which moves nothing.
  have copied : (copyKeyboardBuf s s.keyboard.keyboardbuf s.keyboard.bufIndex).positions.InRange :=
    range
  -- A terminal that is opened starts in the corner.
  have opened : ∀ m : Kernel, ∀ u, m.positions.InRange → (openTerminal m u).positions.InRange := by
    intro m u within
    have marked : (m.setTerminal u fun term => { term with isOpen := true }).positions =
        m.positions := positions_setTerminal m u fun _ => ⟨by rfl, by rfl⟩
    change Positions.InRange { (m.setTerminal u fun term =>
      { term with isOpen := true }).positions with screenX := 0, screenY := 0 }
    rw [marked]
    exact Positions.inRange_mk (by omega) (by omega) within.editorColumn within.editorRow
      within.saved
  have switched : ∀ m : Kernel, ∀ u digit, m.positions.InRange →
      (switchToTerminal u digit m).positions.InRange := by
    intro m u digit within
    unfold switchToTerminal
    split
    · exact putText_inRange within _
    · simp only
      split
      · exact shown_inRange (saveTerminal_inRange within) u
      · exact opened _ u (saveTerminal_inRange within)
  unfold displayKey
  match t with
  | 0 =>
    simp only [switchToTerminal1]
    split
    · exact putText_inRange copied _
    · exact shown_inRange (saveTerminal_inRange copied) 0
  | 1 => exact switched _ 1 0x32 copied
  | 2 => exact switched _ 2 0x33 copied

/-- Enter keeps the positions on the screen. -/
theorem enterKey_inRange (range : s.positions.InRange) : (enterKey s).positions.InRange := by
  -- Handing the line over moves nothing, so only the two halves of the newline matter.
  have copied : (copyToTeminal (prout s 0x0A) (prout s 0x0A).keyboard.keyboardbuf
      (prout s 0x0A).keyboard.bufIndex).positions = (prout s 0x0A).positions :=
    positions_setTerminal _ _ fun _ => ⟨by rfl, by rfl⟩
  have printed := prout_inRange range 0x0A
  rw [← copied] at printed
  exact nextLine_inRange printed

/-- What a key asks for keeps the positions on the screen. -/
theorem performKey_inRange (range : s.positions.InRange) (action : KeyAction) :
    (performKey s action).positions.InRange := by
  -- Clearing puts every position but the saved ones in the corner.
  cases action with
  | char c => exact prout_inRange range c
  | backspace => exact backspace_inRange range
  | enter => exact enterKey_inRange range
  | clear =>
    change Positions.InRange ⟨0, 0, 0, 0, s.positions.saved⟩
    exact Positions.inRange_mk (by omega) (by omega) (by omega) (by omega) range.saved
  | display t => exact displayKey_inRange range t
  | nothing => exact range

/-- Updating the modifier flags moves nothing. -/
theorem positions_flagsAfter (s : Kernel) (c : Byte) :
    (s.setKeyboard fun kb => flagsAfter kb c).positions = s.positions := by
  -- The flags are no positions.
  obtain ⟨-, -, -, vdX, vdY⟩ := flagsAfter_kept s.keyboard c
  simp only [Kernel.positions, Kernel.setKeyboard, vdX, vdY]

/-- The keyboard interrupt keeps the positions on the screen. -/
theorem printKeyboard_inRange (range : s.positions.InRange) (c : Byte) :
    (printKeyboard s c).positions.InRange := by
  -- The flags are updated first, and then one action is carried out.
  rw [printKeyboard_eq]
  refine performKey_inRange ?_ _
  rw [positions_flagsAfter]
  exact range

end Switch

section Calls

variable {s : Kernel}

/-- The background output routine keeps the saved positions on the screen. -/
theorem putm_inRange (range : s.positions.InRange) (c : Byte) : (putm s c).positions.InRange := by
  -- Only the saved position of the scheduled terminal moves.
  have within : s.scheduled.screenX < 80 ∧ s.scheduled.screenY < 25 := range.saved s.currTerminal
  have moved : ∀ m : Kernel, m.positions = s.positions → ∀ x y, x < 80 → y < 25 →
      (m.setTerminal s.currTerminal fun term =>
        { term with screenX := x, screenY := y }).positions.InRange := by
    intro m same x y column row
    rw [positions_setTerminal_eq, same]
    exact range.save _ column row
  unfold putm
  simp only
  split
  · split
    · exact moved (keyboardWrite s) rfl 0 24 (by omega) (by omega)
    · rename_i above
      simp only [numRows] at above
      have next : u32 (s.scheduled.screenY + 1) < 25 := by
        rw [u32_of_lt (by omega)]
        omega
      exact moved s rfl 0 (u32 (s.scheduled.screenY + 1)) (by omega) next
  · have column : u32 (s.scheduled.screenX + 1) % numCols < 80 := Nat.mod_lt _ (by decide)
    have row : u32 (s.scheduled.screenY + u32 (s.scheduled.screenX + 1) % numCols / numCols) %
        numRows < 25 := Nat.mod_lt _ (by decide)
    exact moved _ rfl _ _ column row

/-- The terminal's output driver keeps the positions on the screen. -/
theorem terminalWrite_inRange (range : s.positions.InRange) (buf : List Byte) (nbytes : Int) :
    (terminalWrite s buf nbytes).2.positions.InRange := by
  -- In the foreground the text is printed on the screen, and in the background on a page.
  have background : ∀ text : List Byte, ∀ m : Kernel, m.positions.InRange →
      (text.foldl putm m).positions.InRange := by
    intro text
    induction text with
    | nil => exact fun _ within => within
    | cons c text ih => exact fun m within => ih _ (putm_inRange within c)
  unfold terminalWrite
  simp only
  split
  · exact putText_inRange range _
  · exact background _ s range

/-- Taking a line moves nothing. -/
theorem positions_takeLine (s : Kernel) : (takeLine s).kernel.positions = s.positions := by
  -- The line and its flag are parts of a record, and the position is another.
  simp only [takeLine, clearBuf]
  rw [positions_setTerminal _ _ fun _ => ⟨by rfl, by rfl⟩,
    positions_setTerminal _ _ fun _ => ⟨by rfl, by rfl⟩]

/-- A plain call keeps the positions on the screen. -/
theorem PlainStep.inRange {next : Kernel} {request : Call} (step : PlainStep s request next)
    (range : s.positions.InRange) : next.positions.InRange := by
  -- Of the plain calls only a write to the terminal moves a position.
  cases step with
  | kept | listing | position | awaited | rate | opened | closed | view => exact range
  | line => exact (positions_takeLine s).symm ▸ range
  | written => exact terminalWrite_inRange range _ _

/-- Marking a program's terminal moves nothing. -/
theorem positions_markFish (s : Kernel) (fileName : List Byte) :
    (markFish s fileName).positions = s.positions := by
  -- The name of one program draws on a backing page.
  unfold markFish
  split
  · exact positions_setTerminal (s.setConsole _) _ fun _ => ⟨by rfl, by rfl⟩
  · rfl

/-- A failed call of `execute` keeps the positions on the screen. -/
theorem Failed.inRange {env : Env} {next : Kernel} {frame : CallFrame}
    {command : Option (List Byte)} (range : s.positions.InRange)
    (failed : Failed env s frame command next) : next.positions.InRange := by
  -- A full process table prints a text, and the other two failures print nothing.
  cases failed with
  | null => exact range
  | missing => exact (positions_markFish s _).symm ▸ range
  | full => exact putText_inRange ((positions_markFish s _).symm ▸ range) _

/-- Entering a program moves nothing. -/
theorem Entered.positions {env : Env} {next : Kernel} {frame : CallFrame} {command : List Byte}
    {entryPoint : Nat} (entered : Entered env s frame command entryPoint next) :
    next.positions = s.positions := by
  -- The process's numbers go into the record, next to its position.
  have started : ∀ m : Kernel, ∀ dentry arg pid,
      (startProcess env m frame dentry arg pid).positions = m.positions := by
    intro m dentry arg pid
    have record : (m.setTerminal m.currentId fun term =>
        { term with curPcb := pcbAddr pid, firstProcess := true, currentPid := pid }).positions =
          m.positions := positions_setTerminal m _ fun _ => ⟨by rfl, by rfl⟩
    exact record
  exact (congrArg Kernel.positions entered.started).trans
    ((started _ _ _ _).trans (positions_markFish s _))

/-- Ending a process keeps the positions on the screen. -/
theorem Halted.inRange {env : Env} {next : Kernel} {frame : CallFrame} {outcome : Outcome}
    (range : s.positions.InRange) (halted : Halted env s frame outcome next) :
    next.positions.InRange := by
  -- The end of a process and the return to its parent change other fields of the records.
  have ended : (endProcess s).positions = s.positions := by
    have unmarked : (s.setTerminal s.currTerminal fun term =>
        { term with fish := false }).positions = s.positions :=
      positions_setTerminal s _ fun _ => ⟨by rfl, by rfl⟩
    exact unmarked
  have vacated : (endBaseShell s).positions = s.positions :=
    (positions_setTerminal (endProcess s) _ fun _ => ⟨by rfl, by rfl⟩).trans ended
  have resumed : ∀ m : Kernel, ∀ parent, (resumeParent m parent).positions = m.positions :=
    fun m parent => by
      have record : (m.setTerminal m.currTerminal fun term =>
          { term with curPcb := pcbAddr parent, currentPid := parent }).positions =
            m.positions := positions_setTerminal m _ fun _ => ⟨by rfl, by rfl⟩
      exact record
  cases halted with
  | child above => exact (resumed _ _).trans ended ▸ range
  | stranded base refused => exact (resumed _ _).symm ▸ refused.inRange (vacated.symm ▸ range)
  | restarted base entered => exact (entered.positions.trans vacated).symm ▸ range

/-- The timer interrupt moves nothing. -/
theorem positions_pitHandler (s : Kernel) (esp ebp : Nat) :
    (pitHandler s esp ebp).positions = s.positions := by
  -- Refreshing copies a page, and saving a context writes two other fields.
  have refreshed : ∀ m : Kernel, (refreshFish m).positions = m.positions := by
    intro m
    unfold refreshFish
    split <;> rfl
  have saved : ∀ m : Kernel, (saveContext m esp ebp).positions = m.positions := fun m =>
    positions_setTerminal m _ fun _ => ⟨by rfl, by rfl⟩
  exact (refreshed _).trans (saved { s with nextTerminal := pickTerminal s })

end Calls

/-- A step of the machine keeps the positions on the screen. -/
theorem step_inRange {env : Env} {s next : Kernel} {event : Event}
    (taken : step env s event = some next) (range : s.positions.InRange) :
    next.positions.InRange := by
  -- A key and the programs' output move positions, and the two other interrupts move none.
  cases event with
  | keyboard scancode =>
    obtain ⟨-, rfl⟩ := key_taken taken
    exact printKeyboard_inRange range scancode
  | pit esp ebp =>
    cases taken
    exact (positions_pitHandler s esp ebp).symm ▸ range
  | rtc =>
    cases taken
    exact range
  | call frame request =>
    -- What a call stores for its caller is no position.
    cases request with
    | halt status =>
      obtain ⟨outcome, ended⟩ := halt_taken taken
      exact (halt_cases ended).2.inRange range
    | execute command =>
      obtain ⟨outcome, executed⟩ := execute_taken taken
      -- A refusal prints a message, and the start of a program moves no position.
      rcases execute_cases executed with ⟨-, failed⟩ | ⟨_, _, -, -, ⟨entered⟩⟩
      · exact failed.inRange range
      · exact entered.positions.symm ▸ range
    | read | write | «open» | close | getargs | vidmap =>
      obtain ⟨result, frames, done, -, rfl⟩ := call_taken taken
      have within := (plain_cases (by trivial) done).inRange range
      exact within

/-- The positions of the booted machine lie on the screen. -/
theorem boot_inRange {env : Env} {start : Kernel} (booted : boot env = some start) :
    start.positions.InRange := by
  -- They are zero at boot.
  obtain ⟨_, ⟨entered⟩⟩ := boot_entered booted
  rw [entered.positions]
  change Positions.InRange ⟨0, 0, 0, 0, fun _ => (0, 0)⟩
  exact Positions.inRange_mk (by omega) (by omega) (by omega) (by omega) fun _ =>
    ⟨by decide, by decide⟩

/-- Every position of a reachable state lies on the screen. -/
theorem Reachable.inRange {env : Env} {s : Kernel} (reach : Reachable env s) :
    s.positions.InRange :=
  reach.invariant (fun s => s.positions.InRange) (fun _ booted => boot_inRange booted)
    fun _ _ _ range taken => step_inRange taken range

end SmallOs
