import SmallOs.Proofs.Terminal.Switching

/-! Terminals on which nothing was typed or printed: a switch between two of them changes the display alone. -/

namespace SmallOs

open Foundation

/-- The memory of the screen in another state of the console. -/
def Kernel.withVideo (s : Kernel) (video : Nat → Byte) : Kernel :=
  s.setConsole fun con => { con with video }

/-- The clearing loop blanks the cells it passed, and leaves every other byte alone. -/
theorem clearCells_apply (video : Nat → Byte) (n address : Nat) :
    ((List.range n).foldl (fun video i => storeCell (videoBase + 2 * i) space video) video) address =
      if videoBase ≤ address ∧ address < videoBase + 2 * n then
        if (address - videoBase) % 2 = 0 then space else attrib
      else video address := by
  -- Each turn stores the two bytes of the next cell.
  induction n with
  | zero => simp
  | succ n ih =>
    rw [List.range_succ, List.foldl_append, List.foldl_cons, List.foldl_nil, storeCell]
    by_cases second : address = videoBase + 2 * n + 1
    · rw [second, Function.update_self, if_pos (by omega), if_neg (by omega)]
    · rw [Function.update_of_ne second]
      by_cases first : address = videoBase + 2 * n
      · rw [first, Function.update_self, if_pos (by omega), if_pos (by omega)]
      · rw [Function.update_of_ne first, ih]
        have passed : (videoBase ≤ address ∧ address < videoBase + 2 * (n + 1)) ↔
            (videoBase ≤ address ∧ address < videoBase + 2 * n) := by omega
        simp only [passed]

/-- The screen is cleared to blanks, and nothing else is touched. -/
theorem clearScreen_apply (video : Nat → Byte) (address : Nat) :
    clearScreen video address =
      if videoBase ≤ address ∧ address < videoBase + 4000 then
        if (address - videoBase) % 2 = 0 then space else attrib
      else video address :=
  clearCells_apply video (numRows * numCols) address

/-- A page copied onto an equal one changes nothing. -/
theorem copyBlock_of_equal {dst src : Nat} {video : Nat → Byte}
    (equal : window dst onepage video = window src onepage video) :
    copyBlock dst src onepage video = video := by
  -- Inside the destination the copied byte is the one that is there already.
  funext address
  unfold copyBlock
  split
  · rename_i inside
    have cell := congrFun equal (address - dst)
    rw [window_apply (by omega), window_apply (by omega)] at cell
    rw [← cell]
    congr 1
    omega
  · rfl

/-- Two screens that were equal are equal once both are cleared. -/
theorem window_clearScreen {video other : Nat → Byte}
    (equal : window videoBase onepage video = window videoBase onepage other) :
    window videoBase onepage (clearScreen video) = window videoBase onepage (clearScreen other) := by
  -- Clearing blanks the cells, and keeps the bytes behind them, byte by byte.
  funext offset
  by_cases inside : offset < onepage
  · have cell := congrFun equal offset
    rw [window_apply inside, window_apply inside] at cell ⊢
    rw [clearScreen_apply, clearScreen_apply, cell]
  · simp only [window, inside, if_false]

/-- A screen that is clear is not changed by clearing it again. -/
theorem clearScreen_clearScreen (video : Nat → Byte) :
    clearScreen (clearScreen video) = clearScreen video := by
  -- A cell that was blanked is blanked to the same.
  funext address
  rw [clearScreen_apply (clearScreen video), clearScreen_apply video]
  split <;> rfl

/-- Clearing the screen touches no backing page. -/
theorem window_videoPtr_clearScreen (t : Terminal) (video : Nat → Byte) :
    window (videoPtr t) onepage (clearScreen video) = window (videoPtr t) onepage video := by
  -- The loop stays within the live page.
  funext offset
  by_cases inside : offset < onepage
  · rw [window_apply inside, window_apply inside, clearScreen_apply, if_neg]
    simp only [videoPtr, videoBase, onepage]
    omega
  · simp only [window, inside, if_false]

/-- A record that holds no line, and whose positions are at the start of the screen. -/
structure PristineRecord (term : InitTerminal) : Prop where
  bufIndex : term.bufIndex = 0
  screenX : term.screenX = 0
  screenY : term.screenY = 0
  cursorX : term.cursorX = 0
  cursorY : term.cursorY = 0
  buf : ∀ i < bufsize, term.buf i = 0

/-- Nothing was typed or printed on any terminal. -/
structure Pristine (s : Kernel) : Prop where
  screenX : s.console.screenX = 0
  screenY : s.console.screenY = 0
  cursor : s.console.cursor = 0
  bufIndex : s.keyboard.bufIndex = 0
  keyboardbuf : ∀ i < bufsize, s.keyboard.keyboardbuf i = 0
  terminalBufferIndex : s.switch.terminalBufferIndex = 0
  currentX : s.switch.currentX = 0
  currentY : s.switch.currentY = 0
  currentCursorX : s.switch.currentCursorX = 0
  currentCursorY : s.switch.currentCursorY = 0
  records : ∀ t, PristineRecord (s.terminals t)

/-- Saving an empty line and the start of the screen changes no pristine record. -/
theorem PristineRecord.saved {term : InitTerminal} (pristine : PristineRecord term) {index : Nat}
    {x y : Int} (line : Nat → Byte) (empty : index = 0) (left : x = 0) (top : y = 0) :
    ({ term with
      bufIndex := index
      screenX := ofInt32 x
      screenY := ofInt32 y
      cursorX := ofInt32 x
      cursorY := ofInt32 y
      buf := fun i => if i < index then line i else if i < bufsize then 0 else term.buf i } :
        InitTerminal) = term := by
  subst empty left top
  have buf : (fun i => if i < 0 then line i else if i < bufsize then 0 else term.buf i) =
      term.buf := by
    -- Nothing is copied, and what is cleared was zero.
    funext i
    rw [if_neg (Nat.not_lt_zero i)]
    split
    · rename_i inside
      exact (pristine.buf i inside).symm
    · rfl
  obtain ⟨bufIndex, screenX, screenY, cursorX, cursorY, -⟩ := pristine
  rw [buf]
  cases term
  simp only at bufIndex screenX screenY cursorX cursorY
  subst bufIndex screenX screenY cursorX cursorY
  rfl

/-- Copying no byte of a line leaves a buffer as it was. -/
theorem copy_nothing {index : Nat} (empty : index = 0) (line old : Nat → Byte) :
    (fun i => if i < index then line i else old i) = old := by
  -- The loop has no turn.
  subst empty
  funext i
  exact if_neg (Nat.not_lt_zero i)

/-- Clearing a buffer that holds zeros leaves it as it was. -/
theorem clear_zeros {buf : Nat → Byte} (zeros : ∀ i < bufsize, buf i = 0) :
    (fun i => if i < bufsize then 0 else buf i) = buf := by
  -- Every byte the loop stores was a zero.
  funext i
  split
  · rename_i inside
    exact (zeros i inside).symm
  · rfl

namespace Pristine

variable {s : Kernel}

/-- Leaving a pristine terminal writes nothing new into its record. -/
theorem leave_terminals (pristine : Pristine s) : (leave s).terminals = s.terminals := by
  funext t
  -- Only the record of the displayed terminal is written, with what it holds already.
  by_cases here : t = s.currentId
  · subst here
    have record : (leave s).terminals s.currentId = _ := Function.update_self _ _ _
    exact record.trans ((pristine.records s.currentId).saved _ pristine.bufIndex pristine.screenX
      pristine.screenY)
  · exact SmallOs.leave_terminals s here

/-- The keyboard's empty buffer is cleared once more. -/
theorem leave_keyboard (pristine : Pristine s) : (leave s).keyboard = s.keyboard := by
  -- The buffer holds zeros up to its size, and the index is zero.
  have cleared := clear_zeros pristine.keyboardbuf
  have empty := pristine.bufIndex
  change ({ s.keyboard with
    keyboardbuf := fun i => if i < bufsize then 0 else s.keyboard.keyboardbuf i
    bufIndex := 0 } : Keyboard) = s.keyboard
  rw [cleared, ← empty]

/-- The statics at the start of the screen, as every switch sets them. -/
theorem switch_eq (pristine : Pristine s) : ({ s.switch with
    terminalBufferIndex := 0
    currentX := 0
    currentY := 0
    currentCursorX := 0
    currentCursorY := 0 } : SwitchStatics) = s.switch := by
  -- The five statics are zero already.
  obtain ⟨-, -, -, -, -, index, x, y, u, v, -⟩ := pristine
  cases held : s.switch
  rw [held] at index x y u v
  simp only at index x y u v
  subst index x y u v
  rfl

/-- The statics pass the start of the screen and an empty line, as they did before. -/
theorem leave_switch (pristine : Pristine s) : (leave s).switch = s.switch := by
  have copied := copy_nothing pristine.bufIndex s.keyboard.keyboardbuf s.switch.kbbuf
  change ({ s.switch with
    kbbuf := fun i => if i < s.keyboard.bufIndex then s.keyboard.keyboardbuf i else s.switch.kbbuf i
    terminalBufferIndex := s.keyboard.bufIndex
    currentX := s.console.screenX
    currentY := s.console.screenY
    currentCursorX := s.console.screenX
    currentCursorY := s.console.screenY } : SwitchStatics) = s.switch
  rw [copied, pristine.bufIndex, pristine.screenX, pristine.screenY]
  exact pristine.switch_eq

/-- Leaving a pristine terminal only copies its page. -/
theorem leave_eq (pristine : Pristine s) : leave s =
    s.withVideo (copyBlock (videoPtr s.currentId) videoBase onepage s.console.video) := by
  -- A switch writes four parts of the state, of which three stay as they were.
  have parts : leave s = { s with
      terminals := (leave s).terminals
      keyboard := (leave s).keyboard
      switch := (leave s).switch
      console := (leave s).console } := rfl
  rw [parts, pristine.leave_terminals, pristine.leave_keyboard, pristine.leave_switch]
  rfl

/-- The console at the start of the screen, with any memory behind it. -/
theorem console_eq (pristine : Pristine s) (video : Nat → Byte) :
    (⟨0, 0, video, 0⟩ : Console) = (s.withVideo video).console := by
  -- Position and cursor are zero, so only the memory is free.
  obtain ⟨x, y, cursor, -⟩ := pristine
  simp only [Kernel.withVideo, Kernel.setConsole, x, y, cursor]

/-- Displaying a pristine terminal again only copies its page. -/
theorem restore_eq (pristine : Pristine s) (t : Terminal) : restoreTerminal s t =
    (s.withVideo (copyBlock videoBase (videoPtr t) onepage s.console.video)).display t := by
  -- The record has nothing to restore, apart from the page.
  obtain ⟨bufIndex, screenX, screenY, cursorX, cursorY, -⟩ := pristine.records t
  have keyboard : (restoreTerminal s t).keyboard = s.keyboard := by
    have copied := copy_nothing bufIndex (s.terminals t).buf s.keyboard.keyboardbuf
    change ({ s.keyboard with
      keyboardbuf := fun i =>
        if i < (s.terminals t).bufIndex then (s.terminals t).buf i else s.keyboard.keyboardbuf i
      bufIndex := (s.terminals t).bufIndex } : Keyboard) = s.keyboard
    rw [copied, bufIndex, ← pristine.bufIndex]
  have switch : (restoreTerminal s t).switch = s.switch := by
    change ({ s.switch with
      terminalBufferIndex := (s.terminals t).bufIndex
      currentX := toInt32 (s.terminals t).screenX
      currentY := toInt32 (s.terminals t).screenY
      currentCursorX := toInt32 (s.terminals t).cursorX
      currentCursorY := toInt32 (s.terminals t).cursorY } : SwitchStatics) = s.switch
    rw [bufIndex, screenX, screenY, cursorX, cursorY]
    exact pristine.switch_eq
  have console : (restoreTerminal s t).console =
      (s.withVideo (copyBlock videoBase (videoPtr t) onepage s.console.video)).console := by
    rw [← pristine.console_eq]
    change (⟨toInt32 (s.terminals t).screenX, toInt32 (s.terminals t).screenY,
      copyBlock videoBase (videoPtr t) onepage s.console.video,
      ((toInt32 (s.terminals t).cursorY * numCols + toInt32 (s.terminals t).cursorX) %
        2 ^ 16).toNat⟩ : Console) = _
    rw [screenX, screenY, cursorX, cursorY]
    rfl
  have parts : restoreTerminal s t = { s with
      currentId := t
      keyboard := (restoreTerminal s t).keyboard
      switch := (restoreTerminal s t).switch
      console := (restoreTerminal s t).console } := rfl
  rw [parts, keyboard, switch, console]
  rfl

/-- Opening a terminal from a pristine one marks it open and clears the screen. -/
theorem open_eq (pristine : Pristine s) (t : Terminal) : openTerminal s t =
    ((s.setTerminal t fun term => { term with isOpen := true }).withVideo
      (clearScreen s.console.video)).display t := by
  have parts : openTerminal s t =
      { s.setTerminal t fun term => { term with isOpen := true } with
        currentId := t
        switch := { s.switch with
          currentX := 0
          currentY := 0
          currentCursorX := 0
          currentCursorY := 0 }
        console := ⟨0, 0, clearScreen s.console.video, ((0 * numCols + 0 : Int) % 2 ^ 16).toNat⟩ } := by
    simp only [openTerminal, clear, resetCursor, resetPosition, getCursor, getPosition,
      Kernel.setConsole, Kernel.setSwitch, Kernel.display, Kernel.setTerminal]
  have start : ((0 * numCols + 0 : Int) % 2 ^ 16).toNat = 0 := rfl
  have switch : ({ s.switch with
      currentX := 0
      currentY := 0
      currentCursorX := 0
      currentCursorY := 0 } : SwitchStatics) = s.switch := by
    have index := pristine.terminalBufferIndex
    have whole := pristine.switch_eq
    rwa [← index] at whole
  -- The memory of the screen stays closed, so that nobody unfolds its two thousand cells.
  generalize clearScreen s.console.video = video at parts
  rw [parts, switch, start, pristine.console_eq]
  rfl

/-- The memory of the screen is no matter of positions and lines. -/
theorem withVideo (pristine : Pristine s) (video : Nat → Byte) : Pristine (s.withVideo video) :=
  { pristine with records := pristine.records }

/-- Neither is the terminal that is displayed. -/
theorem display (pristine : Pristine s) (t : Terminal) : Pristine (s.display t) :=
  { pristine with records := pristine.records }

/-- Neither is which terminals are open. -/
theorem opened (pristine : Pristine s) (t : Terminal) :
    Pristine (s.setTerminal t fun term => { term with isOpen := true }) := by
  refine { pristine with records := fun u => ?_ }
  -- Whether a terminal is open is no line and no position.
  by_cases here : u = t
  · subst here
    have record := pristine.records u
    simp only [Kernel.setTerminal, Function.update_self]
    exact { record with buf := record.buf }
  · simp only [Kernel.setTerminal, Function.update_of_ne here]
    exact pristine.records u

/-- A switch between pristine terminals copies two pages, and changes the display. -/
theorem displayKey_eq (pristine : Pristine s) {t : Terminal} (other : t ≠ s.currentId)
    (opened : (s.terminals t).isOpen = true) : displayKey s t =
      (s.withVideo (copyBlock videoBase (videoPtr t) onepage
        (copyBlock (videoPtr s.currentId) videoBase onepage s.console.video))).display t := by
  -- Leaving copies the live screen out, and restoring copies the other page in.
  rw [SmallOs.displayKey_eq other opened, pristine.leave_eq, (pristine.withVideo _).restore_eq]
  rfl

/-- The first switch to the second terminal saves one page, and clears the screen. -/
theorem displayKey_opens (pristine : Pristine s) (other : s.currentId ≠ 1)
    (closed : (s.terminals 1).isOpen = false) : displayKey s 1 =
      ((s.setTerminal 1 fun term => { term with isOpen := true }).withVideo (clearScreen
        (copyBlock (videoPtr s.currentId) videoBase onepage s.console.video))).display 1 := by
  -- The second terminal's flag is tested after the first one is saved.
  have still : ¬ ((leave s).terminals 1).isOpen = true := by
    rw [pristine.leave_terminals, closed]
    decide
  have opens : displayKey s 1 = openTerminal (leave s) 1 := (if_neg other).trans (if_neg still)
  rw [opens, pristine.leave_eq, (pristine.withVideo _).open_eq]
  rfl

end Pristine

/-- A screen that was left blank is blank again after a visit to a new terminal, and so is that terminal's. -/
theorem visit_pages {blank : Nat → Byte} (clear : clearScreen blank = blank) :
    let visited := clearScreen (copyBlock (videoPtr 0) videoBase onepage blank)
    let back := copyBlock videoBase (videoPtr 0) onepage
      (copyBlock (videoPtr 1) videoBase onepage visited)
    copyBlock (videoPtr 0) videoBase onepage back = back ∧
      copyBlock videoBase (videoPtr 1) onepage back = back := by
  intro visited back
  have differ : (0 : Terminal) ≠ 1 := by decide
  have away : videoBase + onepage ≤ videoPtr 0 ∨ videoPtr 0 + onepage ≤ videoBase :=
    (videoPtr_apart 0).symm
  -- The screen shows what was saved of the first terminal, and so does its page.
  have shown : window videoBase onepage back = window (videoPtr 0) onepage back := by
    rw [window_copyBlock_same, window_copyBlock_apart (videoPtr_apart 0)]
  -- What was saved is the blank screen, and the new terminal was cleared to the same.
  have first : window (videoPtr 0) onepage back = window videoBase onepage blank := by
    rw [window_copyBlock_apart (videoPtr_apart 0),
      window_copyBlock_apart (videoPtr_disjoint differ), window_videoPtr_clearScreen,
      window_copyBlock_same]
  have second : window (videoPtr 1) onepage back = window videoBase onepage blank := by
    rw [window_copyBlock_apart (videoPtr_apart 1), window_copyBlock_same,
      window_clearScreen (window_copyBlock_apart away), clear]
  exact ⟨copyBlock_of_equal shown.symm, copyBlock_of_equal (by rw [shown, first, second])⟩

/-- A visit to a new terminal and back opens it, and changes the screens at most. -/
theorem displayKey_visit {s : Kernel} (pristine : Pristine s) (shown : s.currentId = 0)
    (first : (s.terminals 0).isOpen = true) (closed : (s.terminals 1).isOpen = false) :
    displayKey (displayKey s 1) 0 =
      ((s.setTerminal 1 fun term => { term with isOpen := true }).withVideo
        (copyBlock videoBase (videoPtr 0) onepage (copyBlock (videoPtr 1) videoBase onepage
          (clearScreen (copyBlock (videoPtr 0) videoBase onepage s.console.video))))).display 0 := by
  -- The way there opens the terminal, and the way back finds the first one open.
  have there := pristine.displayKey_opens (by rw [shown]; decide) closed
  rw [shown] at there
  rw [there]
  generalize clearScreen (copyBlock (videoPtr 0) videoBase onepage s.console.video) = visited
  have still : ((((s.setTerminal 1 fun term => { term with isOpen := true }).withVideo
      visited).display 1).terminals 0).isOpen = true := by
    simp [Kernel.withVideo, Kernel.display, Kernel.setTerminal, Kernel.setConsole, first]
  have back := (((pristine.opened 1).withVideo visited).display 1).displayKey_eq (t := 0)
    (show (0 : Terminal) ≠ 1 by decide) still
  rw [back]
  rfl

/-- Returning to a new terminal after its first visit changes the display, and nothing else. -/
theorem displayKey_return {s : Kernel} (pristine : Pristine s) (shown : s.currentId = 0)
    (first : (s.terminals 0).isOpen = true) (closed : (s.terminals 1).isOpen = false)
    (clear : clearScreen s.console.video = s.console.video) :
    displayKey (displayKey (displayKey s 1) 0) 1 = (displayKey (displayKey s 1) 0).display 1 := by
  obtain ⟨saved, reopened⟩ := visit_pages clear
  rw [displayKey_visit pristine shown first closed]
  generalize copyBlock videoBase (videoPtr 0) onepage (copyBlock (videoPtr 1) videoBase onepage
    (clearScreen (copyBlock (videoPtr 0) videoBase onepage s.console.video))) = back at *
  have opened : ((((s.setTerminal 1 fun term => { term with isOpen := true }).withVideo
      back).display 0).terminals 1).isOpen = true := by
    simp [Kernel.withVideo, Kernel.display, Kernel.setTerminal, Kernel.setConsole]
  have again := (((pristine.opened 1).withVideo back).display 0).displayKey_eq (t := 1)
    (show (1 : Terminal) ≠ 0 by decide) opened
  -- Both pages hold what the screen shows already.
  have same : copyBlock videoBase (videoPtr 1) onepage
      (copyBlock (videoPtr 0) videoBase onepage back) = back := by rw [saved, reopened]
  rw [again]
  exact congrArg (fun video => ((s.setTerminal 1 fun term =>
    { term with isOpen := true }).withVideo video).display 1) same

/-- The record of a terminal whose process changes stays pristine. -/
theorem PristineRecord.started {term : InitTerminal} (pristine : PristineRecord term)
    (address pid : Nat) : PristineRecord
      { term with curPcb := address, firstProcess := true, currentPid := pid } :=
  -- The process is no line and no position.
  { pristine with buf := pristine.buf }

/-- Starting a process types and prints nothing. -/
theorem Pristine.started {s : Kernel} (pristine : Pristine s) (env : Env) (frame : CallFrame)
    (dentry : Dentry) (arg : List Byte) (pid : Nat) :
    Pristine (startProcess env s frame dentry arg pid) := by
  refine { pristine with records := fun u => ?_ }
  -- Only the record of the displayed terminal is written.
  by_cases here : u = s.currentId
  · subst here
    have record : (startProcess env s frame dentry arg pid).terminals s.currentId = _ :=
      Function.update_self _ _ _
    rw [record]
    exact (pristine.records s.currentId).started _ _
  · have record : (startProcess env s frame dentry arg pid).terminals u = s.terminals u :=
      Function.update_of_ne here _ _
    rw [record]
    exact pristine.records u

/-- Nothing was typed or printed before the first process. -/
theorem pristine_initialKernel (env : Env) : Pristine (initialKernel env) :=
  ⟨rfl, rfl, rfl, rfl, fun _ _ => rfl, rfl, rfl, rfl, rfl, rfl,
    fun _ => ⟨rfl, rfl, rfl, rfl, rfl, fun _ _ => rfl⟩⟩

/-- Holding Alt types and prints nothing. -/
theorem Pristine.alt {s : Kernel} (pristine : Pristine s) :
    Pristine (s.setKeyboard fun kb => { kb with altFlags := true }) :=
  { pristine with records := pristine.records }

/-- The key press that holds Alt. -/
theorem printKeyboard_alt (s : Kernel) :
    printKeyboard s 0x38 = s.setKeyboard fun kb => { kb with altFlags := true } := by
  -- Alt is in none of the tables of characters.
  have shifted : lookupKey (shiftKeys ++ keyboardCap) 0x38 = none := by decide
  have capital : lookupKey (plainKeys ++ keyboardSc.take 10 ++ keyboardCap.drop 10) 0x38 = none := by
    decide
  have plain : lookupKey (plainKeys ++ keyboardSc) 0x38 = none := by decide
  have silent : ∀ kb : Keyboard, typedChar kb 0x38 = none := by
    intro kb
    unfold typedChar
    split
    · exact shifted
    · split
      · exact capital
      · exact plain
  simp [printKeyboard, releaseFlags, pressFlags, keyAction, silent, Kernel.setKeyboard, performKey]

/-- The function keys of the first two terminals, while Alt is held. -/
theorem printKeyboard_function {s : Kernel} (held : s.keyboard.altFlags = true) :
    printKeyboard s 0x3B = displayKey s 0 ∧ printKeyboard s 0x3C = displayKey s 1 := by
  -- Neither key has a modifier's scan code, so the flag is still set when it is tested.
  simp [printKeyboard, releaseFlags, pressFlags, keyAction, held, Kernel.setKeyboard, performKey]

end SmallOs
