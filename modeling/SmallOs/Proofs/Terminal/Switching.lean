import SmallOs.Proofs.Terminal.Screen

/-! The terminals keep what they show: a switch among open terminals only changes which one is displayed. -/

namespace SmallOs

open Foundation

/-- What a terminal shows: its page, the position on it, and its unfinished line. -/
structure Face where
  page : Nat → Byte
  screenX : Int
  screenY : Int
  bufIndex : Nat
  /-- The line's bytes, as many as its index says. -/
  line : Nat → Byte

/-- What the displayed terminal shows, as the console and the keyboard have it. -/
def Kernel.shownFace (s : Kernel) : Face :=
  -- The displayed terminal is spread over the console and the keyboard.
  { page := window videoBase onepage s.console.video
    screenX := s.console.screenX
    screenY := s.console.screenY
    bufIndex := s.keyboard.bufIndex
    line := window 0 s.keyboard.bufIndex s.keyboard.keyboardbuf }

/-- What another terminal will show, as its record and its backing page have it. -/
def Kernel.savedFace (s : Kernel) (t : Terminal) : Face :=
  -- Its record keeps words, and the switch turns them into C integers again.
  { page := window (videoPtr t) onepage s.console.video
    screenX := toInt32 (s.terminals t).screenX
    screenY := toInt32 (s.terminals t).screenY
    bufIndex := (s.terminals t).bufIndex
    line := window 0 (s.terminals t).bufIndex (s.terminals t).buf }

/-- The saved position of a terminal's cursor. -/
def Kernel.savedCursor (s : Kernel) (t : Terminal) : Int × Int :=
  (toInt32 (s.terminals t).cursorX, toInt32 (s.terminals t).cursorY)

/-- The cursor stands at a position of the screen. -/
def CursorAt (s : Kernel) (x y : Int) : Prop :=
  -- The sixteen bits of the cursor are all the hardware is sent.
  s.console.cursor = ((y * numCols + x) % 2 ^ 16).toNat

/-- The screen's position is one of C integers, and no line is longer than its buffer. -/
structure Switchable (s : Kernel) : Prop where
  column : IsInt32 s.console.screenX
  row : IsInt32 s.console.screenY
  typed : s.keyboard.bufIndex ≤ bufsize
  saved : ∀ t, (s.terminals t).bufIndex ≤ bufsize

/-- A switch to another open terminal can be made, since no line is longer than its buffer. -/
theorem Switchable.switchStep_eq {s : Kernel} {t : Terminal} (sound : Switchable s)
    (other : t ≠ s.currentId) (opened : (s.terminals t).isOpen = true) :
    switchStep s t = some (displayKey s t) :=
  if_pos ⟨other, opened, sound.typed, fun _ _ => sound.saved t⟩

section Save

variable (s : Kernel)

/-- The first half of a switch: the line is copied out, and the displayed terminal is saved. -/
def leave : Kernel :=
  saveTerminal (copyKeyboardBuf s s.keyboard.keyboardbuf s.keyboard.bufIndex)

/-- Only the record of the displayed terminal is written. -/
theorem leave_terminals {t : Terminal} (other : t ≠ s.currentId) :
    (leave s).terminals t = s.terminals t :=
  Function.update_of_ne other _ _

/-- It then has the line, and the position, twice over. -/
theorem leave_record : ((leave s).terminals s.currentId).bufIndex = s.keyboard.bufIndex ∧
    ((leave s).terminals s.currentId).screenX = ofInt32 s.console.screenX ∧
    ((leave s).terminals s.currentId).screenY = ofInt32 s.console.screenY ∧
    ((leave s).terminals s.currentId).cursorX = ofInt32 s.console.screenX ∧
    ((leave s).terminals s.currentId).cursorY = ofInt32 s.console.screenY := by
  -- The record was written last, as a whole.
  have record : (leave s).terminals s.currentId = _ := Function.update_self _ _ _
  rw [record]
  exact ⟨rfl, rfl, rfl, rfl, rfl⟩

/-- The bytes of the line go through the static buffer into the record. -/
theorem leave_buf {i : Nat} (inside : i < s.keyboard.bufIndex) :
    ((leave s).terminals s.currentId).buf i = s.keyboard.keyboardbuf i := by
  -- The line is copied into the static buffer first, and from there into the record.
  have record : (leave s).terminals s.currentId = _ := Function.update_self _ _ _
  rw [record]
  have copied : (if i < s.keyboard.bufIndex then
      (if i < s.keyboard.bufIndex then s.keyboard.keyboardbuf i else s.switch.kbbuf i)
      else if i < bufsize then 0 else (s.terminals s.currentId).buf i) =
        s.keyboard.keyboardbuf i := by
    rw [if_pos inside, if_pos inside]
  exact copied

/-- The live screen goes to the backing page of the displayed terminal. -/
theorem leave_video : (leave s).console.video =
    copyBlock (videoPtr s.currentId) videoBase onepage s.console.video := rfl

end Save

/-- Whether the page or the line is restored first makes no difference. -/
theorem showPage_copyToKeyboardBuf (s : Kernel) (index : Nat) (buf : Nat → Byte) :
    copyToKeyboardBuf (showPage s) index buf = showPage (copyToKeyboardBuf s index buf) := by
  -- The page changes the console and the statics, and the line the keyboard.
  simp only [showPage, copyToKeyboardBuf, Kernel.setKeyboard, Kernel.setConsole, resetCursor,
    resetPosition, getCursor, getPosition, Kernel.setSwitch]

theorem showPage_displayed (s : Kernel) : (showPage s).displayed = s.displayed := by
  -- The copy of the page and the setters leave the records alone.
  simp only [showPage, Kernel.displayed, Kernel.setConsole, resetCursor, resetPosition, getCursor,
    getPosition, Kernel.setSwitch]

/-- The routine of the first terminal, which restores the line last. -/
theorem switchToTerminal1_other {s : Kernel} (other : ¬ s.currentId = 0) :
    switchToTerminal1 s = restoreTerminal (saveTerminal s) 0 := by
  -- Only the order of page and line differs from the other two routines.
  unfold switchToTerminal1 restoreTerminal
  rw [if_neg other]
  simp only
  rw [showPage_displayed, showPage_copyToKeyboardBuf]

/-- The routine of the other two terminals restores one that is open. -/
theorem switchToTerminal_open {s : Kernel} {t : Terminal} (digit : Byte) (other : ¬ s.currentId = t)
    (opened : ((saveTerminal s).terminals t).isOpen = true) :
    switchToTerminal t digit s = restoreTerminal (saveTerminal s) t :=
  (if_neg other).trans (if_pos opened)

/-- All three routines are one when they switch to a different, open terminal. -/
theorem displayKey_eq {s : Kernel} {t : Terminal} (other : t ≠ s.currentId)
    (opened : (s.terminals t).isOpen = true) : displayKey s t = restoreTerminal (leave s) t := by
  -- The line is copied out before the test, which changes neither side of it.
  have differ : ¬ (copyKeyboardBuf s s.keyboard.keyboardbuf s.keyboard.bufIndex).currentId = t :=
    fun same => other same.symm
  have still : ((leave s).terminals t).isOpen = true := by rw [leave_terminals s other, opened]
  match t with
  | 0 => exact switchToTerminal1_other differ
  | 1 => exact switchToTerminal_open 0x32 differ still
  | 2 => exact switchToTerminal_open 0x33 differ still

section Restore

variable (s : Kernel) (t : Terminal)

/-- Displaying a terminal again writes no record. -/
theorem restoreTerminal_terminals : (restoreTerminal s t).terminals = s.terminals := rfl

/-- Its page goes to the live screen. -/
theorem restoreTerminal_video : (restoreTerminal s t).console.video =
    copyBlock videoBase (videoPtr t) onepage s.console.video := rfl

/-- The screen's position and the cursor are set from its record. -/
theorem restoreTerminal_position :
    (restoreTerminal s t).console.screenX = toInt32 (s.terminals t).screenX ∧
      (restoreTerminal s t).console.screenY = toInt32 (s.terminals t).screenY ∧
      CursorAt (restoreTerminal s t) (s.savedCursor t).1 (s.savedCursor t).2 :=
  ⟨rfl, rfl, rfl⟩

/-- Its line goes back to the editor. -/
theorem restoreTerminal_keyboard :
    (restoreTerminal s t).keyboard.bufIndex = (s.terminals t).bufIndex ∧
      ∀ i < (s.terminals t).bufIndex,
        (restoreTerminal s t).keyboard.keyboardbuf i = (s.terminals t).buf i :=
  ⟨rfl, fun _ inside => if_pos inside⟩

/-- What it then shows is what was saved. -/
theorem restoreTerminal_face : (restoreTerminal s t).shownFace = s.savedFace t := by
  -- Page, position and line each come from the record that is restored.
  obtain ⟨x, y, -⟩ := restoreTerminal_position s t
  obtain ⟨index, bytes⟩ := restoreTerminal_keyboard s t
  have page : window videoBase onepage (restoreTerminal s t).console.video =
      window (videoPtr t) onepage s.console.video := by
    rw [restoreTerminal_video, window_copyBlock_same]
  have line : window 0 (s.terminals t).bufIndex (restoreTerminal s t).keyboard.keyboardbuf =
      window 0 (s.terminals t).bufIndex (s.terminals t).buf := by
    funext i
    by_cases inside : i < (s.terminals t).bufIndex
    · rw [window_apply inside, window_apply inside, Nat.zero_add, bytes i inside]
    · simp only [window, if_neg inside]
  unfold Kernel.shownFace Kernel.savedFace
  rw [page, x, y, index, line]

end Restore

/-- What is saved of a terminal when it is left is what it showed. -/
theorem leave_face {s : Kernel} (column : IsInt32 s.console.screenX)
    (row : IsInt32 s.console.screenY) : (leave s).savedFace s.currentId = s.shownFace := by
  -- Page, position and line each go to the record of the terminal that is left.
  obtain ⟨index, x, y, -, -⟩ := leave_record s
  have page : window (videoPtr s.currentId) onepage (leave s).console.video =
      window videoBase onepage s.console.video := by
    rw [leave_video, window_copyBlock_same]
  have line : window 0 s.keyboard.bufIndex ((leave s).terminals s.currentId).buf =
      window 0 s.keyboard.bufIndex s.keyboard.keyboardbuf := by
    funext i
    by_cases inside : i < s.keyboard.bufIndex
    · rw [window_apply inside, window_apply inside, Nat.zero_add, leave_buf s inside]
    · simp only [window, if_neg inside]
  unfold Kernel.shownFace Kernel.savedFace
  rw [page, x, y, index, line, toInt32_ofInt32 column, toInt32_ofInt32 row]

/-- What one switch does. -/
structure Switched (s : Kernel) (t : Terminal) (next : Kernel) : Prop where
  displayed : next.currentId = t
  /-- The terminal it displays shows what was saved of it. -/
  shown : next.shownFace = s.savedFace t
  cursor : CursorAt next (s.savedCursor t).1 (s.savedCursor t).2
  /-- The terminal it leaves is saved as it was shown. -/
  left : next.savedFace s.currentId = s.shownFace
  leftCursor : next.savedCursor s.currentId = (s.console.screenX, s.console.screenY)
  /-- The record and the page of every other terminal are as they were. -/
  records : ∀ u ≠ s.currentId, next.terminals u = s.terminals u
  pages : ∀ u ≠ s.currentId, window (videoPtr u) onepage next.console.video =
    window (videoPtr u) onepage s.console.video

/-- A saved face depends on the record and the backing page only. -/
theorem savedFace_congr {s next : Kernel} {t : Terminal} (record : next.terminals t = s.terminals t)
    (page : window (videoPtr t) onepage next.console.video =
      window (videoPtr t) onepage s.console.video) : next.savedFace t = s.savedFace t := by
  -- No other part of the state is looked at.
  unfold Kernel.savedFace
  rw [record, page]

/-- A switch does what is said of it. -/
theorem switchStep_switched {s next : Kernel} {t : Terminal} (sound : Switchable s)
    (taken : switchStep s t = some next) : Switched s t next := by
  unfold switchStep at taken
  -- A switch is taken only to a different terminal that is open.
  split at taken
  · rename_i admitted
    obtain ⟨other, opened, -⟩ := admitted
    cases taken
    rw [displayKey_eq other opened]
    -- A page that is not the left terminal's is touched by neither copy.
    have saved : ∀ u ≠ s.currentId, window (videoPtr u) onepage (leave s).console.video =
        window (videoPtr u) onepage s.console.video := by
      intro u differ
      rw [leave_video, window_copyBlock_apart (videoPtr_disjoint differ)]
    have restored : ∀ u, window (videoPtr u) onepage (restoreTerminal (leave s) t).console.video =
        window (videoPtr u) onepage (leave s).console.video := by
      intro u
      rw [restoreTerminal_video, window_copyBlock_apart (videoPtr_apart u)]
    have records := restoreTerminal_terminals (leave s) t
    obtain ⟨-, -, -, cursorX, cursorY⟩ := leave_record s
    have cursor := (restoreTerminal_position (leave s) t).2.2
    unfold Kernel.savedCursor at cursor
    rw [leave_terminals s other] at cursor
    refine ⟨rfl, ?_, cursor, ?_, ?_, fun u differ => ?_, fun u differ => ?_⟩
    · rw [restoreTerminal_face]
      exact savedFace_congr (leave_terminals s other) (saved t other)
    · rw [← leave_face sound.column sound.row]
      exact savedFace_congr (congrFun records _) (restored _)
    · unfold Kernel.savedCursor
      rw [records, cursorX, cursorY, toInt32_ofInt32 sound.column, toInt32_ofInt32 sound.row]
    · rw [records, leave_terminals s differ]
    · rw [restored, saved u differ]
  · cases taken

/-- A switch keeps positions and lines within their bounds. -/
theorem Switchable.step {s next : Kernel} {t : Terminal} (sound : Switchable s)
    (taken : switchStep s t = some next) : Switchable next := by
  -- The bounds are those of the face that is displayed, and of the one that is left.
  have switched := switchStep_switched sound taken
  have x : next.console.screenX = toInt32 (s.terminals t).screenX :=
    congrArg Face.screenX switched.shown
  have y : next.console.screenY = toInt32 (s.terminals t).screenY :=
    congrArg Face.screenY switched.shown
  have index : next.keyboard.bufIndex = (s.terminals t).bufIndex :=
    congrArg Face.bufIndex switched.shown
  refine ⟨?_, ?_, ?_, fun u => ?_⟩
  · rw [x]
    exact isInt32_toInt32 _
  · rw [y]
    exact isInt32_toInt32 _
  · rw [index]
    exact sound.saved t
  · by_cases here : u = s.currentId
    · subst here
      have left : (next.terminals s.currentId).bufIndex = s.keyboard.bufIndex :=
        congrArg Face.bufIndex switched.left
      rw [left]
      exact sound.typed
    · rw [switched.records u here]
      exact sound.saved u

/-- The terminals as a user knows them: what each of them shows, and which one is in front. -/
structure Desk where
  front : Terminal
  faces : Terminal → Face

/-- A user's switch only brings another terminal to the front. -/
def Desk.bring (d : Desk) (t : Terminal) : Desk :=
  { d with front := t }

/-- The desk of a kernel state. -/
def Kernel.desk (s : Kernel) : Desk :=
  ⟨s.currentId, fun t => if t = s.currentId then s.shownFace else s.savedFace t⟩

/-- The terminal in front shows its face. -/
theorem desk_front (s : Kernel) : s.desk.faces s.currentId = s.shownFace :=
  if_pos rfl

/-- A switch of the kernel is a switch of the desk. -/
theorem Switched.desk {s next : Kernel} {t : Terminal} (other : t ≠ s.currentId)
    (switched : Switched s t next) : next.desk = s.desk.bring t := by
  -- A face is looked up in the console or in a record, and the switch exchanges the two places.
  have faces : next.desk.faces = s.desk.faces := by
    funext u
    unfold Kernel.desk
    simp only [switched.displayed]
    by_cases here : u = t
    · -- The terminal that is brought to the front was not there before.
      subst here
      rw [if_pos rfl, if_neg other, switched.shown]
    · rw [if_neg here]
      by_cases before : u = s.currentId
      · subst before
        rw [if_pos rfl, switched.left]
      · rw [if_neg before]
        exact savedFace_congr (switched.records u before) (switched.pages u before)
  have front : next.desk.front = t := switched.displayed
  rw [← front]
  exact congrArg (Desk.mk next.desk.front) faces

/-- The terminal a switch goes to is not the displayed one. -/
theorem switchStep_other {s next : Kernel} {t : Terminal} (taken : switchStep s t = some next) :
    t ≠ s.currentId := by
  unfold switchStep at taken
  split at taken
  · rename_i admitted
    exact admitted.1
  · cases taken

section Runs

variable {start last : Kernel} {targets : List Terminal}

/-- Over a whole sequence of switches the faces stay what they were. -/
theorem switches_desk (sound : Switchable start)
    (run : Run switchStep Always start targets last) :
    Switchable last ∧ last.desk.faces = start.desk.faces := by
  -- The faces are an invariant of the whole run, together with the bounds a switch needs.
  refine run.invariant (fun s => Switchable s ∧ s.desk.faces = start.desk.faces) ⟨sound, rfl⟩
    fun s t next held _ taken => ⟨held.1.step taken, ?_⟩
  have switched := switchStep_switched held.1 taken
  rw [switched.desk (switchStep_other taken)]
  exact held.2

/-- The terminal that was in front is displayed with its cursor at its position, or is parked with it. -/
theorem switches_cursor (sound : Switchable start)
    (run : Run switchStep Always start targets last) :
    if last.currentId = start.currentId then
      targets = [] ∨ CursorAt last start.console.screenX start.console.screenY
    else last.savedCursor start.currentId = (start.console.screenX, start.console.screenY) := by
  -- The induction follows the sequence; leaving the terminal parks its cursor, and coming back sets it.
  induction run with
  | nil =>
    rw [if_pos rfl]
    exact .inl rfl
  | @snoc before next targets t run met taken ih =>
    obtain ⟨settled, faces⟩ := switches_desk sound run
    have switched := switchStep_switched settled taken
    have other := switchStep_other taken
    rw [switched.displayed]
    by_cases home : before.currentId = start.currentId
    · -- The terminal in front still shows its face, so what is parked is its position.
      have away : ¬ t = start.currentId := fun back => other (back.trans home.symm)
      have face : before.shownFace = start.shownFace := by
        have same := congrFun faces start.currentId
        rw [desk_front, ← home, desk_front] at same
        exact same
      have x : before.console.screenX = start.console.screenX := congrArg Face.screenX face
      have y : before.console.screenY = start.console.screenY := congrArg Face.screenY face
      rw [if_neg away, ← home, switched.leftCursor, x, y]
    · rw [if_neg home] at ih
      by_cases back : t = start.currentId
      · rw [if_pos back]
        have cursor := switched.cursor
        rw [back, ih] at cursor
        exact .inr cursor
      · rw [if_neg back]
        unfold Kernel.savedCursor at ih ⊢
        rw [switched.records _ fun same => home same.symm]
        exact ih

/-- A terminal that is not displayed at first, and that no switch goes to, is left alone. -/
theorem switches_saved (sound : Switchable start) (run : Run switchStep Always start targets last)
    {t : Terminal} (hidden : t ≠ start.currentId) (never : t ∉ targets) :
    t ≠ last.currentId ∧ last.terminals t = start.terminals t ∧
      window (videoPtr t) onepage last.console.video =
        window (videoPtr t) onepage start.console.video := by
  -- As long as no switch goes to a terminal, each of them leaves another one.
  induction run with
  | nil => exact ⟨hidden, rfl, rfl⟩
  | @snoc before next targets u run met taken ih =>
    simp only [List.mem_append, List.mem_singleton, not_or] at never
    obtain ⟨away, record, page⟩ := ih never.1
    have switched := switchStep_switched (switches_desk sound run).1 taken
    rw [switched.displayed, switched.records t away, switched.pages t away]
    exact ⟨never.2, record, page⟩

end Runs

/--
Terminals come back as they were left, and keep still while they are away.

The two runs are a sequence of switches cut at any place. The terminal displayed at the cut shows
the same whenever it is displayed again, with the cursor at its position, and any other one keeps
its record and its page until a switch goes to it.
-/
theorem switches_restore {start middle last : Kernel} {before away : List Terminal}
    (sound : Switchable start) (front : Run switchStep Always start before middle)
    (back : Run switchStep Always middle away last) :
    (last.currentId = middle.currentId → last.shownFace = middle.shownFace ∧
      (away ≠ [] → CursorAt last last.console.screenX last.console.screenY)) ∧
    (∀ t ≠ middle.currentId, t ∉ away → last.terminals t = middle.terminals t ∧
      window (videoPtr t) onepage last.console.video =
        window (videoPtr t) onepage middle.console.video) ∧
    Switchable last := by
  -- The cut is a state of the first run, and the start of the second.
  have settled := (switches_desk sound front).1
  obtain ⟨kept, faces⟩ := switches_desk settled back
  refine ⟨fun again => ?_, fun t hidden never => (switches_saved settled back hidden never).2, kept⟩
  have face : last.shownFace = middle.shownFace := by
    have same := congrFun faces middle.currentId
    rw [desk_front, ← again, desk_front] at same
    exact same
  refine ⟨face, fun moved => ?_⟩
  have cursor := switches_cursor settled back
  rw [if_pos again] at cursor
  have x : last.console.screenX = middle.console.screenX := congrArg Face.screenX face
  have y : last.console.screenY = middle.console.screenY := congrArg Face.screenY face
  rw [x, y]
  exact cursor.resolve_left moved

/-- A text written on the first terminal and a line begun there, and lines begun on both others. -/
def typedEverywhere : List Event :=
  -- Alt is held from the first function key on.
  [.call sampleFrame (.write 1 (some [0x3E, 0x20]) 2), .keyboard 0x1E, .keyboard 0x30, .keyboard 0x38,
    .keyboard 0x3C, .keyboard 0x2E, .keyboard 0x3D, .keyboard 0x20, .keyboard 0x12]

/-- The second terminal comes back with its line, and the first one with its text, after two visits. -/
theorem switches_restore_sample : ∃ start middle last,
    Run (step sampleEnv) Always sampleBooted typedEverywhere start ∧
    Run switchStep Always start [0, 1] middle ∧ Run switchStep Always middle [2, 0, 1] last ∧
    middle.keyboard.bufIndex = 1 ∧ middle.keyboard.keyboardbuf 0 = 0x63 ∧
    (middle.terminals 0).bufIndex = 2 ∧ middle.console.video (videoPtr 0) = 0x3E ∧
    last.shownFace = middle.shownFace ∧
    CursorAt last last.console.screenX last.console.screenY := by
  -- The keys and both sequences of switches are executed.
  have given : ((replay (step sampleEnv) Always sampleBooted typedEverywhere).bind fun start =>
      (replay switchStep Always start [0, 1]).bind fun middle =>
        (replay switchStep Always middle [2, 0, 1]).map fun last => (start, middle, last)).map
          (fun states => decide ((IsInt32 states.1.console.screenX ∧
            IsInt32 states.1.console.screenY ∧ states.1.keyboard.bufIndex ≤ bufsize ∧
            ∀ t, (states.1.terminals t).bufIndex ≤ bufsize) ∧
            states.2.2.currentId = states.2.1.currentId ∧ states.2.1.keyboard.bufIndex = 1 ∧
            states.2.1.keyboard.keyboardbuf 0 = 0x63 ∧ (states.2.1.terminals 0).bufIndex = 2 ∧
            states.2.1.console.video (videoPtr 0) = 0x3E)) = some true := by decide +kernel
  obtain ⟨⟨start, middle, last⟩, reached, same⟩ := Option.map_eq_some_iff.mp given
  obtain ⟨⟨column, row, typed, saved⟩, again, index, letter, other, text⟩ := of_decide_eq_true same
  obtain ⟨start', typing, rest⟩ := Option.bind_eq_some_iff.mp reached
  obtain ⟨middle', front, back⟩ := Option.bind_eq_some_iff.mp rest
  obtain ⟨last', away, same⟩ := Option.map_eq_some_iff.mp back
  cases same
  have sound : Switchable start := ⟨column, row, typed, saved⟩
  obtain ⟨face, cursor⟩ :=
    (switches_restore sound (replay_run front) (replay_run away)).1 again
  exact ⟨start, middle, last, replay_run typing, replay_run front, replay_run away, index, letter,
    other, text, face, cursor (List.cons_ne_nil _ _)⟩

end SmallOs
