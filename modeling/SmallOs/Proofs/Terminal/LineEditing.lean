import SmallOs.Proofs.Terminal.BufferBounds

/-! Lines typed on several terminals in turn: when each of them is what its own keys make of it. -/

namespace SmallOs

open Foundation

namespace LineBuffers

variable {b : LineBuffers}

/-- The unfinished line of a terminal: in the editor while it is displayed, else in its mailbox. -/
def unfinished (b : LineBuffers) (t : Terminal) : List Byte :=
  -- The mailbox of the displayed terminal may hold an older copy of the same line.
  if t = b.displayed then bytesOf b.keyboardbuf b.bufIndex
  else bytesOf (b.mailboxes t).buf (b.mailboxes t).bufIndex

theorem unfinished_front : b.unfinished b.displayed = bytesOf b.keyboardbuf b.bufIndex :=
  if_pos rfl

theorem unfinished_other {t : Terminal} (other : t ≠ b.displayed) :
    b.unfinished t = bytesOf (b.mailboxes t).buf (b.mailboxes t).bufIndex :=
  if_neg other

/-- What makes a key edit the line of the displayed terminal, and nothing else. -/
def EditsLine (b : LineBuffers) (erases : Bool) : KeyAction → Prop
  -- With the counter apart from the index, a character is refused too early or stored too late.
  | .char _ => (b.count = bufsize ↔ b.bufIndex = bufsize)
  -- Both tests of `backspace` have to let a line that is not empty be erased.
  | .backspace => 0 < b.bufIndex → erases = true ∧ 0 < b.count
  | _ => True

/-- A terminal that was never opened is not displayed, and has no line. -/
def ClosedEmpty (b : LineBuffers) : Prop :=
  -- The first terminal is never tested, so its flag says nothing.
  ∀ t, t ≠ 0 → (b.mailboxes t).isOpen = false → t ≠ b.displayed ∧ (b.mailboxes t).bufIndex = 0

/-- The lines after an action on the displayed terminal, as they should be. -/
def EditedBy (b : LineBuffers) (action : KeyAction) (next : LineBuffers) : Prop :=
  -- The other terminals' lines are part of the statement.
  ∀ t, next.unfinished t =
    if t = b.displayed then edit (b.unfinished t) action else b.unfinished t

/-- An action that only edits the editor's buffer edits the displayed terminal's line. -/
theorem EditedBy.of_editor {next : LineBuffers} {action : KeyAction}
    (shown : next.displayed = b.displayed)
    (boxes : ∀ t ≠ b.displayed, next.mailboxes t = b.mailboxes t)
    (edited : bytesOf next.keyboardbuf next.bufIndex =
      edit (bytesOf b.keyboardbuf b.bufIndex) action) : b.EditedBy action next := by
  -- The displayed terminal is the editor's, and every other mailbox is as before.
  intro t
  by_cases here : t = b.displayed
  · subst here
    have front := unfinished_front (b := next)
    rw [shown] at front
    rw [if_pos rfl, unfinished_front, front, edited]
  · have there : t ≠ next.displayed := by
      rw [shown]
      exact here
    rw [if_neg here, unfinished_other here, unfinished_other there, boxes t here]

/-- An action that edits nothing leaves every line as it was. -/
theorem EditedBy.of_same {next : LineBuffers} {action : KeyAction}
    (idle : ∀ line, edit line action = line) (same : ∀ t, next.unfinished t = b.unfinished t) :
    b.EditedBy action next := by
  intro t
  rw [same, idle]
  split
  · rfl
  · rfl

/-- A typed character edits the displayed terminal's line, if counter and index agree that it fits. -/
theorem editedBy_type {c : Byte} (bounded : b.bufIndex ≤ bufsize)
    (agree : b.count = bufsize ↔ b.bufIndex = bufsize) : b.EditedBy (.char c) (b.type c) := by
  obtain ⟨boxes, shown⟩ := type_mailboxes (b := b) c
  refine .of_editor shown (fun t _ => by rw [boxes]) ?_
  simp only [edit, bytesOf_length]
  unfold type
  -- Where the counter is full the index is, too, and the line takes no further character.
  by_cases full : b.count = bufsize
  · rw [if_pos full, if_neg (by omega)]
  · have room : b.bufIndex < bufsize := by omega
    have inside : b.bufIndex ≤ bufsize - 1 := by omega
    rw [if_neg full, if_pos room, if_pos inside]
    exact bytesOf_store b.keyboardbuf b.bufIndex c

/-- Backspace edits the displayed terminal's line, if it is not refused while there is one. -/
theorem editedBy_erase {erases : Bool} (free : 0 < b.bufIndex → erases = true ∧ 0 < b.count) :
    b.EditedBy .backspace (if erases then b.erase else b) := by
  -- Only a line that is not empty needs the condition.
  by_cases some : 0 < b.bufIndex
  · obtain ⟨reached, counted⟩ := free some
    rw [if_pos reached]
    unfold erase
    rw [if_pos ⟨counted, some⟩]
    exact .of_editor rfl (fun _ _ => rfl) (bytesOf_erase b.keyboardbuf b.bufIndex 0)
  · -- An empty line stays empty, whether Backspace gets there or not.
    have empty : b.bufIndex = 0 := by omega
    have stays : b.erase = b := if_neg fun both => some both.2
    rw [stays, ite_self]
    refine .of_editor rfl (fun _ _ => rfl) ?_
    rw [empty]
    rfl

/-- Putting the line away and taking another one out changes none. -/
theorem unfinished_display {t : Terminal} (closed : b.ClosedEmpty) (u : Terminal) :
    (b.display t).unfinished u = b.unfinished u := by
  unfold display
  -- The terminal in front stays, or its line goes to a mailbox and another one comes out.
  by_cases here : b.displayed = t
  · rw [if_pos here]
  · have other : t ≠ b.displayed := fun same => here same.symm
    -- The line that is put away is the one that was displayed.
    have left : ∀ u, bytesOf (b.leave.mailboxes u).buf (b.leave.mailboxes u).bufIndex =
        b.unfinished u := by
      intro u
      by_cases front : u = b.displayed
      · subst front
        rw [leave_front, unfinished_front]
        exact bytesOf_congr fun i inside => if_pos inside
      · rw [leave_other front, unfinished_other front]
    rw [if_neg here]
    split
    · -- The line that is taken out is the one that was put away.
      by_cases front : u = t
      · subst front
        have taken := unfinished_front (b := b.leave.restore u)
        rw [← left u]
        exact taken.trans (bytesOf_congr fun i inside => if_pos inside)
      · rw [unfinished_other (b := b.leave.restore t) front]
        exact left u
    · rename_i fresh
      obtain ⟨zero, opened⟩ := not_or.mp fresh
      by_cases front : u = t
      · subst front
        -- A new terminal begins with the empty line it had.
        have none : (b.mailboxes u).bufIndex = 0 := (closed u zero (by simpa using opened)).2
        have empty := unfinished_front (b := b.leave.start u)
        rw [unfinished_other other, none]
        exact empty
      · rw [unfinished_other (b := b.leave.start t) front]
        have kept : (b.leave.start t).mailboxes u = b.leave.mailboxes u :=
          Function.update_of_ne front _ _
        rw [kept]
        exact left u

/-- Every key edits the displayed terminal's line, under its condition. -/
theorem editedBy_key {erases : Bool} {action : KeyAction} (bounded : b.bufIndex ≤ bufsize)
    (closed : b.ClosedEmpty) (edits : b.EditsLine erases action) :
    b.EditedBy action (b.key erases action) := by
  -- A key edits the editor's buffer only, except for a switch, which edits nothing.
  cases action with
  | char c => exact editedBy_type bounded edits
  | backspace => exact editedBy_erase edits
  | enter =>
    obtain ⟨-, shown⟩ := type_mailboxes (b := b) 0x0A
    exact .of_editor shown (fun t other => enter_other other) rfl
  | clear => exact .of_editor rfl (fun _ _ => rfl) rfl
  | display t => exact .of_same (fun _ => rfl) (unfinished_display closed)
  | nothing => exact .of_same (fun _ => rfl) fun _ => rfl

/-- The same terminal is displayed, and only its own mailbox changed, but not whether it is open. -/
theorem ClosedEmpty.of_front {next : LineBuffers} (closed : b.ClosedEmpty)
    (shown : next.displayed = b.displayed)
    (boxes : ∀ t ≠ b.displayed, next.mailboxes t = b.mailboxes t)
    (front : (next.mailboxes b.displayed).isOpen = b.front.isOpen) : next.ClosedEmpty := by
  intro t zero shut
  -- The displayed terminal is not a closed one, so its mailbox may change.
  by_cases here : t = b.displayed
  · -- The displayed terminal is open, or it is the first.
    subst here
    rw [front] at shut
    exact absurd rfl (closed _ zero shut).1
  · rw [boxes t here] at shut ⊢
    rw [shown]
    exact closed t zero shut

/-- A switch opens the terminal it displays. -/
theorem ClosedEmpty.display (closed : b.ClosedEmpty) (t : Terminal) :
    (b.display t).ClosedEmpty := by
  have left : b.leave.ClosedEmpty :=
    closed.of_front rfl (fun t other => leave_other other) (by rw [leave_front])
  unfold LineBuffers.display
  by_cases here : b.displayed = t
  · rw [if_pos here]
    exact closed
  rw [if_neg here]
  split
  · rename_i opened
    intro u zero shut
    refine ⟨?_, (left u zero shut).2⟩
    rintro rfl
    -- What is restored was open already, or is the first terminal.
    rcases opened with first | opened
    · exact zero first
    · rw [← (show (b.leave.mailboxes u).isOpen = (b.mailboxes u).isOpen by
        rw [leave_other fun same => here same.symm])] at opened
      exact absurd (opened.symm.trans shut) (by decide)
  · intro u zero shut
    by_cases front : u = t
    · subst front
      have opened : (b.leave.start u).mailboxes u = _ := Function.update_self _ _ _
      rw [opened] at shut
      cases shut
    · have kept : (b.leave.start t).mailboxes u = b.leave.mailboxes u :=
        Function.update_of_ne front _ _
      rw [kept] at shut ⊢
      exact ⟨front, (left u zero shut).2⟩

/-- No key makes a terminal that was never opened hold a line. -/
theorem ClosedEmpty.key (closed : b.ClosedEmpty) (erases : Bool) (action : KeyAction) :
    (b.key erases action).ClosedEmpty := by
  -- Only a switch opens a terminal, and only a closed one.
  cases action with
  | char c =>
    obtain ⟨boxes, shown⟩ := type_mailboxes (b := b) c
    refine closed.of_front shown (fun t _ => ?_) ?_
    · exact congrFun boxes t
    · exact congrArg Mailbox.isOpen (congrFun boxes b.displayed)
  | backspace =>
    simp only [LineBuffers.key]
    split
    · unfold erase
      split
      · exact closed
      · exact closed
    · exact closed
  | enter =>
    obtain ⟨-, shown⟩ := type_mailboxes (b := b) 0x0A
    have front : (b.key erases .enter).mailboxes b.displayed = _ := enter_front
    exact closed.of_front shown (fun t other => enter_other other) (by rw [front])
  | clear => exact closed
  | display t => exact closed.display t
  | nothing => exact closed

/-- A reader who takes a line changes no unfinished one. -/
theorem unfinished_take (t : Terminal) : b.take.unfinished t = b.unfinished t := by
  -- The reader clears the mailbox of the displayed terminal, whose line is in the editor.
  by_cases here : t = b.displayed
  · subst here
    have front := unfinished_front (b := b.take)
    exact front.trans (unfinished_front (b := b)).symm
  · have there : t ≠ b.take.displayed := here
    have kept : b.take.mailboxes t = b.mailboxes t := deliver_other _ here
    rw [unfinished_other here, unfinished_other there, kept]

theorem ClosedEmpty.take (closed : b.ClosedEmpty) : b.take.ClosedEmpty := by
  have front : b.take.mailboxes b.displayed = _ := deliver_front _
  exact closed.of_front rfl (fun t other => deliver_other _ other) (by rw [front])

end LineBuffers

/-- The unfinished line of a terminal. -/
def Kernel.unfinished (s : Kernel) (t : Terminal) : List Byte :=
  if t = s.currentId then s.line else bytesOf (s.terminals t).buf (s.terminals t).bufIndex

/-- What makes a key edit the line of the displayed terminal as it would edit it alone. -/
def KeyEditsLine (s : Kernel) : KeyAction → Prop
  -- The counter says that the line is full exactly when its index does.
  | .char _ => s.keyboard.count = bufsize ↔ s.keyboard.bufIndex = bufsize
  -- A line that is not empty is counted, and the editor is not in the corner.
  | .backspace => 0 < s.keyboard.bufIndex →
      0 < s.keyboard.count ∧ ¬ (s.keyboard.vdX = 0 ∧ s.keyboard.vdY = 0)
  | _ => True

instance (s : Kernel) : (action : KeyAction) → Decidable (KeyEditsLine s action)
  | .char _ =>
    inferInstanceAs (Decidable (s.keyboard.count = bufsize ↔ s.keyboard.bufIndex = bufsize))
  | .backspace =>
    inferInstanceAs (Decidable (0 < s.keyboard.bufIndex →
      0 < s.keyboard.count ∧ ¬ (s.keyboard.vdX = 0 ∧ s.keyboard.vdY = 0)))
  | .enter | .clear | .display _ | .nothing => inferInstanceAs (Decidable True)

/-- What makes a step edit the lines as the keys of each terminal would edit them alone. -/
def EditsLines (s : Kernel) : Event → Prop
  | .keyboard scancode => KeyEditsLine s (pressAction s.keyboard scancode)
  | _ => True

/-- The condition in the words of the line buffers. -/
theorem KeyEditsLine.lines {s : Kernel} {action : KeyAction} (edits : KeyEditsLine s action) :
    s.lines.EditsLine (erases s) action := by
  -- The position of the editor enters only through the test of Backspace.
  cases action with
  | char c => exact edits
  | backspace =>
    intro some
    obtain ⟨counted, away⟩ := edits some
    exact ⟨decide_eq_true ⟨Nat.ne_of_gt counted, away⟩, counted⟩
  | enter | clear | display | nothing => trivial

/-- An action that is typed on a terminal, and not a switch to another one. -/
def KeyAction.OnLine (action : KeyAction) : Prop :=
  ∀ t, action ≠ .display t

/-- An observer who notes the keys typed on each terminal while it is displayed. -/
def typedKeys (typed : Typed) (s : Kernel) (event : Event) (_ : Kernel) : Typed :=
  match event with
  | .keyboard scancode => typed.press s.currentId (pressAction s.keyboard scancode)
  | _ => typed

/-- Where the end of a line moves the two positions. -/
theorem nextLine_positions (s : Kernel) :
    (nextLine s).positions =
      if s.keyboard.vdY ≤ 24 then { s.positions with vdX := 0, vdY := s.keyboard.vdY + 1 }
      else { s.positions with screenX := 0, screenY := 24, vdX := 0, vdY := 24 } := by
  unfold nextLine
  -- Only below the last row are both positions set, whether the page was scrolled before or not.
  by_cases above : s.keyboard.vdY ≤ 24
  · have higher : s.keyboard.vdY ≤ screenWidth + 1 := above
    rw [if_pos higher, if_pos above]
    rfl
  · have lower : ¬ s.keyboard.vdY ≤ screenWidth + 1 := above
    have scrolled : (if s.keyboard.enterFlag then s else clearRow (resetVideo s)).positions =
        s.positions := by
      split
      · rfl
      · rfl
    rw [if_neg lower, if_neg above]
    exact congrArg (fun p : Positions => { p with screenX := 0, screenY := 24, vdX := 0, vdY := 24 })
      scrolled

namespace Aligned

variable {p : Positions} {count : Nat}

/-- After Enter nothing is counted, and only the first column of the screen's first row is ruled out. -/
theorem entered (aligned : Aligned p count) (first : p.screenX = 79 → 1 ≤ p.screenY) :
    Aligned (if p.vdY ≤ 24 then { p with vdX := 0, vdY := p.vdY + 1 }
      else { p with screenX := 0, screenY := 24, vdX := 0, vdY := 24 }) 0 := by
  obtain ⟨column, row, placed, reach⟩ := aligned
  -- Above the bottom only the editor moves; below it both positions are set to the last row.
  split
  · exact of_numbers column row (.inr (.inr ⟨rfl, rfl, first⟩)) (by omega)
  · exact of_numbers (by omega) (by omega) (.inl ⟨rfl, rfl⟩) (by omega)

end Aligned

namespace Editing

variable {s : Kernel}

/-- Enter begins an empty line, in step with the screen. -/
theorem enter (editing : Editing s) : Editing (enterKey s) ∧ (enterKey s).line = [] := by
  have lines := lines_enterKey s
  have count : (enterKey s).keyboard.count = 0 := congrArg LineBuffers.count lines
  have index : (enterKey s).keyboard.bufIndex = 0 := congrArg LineBuffers.bufIndex lines
  have moved : (enterKey s).positions = _ := nextLine_positions (clearbuffuer
    (copyToTeminal (prout s 0x0A) (prout s 0x0A).keyboard.keyboardbuf
      (prout s 0x0A).keyboard.bufIndex))
  have copied : (clearbuffuer (copyToTeminal (prout s 0x0A) (prout s 0x0A).keyboard.keyboardbuf
      (prout s 0x0A).keyboard.bufIndex)).positions = (prout s 0x0A).positions :=
    positions_setTerminal (prout s 0x0A) _ fun _ => ⟨by rfl, by rfl⟩
  have row : (clearbuffuer (copyToTeminal (prout s 0x0A) (prout s 0x0A).keyboard.keyboardbuf
      (prout s 0x0A).keyboard.bufIndex)).keyboard.vdY = (prout s 0x0A).positions.vdY := rfl
  rw [copied, row] at moved
  obtain ⟨printed, -, -⟩ := editing.char 0x0A
  -- A newline leaves the last column, and a full line has filled more than one row.
  have first : (prout s 0x0A).positions.screenX = 79 → 1 ≤ (prout s 0x0A).positions.screenY := by
    by_cases full : s.keyboard.count = bufsize
    · have same : (prout s 0x0A).positions = s.positions := by
        rw [prout_full full]
        rfl
      obtain ⟨column, onScreen, placed, reach⟩ := editing.aligned
      rw [same]
      simp only [bufsize] at full
      change (s.keyboard.count : Int) ≤ 80 * s.positions.vdY + s.positions.vdX at reach
      omega
    · rw [prout_positions full editing.aligned.column editing.aligned.row]
      have newline : (printPosition s.positions.screenX s.positions.screenY 0x0A).1 = 0 := rfl
      intro last
      unfold Positions.typed at last
      simp only at last
      split at last
      · simp only at last
        omega
      · simp only [Positions.publish, newline] at last
        omega
  refine ⟨⟨count.trans index.symm, ?_, ?_⟩, ?_⟩
  · rw [index]
    exact Nat.zero_le _
  · rw [moved, count]
    exact printed.aligned.entered first
  · rw [Kernel.line, index]
    rfl

/-- Every key but a switch edits the line as a line is edited. -/
theorem act (editing : Editing s) {action : KeyAction} (typed : action.OnLine) :
    Editing (performKey s action) ∧ (performKey s action).line = edit s.line action := by
  -- Enter is the one key on the line that the line editor's lemmas leave out.
  by_cases enters : action = .enter
  · subst enters
    exact editing.enter
  · obtain ⟨next, line, -⟩ := editing.perform ⟨enters, typed⟩
    exact ⟨next, line⟩

/-- So does a whole sequence of them. -/
theorem acts (editing : Editing s) {actions : List KeyAction}
    (typed : ∀ action ∈ actions, action.OnLine) :
    (actions.foldl performKey s).line = edits s.line actions := by
  -- The induction follows the keys, and carries the editor's invariant.
  induction actions generalizing s with
  | nil => rfl
  | cons action actions ih =>
    obtain ⟨first, rest⟩ := List.forall_mem_cons.mp typed
    obtain ⟨next, line⟩ := editing.act first
    rw [List.foldl_cons, ih next rest, line]
    rfl

end Editing

/-- Every terminal's line is what the keys typed on it make of the empty one. -/
structure OwnLines (s : Kernel) (typed : Typed) : Prop where
  lines : ∀ t, s.lines.unfinished t = edits [] (typed t)
  onLine : ∀ t, ∀ action ∈ typed t, action.OnLine
  closed : s.lines.ClosedEmpty

namespace OwnLines

variable {s next : Kernel} {typed : Typed}

/-- No line is longer than its buffer. -/
theorem bounded (own : OwnLines s typed) : s.lines.bufIndex ≤ bufsize := by
  -- The line was made by keys from the empty one, and these never exceed the buffer.
  have short : (edits [] (typed s.currentId)).length ≤ bufsize :=
    edits_length (show ([] : List Byte).length ≤ bufsize from Nat.zero_le _) _
  rw [← own.lines s.currentId] at short
  have front := LineBuffers.unfinished_front (b := s.lines)
  rw [show s.lines.unfinished s.currentId = _ from front, bytesOf_length] at short
  exact short

/-- A step that changes no unfinished line, and opens no terminal, keeps what is typed. -/
theorem keep (own : OwnLines s typed) (same : ∀ t, next.lines.unfinished t = s.lines.unfinished t)
    (closed : next.lines.ClosedEmpty) : OwnLines next typed :=
  ⟨fun t => (same t).trans (own.lines t), own.onLine, closed⟩

/-- A key that is typed edits the displayed terminal's line. -/
theorem type (own : OwnLines s typed) {action : KeyAction} (onLine : action.OnLine)
    (edited : s.lines.EditedBy action next.lines) (closed : next.lines.ClosedEmpty) :
    OwnLines next (typed.type s.currentId action) := by
  -- The line of the displayed terminal and the keys noted for it grow together.
  refine ⟨fun t => ?_, fun t => ?_, closed⟩
  · rw [edited t, own.lines t]
    by_cases here : t = s.currentId
    · have front : t = s.lines.displayed := here
      subst here
      rw [if_pos front, Typed.type_same, edits_append]
    · have away : ¬ t = s.lines.displayed := here
      rw [if_neg away, Typed.type_other here]
  · by_cases here : t = s.currentId
    · subst here
      rw [Typed.type_same]
      exact List.forall_mem_append.mpr ⟨own.onLine _, by simpa using onLine⟩
    · rw [Typed.type_other here]
      exact own.onLine t

/-- The keyboard interrupt edits the line of the terminal that is displayed. -/
theorem key (own : OwnLines s typed) {scancode : Byte}
    (edits : KeyEditsLine s (pressAction s.keyboard scancode)) :
    OwnLines (printKeyboard s scancode)
      (typedKeys typed s (.keyboard scancode) (printKeyboard s scancode)) := by
  have lines := lines_printKeyboard s scancode
  have edited := LineBuffers.editedBy_key own.bounded own.closed edits.lines
  have closed := own.closed.key (erases s) (pressAction s.keyboard scancode)
  rw [← lines] at edited closed
  change OwnLines _ (typed.press s.currentId (pressAction s.keyboard scancode))
  generalize pressAction s.keyboard scancode = action at *
  -- Only a switch is not typed on the terminal, and it edits no line.
  cases action with
  | display t =>
    refine own.keep (fun u => ?_) closed
    rw [edited u]
    exact ite_self _
  | char c => exact own.type (fun _ => KeyAction.noConfusion) edited closed
  | backspace => exact own.type (fun _ => KeyAction.noConfusion) edited closed
  | enter => exact own.type (fun _ => KeyAction.noConfusion) edited closed
  | clear => exact own.type (fun _ => KeyAction.noConfusion) edited closed
  | nothing => exact own.type (fun _ => KeyAction.noConfusion) edited closed

/-- Every step keeps the lines apart. -/
theorem step {env : Env} {event : Event} (own : OwnLines s typed) (edits : EditsLines s event)
    (taken : step env s event = some next) : OwnLines next (typedKeys typed s event next) := by
  -- Of the three kinds of step, only a key is noted by the observer.
  cases line_cases taken with
  | key scancode => exact own.key edits
  | taken takes ready here frames after =>
    have lines : next.lines = s.lines.take := by
      rw [after]
      exact lines_takeLine s
    have untyped : typedKeys typed s event next = typed := by
      cases event with
      | call => rfl
      | keyboard | pit | rtc => exact takes.elim
    rw [untyped]
    refine own.keep (fun t => ?_) ?_
    · rw [lines, LineBuffers.unfinished_take]
    · rw [lines]
      exact own.closed.take
  | other spares silent kept =>
    have untyped : typedKeys typed s event next = typed := by
      cases event with
      | keyboard scancode => exact absurd rfl (silent scancode)
      | call | pit | rtc => rfl
    rw [untyped]
    exact own.keep (fun t => by rw [kept]) (kept ▸ own.closed)

/-- At boot every line is empty, and only the first terminal is open. -/
theorem booted {env : Env} {start : Kernel} (booted : boot env = some start) :
    OwnLines start fun _ => [] := by
  -- The start of the first shell touches no line.
  obtain ⟨_, ⟨entered⟩⟩ := boot_entered booted
  have lines : start.lines = (initialKernel env).lines := entered.lines
  refine ⟨fun t => ?_, fun _ _ none => (List.not_mem_nil none).elim, ?_⟩
  · rw [lines]
    unfold LineBuffers.unfinished
    split
    · rfl
    · rfl
  · rw [lines]
    exact fun t zero _ => ⟨zero, rfl⟩

end OwnLines

/-- On every terminal the machine starts as the line editor does. -/
theorem booted_editing {env : Env} {start : Kernel} (booted : boot env = some start)
    (t : Terminal) : Editing (start.display t) := by
  obtain ⟨_, ⟨entered⟩⟩ := boot_entered booted
  have lines : start.lines = (initialKernel env).lines := entered.lines
  -- Nothing is typed or printed before the first shell runs, and displaying a terminal is no key.
  have count : start.keyboard.count = 0 := congrArg LineBuffers.count lines
  have index : start.keyboard.bufIndex = 0 := congrArg LineBuffers.bufIndex lines
  have positions : start.positions = (initialKernel env).positions := entered.positions
  have aligned : Aligned start.positions start.keyboard.count := by
    rw [positions, count]
    change Aligned ⟨0, 0, 0, 0, fun _ => (0, 0)⟩ 0
    exact Aligned.of_numbers (by omega) (by omega) (.inl ⟨rfl, rfl⟩) (Int.le_refl 0)
  exact ⟨count.trans index.symm, index.trans_le (Nat.zero_le _), aligned⟩

/--
The terminals' unfinished lines do not interfere.

In every run whose typed characters and Backspaces meet the condition, the unfinished line of each
terminal is the one the machine would hold had only the keys typed on that terminal occurred. This
holds after one key more, too, so the same characters are accepted and the same ones are erased.
-/
theorem lines_apart {env : Env} {start last : Kernel} {labels : List Event} {typed : Typed}
    (booted : boot env = some start)
    (run : Run (observed (step env) typedKeys) (fun state event => EditsLines state.1 event)
      (start, fun _ => []) labels (last, typed)) (t : Terminal) :
    last.unfinished t = ((typed t).foldl performKey (start.display t)).line := by
  -- In the run all lines are edited lists, and so is the line of the machine that runs alone.
  have own : OwnLines last typed :=
    run.observed_invariant OwnLines (OwnLines.booted booted) fun _ _ _ _ own edits taken =>
      own.step edits taken
  have editing := booted_editing booted t
  have empty : (start.display t).line = [] := by
    have none := (OwnLines.booted booted).lines start.currentId
    exact (LineBuffers.unfinished_front (b := start.lines)).symm.trans none
  rw [editing.acts (own.onLine t), empty]
  exact own.lines t

instance (s : Kernel) : (event : Event) → Decidable (EditsLines s event)
  | .keyboard scancode =>
    inferInstanceAs (Decidable (KeyEditsLine s (pressAction s.keyboard scancode)))
  | .pit _ _ | .rtc | .call _ _ => inferInstanceAs (Decidable True)

/-- A line on the first terminal, then a second shell, a tick, Enter and a line there, and a switch back. -/
def sharedRun : List Event :=
  -- The second letter of the first line is erased again.
  [.keyboard 0x1E, .keyboard 0x30, .keyboard 0x0E] ++ startSecond ++
    [.keyboard 0x30, .keyboard 0x1C, .keyboard 0x1E, .keyboard 0x2E, .keyboard 0x0E, .keyboard 0x3B]

/-- Both terminals have one letter left, as each of them has when its keys are typed alone. -/
theorem lines_apart_sample : ∃ last typed,
    Run (observed (step sampleEnv) typedKeys) (fun state event => EditsLines state.1 event)
      (sampleBooted, fun _ => []) sharedRun (last, typed) ∧
    last.currentId = 0 ∧ last.unfinished 0 = [0x61] ∧ last.unfinished 1 = [0x61] ∧
    ((typed 0).foldl performKey (sampleBooted.display 0)).line = [0x61] ∧
    ((typed 1).foldl performKey (sampleBooted.display 1)).line = [0x61] := by
  -- The run is executed, with the condition decided before each key.
  have given : (replay (observed (step sampleEnv) typedKeys)
      (fun state event => EditsLines state.1 event) (sampleBooted, fun _ => []) sharedRun).map
        (fun state => (state.1.currentId, state.1.unfinished 0, state.1.unfinished 1)) =
      some (0, [0x61], [0x61]) := by decide +kernel
  obtain ⟨⟨last, typed⟩, reaches, same⟩ := Option.map_eq_some_iff.mp given
  simp only [Prod.mk.injEq] at same
  obtain ⟨shown, first, second⟩ := same
  have run := replay_run reaches
  exact ⟨last, typed, run, shown, first, second, (lines_apart sample_boot run 0).symm.trans first,
    (lines_apart sample_boot run 1).symm.trans second⟩

/-- The second terminal is opened; then `a` is typed on the first, Enter on the second, and Backspace on the first. -/
def leakingKeys : List Byte :=
  [0x38, 0x3C, 0x3B, 0x1E, 0x3C, 0x1C, 0x3B, 0x0E]

/-- Enter on another terminal makes Backspace leave a character that it erases when typed alone. -/
theorem lines_interfere : ∃ last typed,
    Run (observed (step sampleEnv) typedKeys) Always (sampleBooted, fun _ => [])
        (leakingKeys.map .keyboard) (last, typed) ∧
      last.unfinished 0 = [0x61] ∧
      ((typed 0).foldl performKey (sampleBooted.display 0)).line = [] := by
  have given : (replay (observed (step sampleEnv) typedKeys) Always (sampleBooted, fun _ => [])
      (leakingKeys.map .keyboard)).map (fun state => (state.1.unfinished 0,
        ((state.2 0).foldl performKey (sampleBooted.display 0)).line)) =
      some ([0x61], []) := by decide +kernel
  obtain ⟨⟨last, typed⟩, reaches, same⟩ := Option.map_eq_some_iff.mp given
  obtain ⟨kept, alone⟩ := Prod.ext_iff.mp same
  exact ⟨last, typed, replay_run reaches, kept, alone⟩

end SmallOs
