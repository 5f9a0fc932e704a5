import SmallOs.Proofs.Terminal.LineEditing

/-! Completed lines on their way to a reader: none is lost, repeated, mixed, or given to another terminal. -/

namespace SmallOs

open Foundation

namespace LineBuffers

variable {b : LineBuffers}

/-- Only what is handed over, put away or taken out changes what waits in a mailbox. -/
theorem pending_of_boxes {next : LineBuffers} {t : Terminal}
    (flag : (next.mailboxes t).readFlag = (b.mailboxes t).readFlag)
    (kept : (b.mailboxes t).readFlag = true → (next.mailboxes t).text = (b.mailboxes t).text) :
    (next.mailboxes t).pending = (b.mailboxes t).pending := by
  unfold Mailbox.pending
  rw [flag]
  -- What a mailbox holds matters only while its flag is set.
  by_cases full : (b.mailboxes t).readFlag = true
  · rw [if_pos full, if_pos full, kept full]
  · rw [if_neg full, if_neg full]

/-- A switch keeps every waiting line, unless one waits on the terminal that is left. -/
theorem pending_display {t : Terminal} (free : t = b.displayed ∨ b.front.readFlag = false)
    (u : Terminal) : ((b.display t).mailboxes u).pending = (b.mailboxes u).pending := by
  unfold display
  by_cases here : b.displayed = t
  · rw [if_pos here]
  have unread : b.front.readFlag = false := free.resolve_left fun same => here same.symm
  -- What is put away covers no line that waits.
  have left : (b.leave.mailboxes u).pending = (b.mailboxes u).pending := by
    by_cases front : u = b.displayed
    · subst front
      have flag : (b.leave.mailboxes b.displayed).readFlag = b.front.readFlag := by rw [leave_front]
      refine pending_of_boxes flag fun waits => ?_
      exact absurd (unread.symm.trans waits) (by decide)
    · rw [leave_other front]
  rw [if_neg here]
  split
  · exact left
  · rw [← left]
    by_cases front : u = t
    · subst front
      have opened : (b.leave.start u).mailboxes u =
          { b.leave.mailboxes u with isOpen := true } := Function.update_self _ _ _
      rw [opened]
      rfl
    · have kept : (b.leave.start t).mailboxes u = b.leave.mailboxes u :=
        Function.update_of_ne front _ _
      rw [kept]

/-- Every key but Enter keeps every waiting line. -/
theorem pending_key {action : KeyAction} (erases : Bool) (edits : action ≠ .enter)
    (free : ∀ t, action = .display t → t = b.displayed ∨ b.front.readFlag = false) (u : Terminal) :
    ((b.key erases action).mailboxes u).pending = (b.mailboxes u).pending := by
  -- Typing, erasing and clearing change the editor only, and a switch has its own lemma.
  cases action with
  | char c => exact congrArg (fun boxes => (boxes u).pending) (type_mailboxes (b := b) c).1
  | backspace =>
    have boxes : (if erases then b.erase else b).mailboxes = b.mailboxes := by
      unfold erase
      split
      · split
        · rfl
        · rfl
      · rfl
    exact congrArg (fun boxes => (boxes u).pending) boxes
  | display t => exact pending_display (free t rfl) u
  | enter => exact absurd rfl edits
  | clear | nothing => rfl

/-- What Enter needs to hand over a line that can be told from what follows it. -/
structure CanHandOver (b : LineBuffers) : Prop where
  /-- No completed line waits. -/
  unread : b.front.readFlag = false
  /-- The newline is stored. -/
  counted : b.count ≠ bufsize
  room : b.bufIndex < bufsize
  /-- A NUL follows it. -/
  ends : ({ b.front with bufIndex := b.front.bufIndex + (b.bufIndex + 1) } : Mailbox).bytes
    (b.bufIndex + 1) = 0

/-- The text before the first NUL, where its length is known. -/
theorem text_eq {box : Mailbox} {length : Nat} (short : length ≤ bufsize)
    (ends : box.bytes length = 0) (before : ∀ i < length, box.bytes i ≠ 0) :
    box.text = bytesOf box.bytes length := by
  -- The scan of the reader stops at the first NUL, wherever that is.
  have size : strlen box.bytes (bufsize + 5) = length :=
    strlenFrom_eq (bufsize + 5) (Nat.zero_le _) (by omega) ends fun k _ below => before k below
  rw [Mailbox.text, size]

/-- Enter hands the line over with its newline. -/
theorem text_enter (can : b.CanHandOver) (solid : 0 ∉ bytesOf b.keyboardbuf b.bufIndex) :
    (b.enter.mailboxes b.displayed).text = bytesOf b.keyboardbuf b.bufIndex ++ [0x0A] := by
  have room := can.room
  have inside : b.bufIndex ≤ bufsize - 1 := by omega
  -- The newline is stored behind the line, and the index counts it.
  have index : (b.type 0x0A).bufIndex = b.bufIndex + 1 := by
    unfold type
    rw [if_neg can.counted]
  have stored : (b.type 0x0A).keyboardbuf = Function.update b.keyboardbuf b.bufIndex 0x0A := by
    unfold type
    rw [if_neg can.counted]
    exact if_pos inside
  have box := enter_front (b := b)
  rw [index, stored] at box
  -- Up to the newline the mailbox holds the line, and behind it what it held before.
  have line : ∀ i < b.bufIndex + 1, (b.enter.mailboxes b.displayed).bytes i =
      Function.update b.keyboardbuf b.bufIndex 0x0A i := by
    intro i below
    have within : i < bufsize := by omega
    rw [box, Mailbox.bytes, if_pos within]
    exact if_pos below
  have ends : (b.enter.mailboxes b.displayed).bytes (b.bufIndex + 1) = 0 := by
    have stops := can.ends
    rw [box]
    unfold Mailbox.bytes at stops ⊢
    simp only [Nat.lt_irrefl, if_false] at stops ⊢
    exact stops
  have before : ∀ i < b.bufIndex + 1, (b.enter.mailboxes b.displayed).bytes i ≠ 0 := by
    intro i below
    rw [line i below]
    by_cases last : i = b.bufIndex
    · rw [last, Function.update_self]
      decide
    · rw [Function.update_of_ne last]
      intro zero
      exact solid (zero ▸ List.mem_map.mpr ⟨i, List.mem_range.mpr (by omega), rfl⟩)
  rw [text_eq (by omega) ends before, bytesOf_congr line, bytesOf_store]

/-- Enter makes the completed line the one that waits, and keeps every other one. -/
theorem pending_enter (can : b.CanHandOver) (solid : 0 ∉ bytesOf b.keyboardbuf b.bufIndex)
    (t : Terminal) : (b.enter.mailboxes t).pending =
      if t = b.displayed then [b.unfinished t ++ [0x0A]] else (b.mailboxes t).pending := by
  by_cases here : t = b.displayed
  · subst here
    have flag : (b.enter.mailboxes b.displayed).readFlag = true := by rw [enter_front]
    rw [if_pos rfl, Mailbox.pending, if_pos flag, text_enter can solid, unfinished_front]
  · rw [if_neg here, enter_other here]

/-- Nothing waits where a line was taken. -/
theorem pending_take (t : Terminal) : (b.take.mailboxes t).pending =
    if t = b.displayed then [] else (b.mailboxes t).pending := by
  -- Taking lowers the flag of the displayed terminal, and of no other.
  by_cases here : t = b.displayed
  · subst here
    have taken : b.take.mailboxes b.displayed = _ := deliver_front _
    rw [if_pos rfl, taken]
    rfl
  · have kept : b.take.mailboxes t = b.mailboxes t := deliver_other _ here
    rw [if_neg here, kept]

end LineBuffers

/-- What makes a key neither spoil the line it edits nor one that waits. -/
def KeyDelivers (s : Kernel) : KeyAction → Prop
  | .enter =>
    -- The last line was taken, the newline is stored, and a NUL follows it in the record.
    s.displayed.readFlag = false ∧ s.keyboard.count ≠ bufsize ∧ s.keyboard.bufIndex < bufsize ∧
      recordBytes
        { s.displayed with bufIndex := s.displayed.bufIndex + (s.keyboard.bufIndex + 1) }
        (s.keyboard.bufIndex + 1) = 0
  | .display t => t = s.currentId ∨ s.displayed.readFlag = false
  | action => KeyEditsLine s action

instance (s : Kernel) : (action : KeyAction) → Decidable (KeyDelivers s action)
  | .enter =>
    inferInstanceAs (Decidable (s.displayed.readFlag = false ∧ s.keyboard.count ≠ bufsize ∧ _ ∧ _))
  | .display t => inferInstanceAs (Decidable (t = s.currentId ∨ s.displayed.readFlag = false))
  | .char c => inferInstanceAs (Decidable (KeyEditsLine s (.char c)))
  | .backspace => inferInstanceAs (Decidable (KeyEditsLine s .backspace))
  | .clear => inferInstanceAs (Decidable (KeyEditsLine s .clear))
  | .nothing => inferInstanceAs (Decidable (KeyEditsLine s .nothing))

/-- Under that condition a key edits the line as it should. -/
theorem KeyDelivers.edits {s : Kernel} {action : KeyAction} (delivers : KeyDelivers s action) :
    KeyEditsLine s action := by
  -- Enter and a switch edit the line under any condition.
  cases action with
  | char c => exact delivers
  | backspace => exact delivers
  | enter | clear | display | nothing => trivial

/-- What makes a step spoil no line on its way. -/
def Delivers (r : Reading) : ReaderEvent → Prop
  | .event (.keyboard scancode) => KeyDelivers r.kernel (pressAction r.kernel.keyboard scancode)
  -- What ended the waiting loop still holds.
  | .take => r.kernel.currTerminal = r.kernel.currentId ∧ r.kernel.displayed.readFlag = true
  | _ => True

instance (r : Reading) : (event : ReaderEvent) → Decidable (Delivers r event)
  | .event (.keyboard scancode) =>
    inferInstanceAs (Decidable (KeyDelivers r.kernel (pressAction r.kernel.keyboard scancode)))
  | .take =>
    inferInstanceAs (Decidable (r.kernel.currTerminal = r.kernel.currentId ∧
      r.kernel.displayed.readFlag = true))
  | .event (.pit _ _) | .event .rtc | .event (.call _ _) | .enter | .loadFlag | .compare =>
    inferInstanceAs (Decidable True)

/-- An observer who follows every line from its first key to its reader. -/
def watchLines (log : LineLog) (r : Reading) (event : ReaderEvent) (_ : Reading) : LineLog :=
  match event with
  -- A line belongs to the terminal that is displayed when its key is pressed.
  | .event (.keyboard scancode) =>
    log.press r.kernel.currentId (pressAction r.kernel.keyboard scancode)
  -- A reader belongs to the terminal whose process runs.
  | .take => log.deliver r.kernel.currTerminal (takeLine r.kernel).bytes
  | _ => log

/-- The completed line that waits for a reader on a terminal, if there is one. -/
def Kernel.pending (s : Kernel) (t : Terminal) : List (List Byte) :=
  (s.lines.mailboxes t).pending

/-- Every completed line was delivered on its terminal, or waits there. -/
structure Delivering (s : Kernel) (log : LineLog) : Prop where
  drafts : ∀ t, s.lines.unfinished t = log.drafts t
  short : ∀ t, (log.drafts t).length ≤ bufsize
  solid : ∀ t, 0 ∉ log.drafts t
  closed : s.lines.ClosedEmpty
  conserved : ∀ t, log.completed t = log.delivered t ++ s.pending t
  sized : ∀ t, ∀ line ∈ log.completed t, line.length ≤ bufsize

namespace Delivering

variable {s next : Kernel} {log : LineLog}

/-- A step that changes no line keeps all of this. -/
theorem keep (delivering : Delivering s log) (same : next.lines = s.lines) :
    Delivering next log := by
  obtain ⟨drafts, short, solid, closed, conserved, sized⟩ := delivering
  -- The observer notes nothing either, so every part is about the same lines.
  refine ⟨fun t => ?_, short, solid, same ▸ closed, fun t => ?_, sized⟩
  · rw [same]
    exact drafts t
  · unfold Kernel.pending
    rw [same]
    exact conserved t

/-- The line in the editor is the displayed terminal's draft. -/
theorem front (delivering : Delivering s log) :
    bytesOf s.lines.keyboardbuf s.lines.bufIndex = log.drafts s.currentId :=
  (LineBuffers.unfinished_front (b := s.lines)).symm.trans (delivering.drafts s.currentId)

/-- Only Enter moves a line from the drafts to the mailboxes, and no line is lost on the way. -/
theorem key_conserved (delivering : Delivering s log) {scancode : Byte}
    (delivers : KeyDelivers s (pressAction s.keyboard scancode)) (t : Terminal) :
    (log.press s.currentId (pressAction s.keyboard scancode)).completed t =
      log.delivered t ++ (printKeyboard s scancode).pending t := by
  have lines := lines_printKeyboard s scancode
  generalize pressAction s.keyboard scancode = action at *
  by_cases enters : action = .enter
  · subst enters
    obtain ⟨unread, counted, room, ends⟩ := delivers
    have can : s.lines.CanHandOver := ⟨unread, counted, room, ends⟩
    have waits := LineBuffers.pending_enter can (delivering.front ▸ delivering.solid s.currentId) t
    rw [← show s.lines.key (erases s) .enter = s.lines.enter from rfl, ← lines] at waits
    rw [log.completed_press, Kernel.pending, waits]
    by_cases here : t = s.currentId
    · -- Nothing waited, so all that was completed before was delivered.
      have none : s.pending s.currentId = [] := by
        unfold Kernel.pending Mailbox.pending
        exact if_neg (Bool.eq_false_iff.mp unread)
      have shown : t = s.lines.displayed := here
      subst here
      rw [if_pos ⟨rfl, rfl⟩, if_pos shown, delivering.drafts, delivering.conserved, none,
        List.append_nil]
    · have away : ¬ t = s.lines.displayed := here
      rw [if_neg fun both => here both.2, if_neg away]
      exact delivering.conserved t
  · have free : ∀ u, action = .display u →
        u = s.lines.displayed ∨ s.lines.front.readFlag = false := by
      rintro u rfl
      exact delivers
    have waits : (printKeyboard s scancode).pending t = s.pending t := by
      unfold Kernel.pending
      rw [lines]
      exact LineBuffers.pending_key (erases s) enters free t
    rw [log.completed_press, if_neg fun both => enters both.1, waits]
    exact delivering.conserved t

/-- A key that meets its condition loses no line. -/
theorem key (delivering : Delivering s log) {scancode : Byte}
    (delivers : KeyDelivers s (pressAction s.keyboard scancode)) :
    Delivering (printKeyboard s scancode)
      (log.press s.currentId (pressAction s.keyboard scancode)) := by
  have front := delivering.front
  have conserved := delivering.key_conserved delivers
  obtain ⟨drafts, short, solid, closed, -, sized⟩ := delivering
  have lines := lines_printKeyboard s scancode
  have nonzero : pressAction s.keyboard scancode ≠ .char 0 := fun zero =>
    pressAction_ne_zero zero rfl
  generalize pressAction s.keyboard scancode = action at *
  -- The index counts the characters drafted on the displayed terminal, so it is in range.
  have index : s.lines.bufIndex = (log.drafts s.currentId).length := by
    rw [← front, bytesOf_length]
  have bounded : s.lines.bufIndex ≤ bufsize := by
    rw [index]
    exact short s.currentId
  have edited := LineBuffers.editedBy_key bounded closed delivers.edits.lines
  -- The key edits the draft of the displayed terminal and no other.
  have draft : ∀ t, (log.press s.currentId action).drafts t =
      if t = s.currentId then edit (log.drafts t) action else log.drafts t := by
    intro t
    by_cases here : t = s.currentId
    · subst here
      rw [if_pos rfl]
      exact Function.update_self _ _ _
    · rw [if_neg here]
      exact Function.update_of_ne here _ _
  refine ⟨fun t => ?_, fun t => ?_, fun t => ?_, ?_, conserved, fun t => ?_⟩
  · -- The line of every terminal is still its draft.
    rw [lines, edited t, draft t, drafts t]
    rfl
  · -- An edit leaves the draft short enough for the buffer.
    rw [draft t]
    split
    · exact edit_length (short t) action
    · exact short t
  · -- No key is a NUL, so none is typed into a draft.
    rw [draft t]
    split
    · exact edit_solid (solid t) nonzero
    · exact solid t
  · -- What stands behind a line stays closed.
    rw [lines]
    exact closed.key (erases s) action
  · -- Enter completes a line only where there was room for its newline.
    rw [log.completed_press]
    split
    · rename_i enters
      obtain ⟨rfl, rfl⟩ := enters
      obtain ⟨-, -, room, -⟩ := delivers
      have fits : (log.drafts s.currentId ++ [0x0A]).length ≤ bufsize := by
        have below : s.lines.bufIndex < bufsize := room
        rw [List.length_append, List.length_singleton]
        omega
      exact List.forall_mem_append.mpr ⟨sized s.currentId, by simpa using fits⟩
    · exact sized t

/-- A reader who finds what ended its waiting loop takes the line of its own terminal. -/
theorem take (delivering : Delivering s log) (here : s.currTerminal = s.currentId)
    (ready : s.displayed.readFlag = true) :
    Delivering (takeLine s).kernel (log.deliver s.currTerminal (takeLine s).bytes) := by
  obtain ⟨drafts, short, solid, closed, conserved, sized⟩ := delivering
  -- Nothing but the mailbox of the displayed terminal changes.
  have lines := lines_takeLine s
  refine ⟨fun t => ?_, short, solid, ?_, fun t => ?_, sized⟩
  · rw [lines, LineBuffers.unfinished_take]
    exact drafts t
  · rw [lines]
    exact closed.take
  · have left : (takeLine s).kernel.pending t = if t = s.currentId then [] else s.pending t := by
      unfold Kernel.pending
      rw [lines]
      exact LineBuffers.pending_take t
    rw [left, here]
    by_cases front : t = s.currentId
    · subst front
      -- The bytes that are taken are the ones that waited.
      have waited : s.pending s.currentId = [(takeLine s).bytes] := if_pos ready
      have given : (log.deliver s.currentId (takeLine s).bytes).delivered s.currentId =
          log.delivered s.currentId ++ [(takeLine s).bytes] := Function.update_self _ _ _
      rw [if_pos rfl, given, List.append_nil, ← waited]
      exact conserved s.currentId
    · have given : (log.deliver s.currentId (takeLine s).bytes).delivered t = log.delivered t :=
        Function.update_of_ne front _ _
      rw [if_neg front, given]
      exact conserved t

/-- Every step that meets its condition keeps every line. -/
theorem step {env : Env} {r after : Reading} {event : ReaderEvent}
    (delivering : Delivering r.kernel log) (delivers : Delivers r event)
    (taken : readerStep env r event = some after) :
    Delivering after.kernel (watchLines log r event after) := by
  cases event with
  | event event =>
    simp only [readerStep] at taken
    split at taken
    · cases taken
    · rename_i spares
      obtain ⟨next, moved, rfl⟩ := Option.map_eq_some_iff.mp taken
      cases line_cases moved with
      | key scancode => exact delivering.key delivers
      | taken takes => exact absurd takes spares
      | other spares silent kept =>
        have unseen : watchLines log r (.event event) ⟨next, r.phases⟩ = log := by
          cases event with
          | keyboard scancode => exact absurd rfl (silent scancode)
          | call | pit | rtc => rfl
        rw [unseen]
        exact delivering.keep kept
  | enter | loadFlag | compare =>
    -- The driver only looks.
    simp only [readerStep] at taken
    split at taken
    · cases taken
      exact delivering
    · cases taken
  | take =>
    simp only [readerStep] at taken
    split at taken
    · cases taken
      exact delivering.take delivers.1 delivers.2
    · cases taken

/-- At boot no line is typed, and none waits. -/
theorem booted {env : Env} {start : Kernel} (booted : boot env = some start) :
    Delivering start .empty := by
  obtain ⟨_, ⟨entered⟩⟩ := boot_entered booted
  have lines : start.lines = (initialKernel env).lines := entered.lines
  -- Before the first key the drafts are those of the line editor, and no flag is set.
  have own := OwnLines.booted booted
  refine ⟨own.lines, fun _ => Nat.zero_le _, fun _ => List.not_mem_nil, own.closed, fun t => ?_,
    fun _ _ none => (List.not_mem_nil none).elim⟩
  rw [Kernel.pending, lines]
  rfl

end Delivering

/--
Every line is delivered once, whole, in order and on its own terminal.

In every run whose keys and takings meet the condition, what readers on a terminal were given is what
was completed on it, in order, apart from the line that still waits there. Each line is the edited
characters followed by a newline, and fits the buffer.
-/
theorem lines_delivered {env : Env} {start : Kernel} {labels : List ReaderEvent} {last : Reading}
    {log : LineLog} (booted : boot env = some start)
    (run : Run (observed (readerStep env) watchLines)
      (fun state event => Delivers state.1 event)
      (⟨start, fun _ => .outside⟩, LineLog.empty) labels (last, log)) (t : Terminal) :
    log.completed t = log.delivered t ++ last.kernel.pending t ∧
      ∀ line ∈ log.completed t, line.length ≤ bufsize := by
  -- The invariant is kept by every step that meets its condition.
  have delivering : Delivering last.kernel log :=
    run.observed_invariant (fun r log => Delivering r.kernel log) (Delivering.booted booted)
      fun _ _ _ _ delivering delivers taken => delivering.step delivers taken
  exact ⟨delivering.conserved t, delivering.sized t⟩

/-- The sample before anything is typed or read, with its observer. -/
def sampleReading : Reading × LineLog :=
  (⟨sampleBooted, fun _ => .outside⟩, .empty)

/-- A character and Enter. -/
def typeLine (scancode : Byte) : List ReaderEvent :=
  [.event (.keyboard scancode), .event (.keyboard 0x1C)]

/-- The driver, without an interrupt. -/
def readOnce : List ReaderEvent :=
  [.enter, .loadFlag, .compare, .take]

/-- A line of one character is delivered to the sample's first shell. -/
theorem lines_delivered_sample : ∃ last log,
    replay (observed (readerStep sampleEnv) watchLines) (fun state event => Delivers state.1 event)
        sampleReading (typeLine 0x1E ++ readOnce) = some (last, log) ∧
      log.delivered 0 = [[0x61, 0x0A]] ∧
      log.completed 0 = log.delivered 0 ++ last.kernel.pending 0 := by
  -- The run is computed once, for what the reader was given.
  have given : (replay (observed (readerStep sampleEnv) watchLines)
      (fun state event => Delivers state.1 event) sampleReading
      (typeLine 0x1E ++ readOnce)).map (fun state => state.2.delivered 0) =
        some [[0x61, 0x0A]] := by decide +kernel
  obtain ⟨⟨last, log⟩, reached, delivered⟩ := Option.map_eq_some_iff.mp given
  exact ⟨last, log, reached, delivered,
    (lines_delivered sample_boot (replay_run reached) 0).1⟩

/-- Two lines are completed before the first is read: the reader is given the second, and the first is lost. -/
theorem line_lost : ∃ last log,
    Run (observed (readerStep sampleEnv) watchLines) Always sampleReading
        (typeLine 0x1E ++ typeLine 0x30 ++ readOnce) (last, log) ∧
      log.completed 0 = [[0x61, 0x0A], [0x62, 0x0A]] ∧ log.delivered 0 = [[0x62, 0x0A]] ∧
      last.kernel.pending 0 = [] := by
  -- The second Enter finds the first line still in the mailbox.
  have given : (replay (observed (readerStep sampleEnv) watchLines) Always sampleReading
      (typeLine 0x1E ++ typeLine 0x30 ++ readOnce)).map (fun state =>
        (state.2.completed 0, state.2.delivered 0, state.1.kernel.pending 0)) =
      some ([[0x61, 0x0A], [0x62, 0x0A]], [[0x62, 0x0A]], []) := by decide +kernel
  obtain ⟨⟨last, log⟩, reached, lines⟩ := Option.map_eq_some_iff.mp given
  obtain ⟨completed, rest⟩ := Prod.mk.injEq _ _ _ _ ▸ lines
  obtain ⟨delivered, pending⟩ := Prod.mk.injEq _ _ _ _ ▸ rest
  exact ⟨last, log, replay_run reached, completed, delivered, pending⟩

end SmallOs
