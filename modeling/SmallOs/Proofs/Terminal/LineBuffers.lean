import SmallOs.Abstract.LineBuffers
import SmallOs.Kernel.Reader
import SmallOs.Proofs.Terminal.LineEditor
import SmallOs.Proofs.Terminal.Switching

/-! The line buffers of the kernel: which steps touch them, and how each of these is a step of the buffers alone. -/

namespace SmallOs

open Foundation

/-- The mailbox of a record. -/
def InitTerminal.mailbox (term : InitTerminal) : Mailbox :=
  ⟨term.isOpen, term.buf, term.bufIndex, term.readFlag⟩

/-- The line buffers of a kernel state. -/
def Kernel.lines (s : Kernel) : LineBuffers :=
  -- The static buffers of the switch are left out, since they hold a line only within one step.
  { displayed := s.currentId
    keyboardbuf := s.keyboard.keyboardbuf
    bufIndex := s.keyboard.bufIndex
    count := s.keyboard.count
    mailboxes := fun t => (s.terminals t).mailbox }

/-- Changing a record changes its mailbox, and no other line. -/
theorem lines_setTerminal_eq (s : Kernel) (t : Terminal) (change : InitTerminal → InitTerminal) :
    (s.setTerminal t change).lines =
      { s.lines with
        mailboxes := Function.update s.lines.mailboxes t (change (s.terminals t)).mailbox } := by
  -- The mailboxes are compared one by one, because the records are a function of the terminal.
  have mailboxes : (s.setTerminal t change).lines.mailboxes =
      Function.update s.lines.mailboxes t (change (s.terminals t)).mailbox := by
    funext u
    by_cases same : u = t
    · subst same
      simp [Kernel.lines, Kernel.setTerminal]
    · simp [Kernel.lines, Kernel.setTerminal, same]
  exact congrArg (fun mailboxes => { s.lines with mailboxes := mailboxes }) mailboxes

/-- Changing a record outside its mailbox changes no line. -/
theorem lines_setTerminal (s : Kernel) (t : Terminal) {change : InitTerminal → InitTerminal}
    (outside : ∀ term, (change term).mailbox = term.mailbox) :
    (s.setTerminal t change).lines = s.lines := by
  -- The changed record is put back with the mailbox it had.
  rw [lines_setTerminal_eq, outside]
  exact congrArg (fun mailboxes => { s.lines with mailboxes := mailboxes })
    (Function.update_eq_self t s.lines.mailboxes)

/-- A step of the devices that keeps the line in the editor changes no line. -/
theorem DeviceOnly.lines {s next : Kernel} (only : DeviceOnly s next) (same : SameLine s next) :
    next.lines = s.lines := by
  -- Neither the records nor the three variables of the editor differ.
  simp only [Kernel.lines, only.currentId, only.terminals, same.keyboardbuf, same.bufIndex,
    same.count]

section Output

variable (s : Kernel)

/-- Printing on the screen changes no line. -/
theorem lines_putc (c : Byte) : (putc s c).lines = s.lines :=
  (deviceOnly_putc s c).lines (sameLine_putc s c)

theorem lines_putText (text : List Byte) : (putText s text).lines = s.lines := by
  -- The induction follows the text, one character at a time.
  induction text generalizing s with
  | nil => rfl
  | cons c text ih => exact (ih (putc s c)).trans (lines_putc s c)

/-- Neither does printing on a backing page. -/
theorem lines_putm (c : Byte) : (putm s c).lines = s.lines := by
  -- Each branch changes the position in one record, and devices that hold no line.
  have moved : ∀ m : Kernel, ∀ x y : Nat,
      (m.setTerminal m.currTerminal fun term => { term with screenX := x, screenY := y }).lines =
        m.lines := fun m x y => lines_setTerminal m _ fun _ => by rfl
  unfold putm
  simp only
  split
  · split
    · exact moved (keyboardWrite s) 0 (numRows - 1)
    · exact lines_setTerminal s _ fun _ => by rfl
  · exact moved (s.setConsole _) _ _

theorem lines_terminalWrite (buf : List Byte) (nbytes : Int) :
    (terminalWrite s buf nbytes).2.lines = s.lines := by
  -- Foreground and background output are two folds over the same bytes.
  have background : ∀ text : List Byte, ∀ m : Kernel, (text.foldl putm m).lines = m.lines := by
    intro text
    induction text with
    | nil => exact fun _ => rfl
    | cons c text ih => exact fun m => (ih _).trans (lines_putm m c)
  unfold terminalWrite
  simp only
  split
  · exact lines_putText s _
  · exact background _ s

theorem lines_markFish (fileName : List Byte) : (markFish s fileName).lines = s.lines := by
  -- The name of one program draws a page and raises a flag, neither of which is a line.
  unfold markFish
  split
  · exact lines_setTerminal (s.setConsole _) _ fun _ => by rfl
  · rfl

/-- The timer interrupt changes no line. -/
theorem lines_pitHandler (esp ebp : Nat) : (pitHandler s esp ebp).lines = s.lines := by
  -- The interrupt refreshes a page, chooses a terminal and saves a context.
  have refreshed : ∀ m : Kernel, (refreshFish m).lines = m.lines := by
    intro m
    unfold refreshFish
    split
    · rfl
    · rfl
  have saved : ∀ m : Kernel, (saveContext m esp ebp).lines = m.lines := fun m =>
    lines_setTerminal m _ fun _ => by rfl
  exact (refreshed _).trans (saved { s with nextTerminal := pickTerminal s })

end Output

section Keys

variable {s : Kernel}

/-- The buffers and the counters decide, once the records are known to be the same. -/
theorem lines_mk {next : Kernel} (only : DeviceOnly s next) {keyboardbuf : Nat → Byte}
    {bufIndex count : Nat} (buf : next.keyboard.keyboardbuf = keyboardbuf)
    (index : next.keyboard.bufIndex = bufIndex) (counted : next.keyboard.count = count) :
    next.lines = { s.lines with keyboardbuf, bufIndex, count } := by
  -- A step of the devices keeps the mailboxes and the displayed terminal.
  simp only [Kernel.lines, only.currentId, only.terminals, buf, index, counted]

/-- Typing a character is typing it into the buffers. -/
theorem lines_prout (s : Kernel) (c : Byte) : (prout s c).lines = s.lines.type c := by
  unfold LineBuffers.type
  -- At its limit `prout` leaves the line alone, as typing into full buffers does.
  by_cases full : s.keyboard.count = bufsize
  · have stays : s.lines.count = bufsize := full
    rw [prout_full full, if_pos stays]
    rfl
  · have goes : ¬ s.lines.count = bufsize := full
    obtain ⟨buf, index, count, -⟩ := prout_stored full c
    rw [if_neg goes]
    exact lines_mk (deviceOnly_prout s c) buf index count

/-- Backspace erases in the buffers, or does nothing. -/
theorem lines_backspace (s : Kernel) :
    (backspace s).lines = if erases s then s.lines.erase else s.lines := by
  -- The first two tests of `backspace` are not about the buffers, so they are decided first.
  by_cases far : s.keyboard.count ≠ 0 ∧ ¬ (s.keyboard.vdX = 0 ∧ s.keyboard.vdY = 0)
  · have counted : 0 < s.keyboard.count := Nat.pos_of_ne_zero far.1
    obtain ⟨m, erased, same, -⟩ := backspace_eq counted far.2
    have only := deviceOnly_backspace s
    have reached : erases s = true := decide_eq_true far
    rw [if_pos reached]
    rw [erased] at only ⊢
    unfold LineBuffers.erase
    unfold dropTyped at only ⊢
    rw [same.count, same.bufIndex] at only ⊢
    -- `put_backspace` has moved the screen by now, and the buffer is tested a second time.
    by_cases some : s.keyboard.count > 0 ∧ s.keyboard.bufIndex > 0
    · have both : s.lines.count > 0 ∧ s.lines.bufIndex > 0 := some
      rw [if_pos some] at only ⊢
      rw [if_pos both]
      refine lines_mk only ?_ ?_ ?_
      · change Function.update m.keyboard.keyboardbuf (m.keyboard.bufIndex - 1) 0 = _
        rw [same.keyboardbuf, same.bufIndex]
        rfl
      · exact congrArg (· - 1) same.bufIndex
      · exact congrArg (· - 1) same.count
    · have either : ¬ (s.lines.count > 0 ∧ s.lines.bufIndex > 0) := some
      rw [if_neg some] at only ⊢
      rw [if_neg either]
      exact only.lines same
  · -- One of the first two tests returns.
    have stays : backspace s = s := by
      unfold backspace
      by_cases none : s.keyboard.count = 0
      · exact if_pos none
      · rw [if_neg none, if_pos]
        exact Classical.not_not.mp fun away => far ⟨none, away⟩
    rw [if_neg (by simpa [erases] using far), stays]

/-- Enter hands the line over. -/
theorem lines_enterKey (s : Kernel) : (enterKey s).lines = s.lines.enter := by
  -- The copy sees the line with its newline, and the buffer is cleared after it.
  have copied : (clearbuffuer (copyToTeminal (prout s 0x0A) (prout s 0x0A).keyboard.keyboardbuf
      (prout s 0x0A).keyboard.bufIndex)).lines =
      ((s.lines.type 0x0A).deliver { (s.lines.type 0x0A).front with
        readFlag := true
        buf := fun i => if i < (s.lines.type 0x0A).bufIndex then (s.lines.type 0x0A).keyboardbuf i
          else (s.lines.type 0x0A).front.buf i
        bufIndex := (s.lines.type 0x0A).front.bufIndex + (s.lines.type 0x0A).bufIndex }).wipe := by
    rw [← lines_prout]
    exact congrArg LineBuffers.wipe (lines_setTerminal_eq (prout s 0x0A) _ _)
  -- Going on to the next row resets the index and the counter in all three branches.
  have next : ∀ m : Kernel, (nextLine m).lines = { m.lines with bufIndex := 0, count := 0 } := by
    intro m
    have reset : (nextLine m).keyboard.keyboardbuf = m.keyboard.keyboardbuf ∧
        (nextLine m).keyboard.bufIndex = 0 ∧ (nextLine m).keyboard.count = 0 := by
      unfold nextLine
      split
      · exact ⟨rfl, rfl, rfl⟩
      · split
        · exact ⟨rfl, rfl, rfl⟩
        · exact ⟨rfl, rfl, rfl⟩
    exact lines_mk (deviceOnly_nextLine m) reset.1 reset.2.1 reset.2.2
  unfold enterKey LineBuffers.enter
  simp only
  rw [next, copied]

/-- Leaving a terminal puts its line away. -/
theorem lines_leave (s : Kernel) : (leave s).lines = s.lines.leave := by
  -- The record of the displayed terminal gets the line and its index.
  have box : ((leave s).terminals s.currentId).mailbox =
      { s.displayed.mailbox with
        buf := fun i =>
          if i < s.keyboard.bufIndex then s.keyboard.keyboardbuf i
          else if i < bufsize then 0 else s.displayed.buf i
        bufIndex := s.keyboard.bufIndex } := by
    have record : (leave s).terminals s.currentId = _ := Function.update_self _ _ _
    -- The line goes through the static buffer, of which only its own bytes are read.
    have through : ((leave s).terminals s.currentId).buf = fun i =>
        if i < s.keyboard.bufIndex then s.keyboard.keyboardbuf i
        else if i < bufsize then 0 else s.displayed.buf i := by
      funext i
      by_cases inside : i < s.keyboard.bufIndex
      · rw [leave_buf s inside, if_pos inside]
      · rw [record, if_neg inside]
        exact if_neg inside
    unfold InitTerminal.mailbox
    rw [through, record]
    rfl
  have mailboxes : (leave s).lines.mailboxes = s.lines.leave.mailboxes := by
    funext u
    by_cases here : u = s.currentId
    · subst here
      have saved : s.lines.leave.mailboxes s.currentId = _ := Function.update_self _ _ _
      rw [saved]
      exact box
    · have there : s.lines.leave.mailboxes u = s.lines.mailboxes u := Function.update_of_ne here _ _
      rw [there]
      exact congrArg InitTerminal.mailbox (leave_terminals s here)
  exact congrArg (fun mailboxes => { s.lines.wipe with bufIndex := 0, mailboxes := mailboxes })
    mailboxes

/-- Displaying a terminal again takes its line out. -/
theorem lines_restoreTerminal (s : Kernel) (t : Terminal) :
    (restoreTerminal s t).lines = s.lines.restore t := rfl

/-- Displaying a terminal for the first time opens its mailbox. -/
theorem lines_openTerminal (s : Kernel) (t : Terminal) :
    (openTerminal s t).lines = s.lines.start t := by
  -- Clearing the screen and the statics changes nothing but devices.
  have opened := lines_setTerminal_eq s t fun term => { term with isOpen := true }
  exact congrArg (fun b : LineBuffers => { b with displayed := t }) opened

/-- A function key displays a terminal. -/
theorem lines_displayKey (s : Kernel) (t : Terminal) :
    (displayKey s t).lines = s.lines.display t := by
  unfold LineBuffers.display
  -- The three routines agree in what they do to the lines, so they are compared last.
  by_cases here : s.currentId = t
  · -- The terminal that is displayed already only prints a text.
    have stays : s.lines.displayed = t := here
    have copied : (copyKeyboardBuf s s.keyboard.keyboardbuf s.keyboard.bufIndex).currentId = t :=
      here
    rw [if_pos stays]
    have printed : ∀ text, (putText (copyKeyboardBuf s s.keyboard.keyboardbuf
        s.keyboard.bufIndex) text).lines = s.lines := fun text => lines_putText _ text
    unfold displayKey
    match t with
    | 0 => exact (congrArg Kernel.lines (if_pos copied)).trans (printed (alreadyIn 0x31))
    | 1 => exact (congrArg Kernel.lines (if_pos copied)).trans (printed (alreadyIn 0x32))
    | 2 => exact (congrArg Kernel.lines (if_pos copied)).trans (printed (alreadyIn 0x33))
  · have moves : ¬ s.lines.displayed = t := here
    have differ : ¬ (copyKeyboardBuf s s.keyboard.keyboardbuf s.keyboard.bufIndex).currentId = t :=
      here
    have box : s.lines.mailboxes t = ((leave s).terminals t).mailbox :=
      congrArg InitTerminal.mailbox (leave_terminals s fun same => here same.symm).symm
    have restored : (restoreTerminal (leave s) t).lines = s.lines.leave.restore t := by
      rw [lines_restoreTerminal, lines_leave]
    have started : (openTerminal (leave s) t).lines = s.lines.leave.start t := by
      rw [lines_openTerminal, lines_leave]
    -- The routine of the first terminal restores without a test, and the other two test alike.
    have tested : ∀ digit, (switchToTerminal t digit
        (copyKeyboardBuf s s.keyboard.keyboardbuf s.keyboard.bufIndex)).lines =
          if (s.lines.mailboxes t).isOpen then s.lines.leave.restore t
          else s.lines.leave.start t := by
      intro digit
      by_cases opened : ((leave s).terminals t).isOpen = true
      · have yes : (s.lines.mailboxes t).isOpen = true := by
          rw [box]
          exact opened
        rw [if_pos yes, ← restored]
        exact congrArg Kernel.lines (switchToTerminal_open digit differ opened)
      · have no : ¬ (s.lines.mailboxes t).isOpen = true := by
          rw [box]
          exact opened
        rw [if_neg no, ← started]
        exact congrArg Kernel.lines ((if_neg differ).trans (if_neg opened))
    rw [if_neg moves]
    unfold displayKey
    match t with
    | 0 =>
      rw [if_pos (.inl rfl), ← restored]
      exact congrArg Kernel.lines (switchToTerminal1_other differ)
    | 1 =>
      simp only [show ¬ (1 : Terminal) = 0 by decide, false_or]
      exact tested 0x32
    | 2 =>
      simp only [show ¬ (2 : Terminal) = 0 by decide, false_or]
      exact tested 0x33

/-- What a key asks for is done to the line buffers. -/
theorem lines_performKey (s : Kernel) (action : KeyAction) :
    (performKey s action).lines = s.lines.key (erases s) action := by
  -- Every key has its own lemma, and this one only sorts them.
  cases action with
  | char c => exact lines_prout s c
  | backspace => exact lines_backspace s
  | enter => exact lines_enterKey s
  | clear =>
    have reset := keyboard_clearKey s
    refine lines_mk (deviceOnly_clearKey s) ?_ ?_ ?_
    · rw [reset]
      rfl
    · rw [reset]
    · rw [reset]
  | display t => exact lines_displayKey s t
  | nothing => rfl

/-- The keyboard interrupt does to the line buffers what its scan code asks for. -/
theorem lines_printKeyboard (s : Kernel) (c : Byte) :
    (printKeyboard s c).lines = s.lines.key (erases s) (pressAction s.keyboard c) := by
  -- The modifier flags come first, and hold no part of a line.
  obtain ⟨buf, index, count, vdX, vdY⟩ := flagsAfter_kept s.keyboard c
  have flagged : (s.setKeyboard fun kb => flagsAfter kb c).lines = s.lines :=
    lines_mk ((DeviceOnly.refl s).setKeyboard _) buf index count
  have same : erases (s.setKeyboard fun kb => flagsAfter kb c) = erases s := by
    simp only [erases, Kernel.setKeyboard, count, vdX, vdY]
  rw [printKeyboard_eq, lines_performKey, flagged, same]

/-- A reader takes the line out of the displayed terminal's mailbox. -/
theorem lines_takeLine (s : Kernel) : (takeLine s).kernel.lines = s.lines.take := by
  have cleared := lines_setTerminal_eq s s.currentId fun term =>
    { term with
      buf := fun i => if i < term.bufIndex ∧ i < bufsize then 0 else term.buf i
      bufIndex := 0 }
  have record : (clearBuf s).terminals s.currentId = _ := Function.update_self _ _ _
  have taken := lines_setTerminal_eq (clearBuf s) s.currentId fun term =>
    { term with readFlag := false }
  rw [record, show (clearBuf s).lines = _ from cleared] at taken
  -- The second store replaces the record of the first.
  simp only [Function.update_idem] at taken
  exact taken

end Keys

section Calls

variable {env : Env} {s next : Kernel} {frame : CallFrame}

/-- A failed call of `execute` changes no line. -/
theorem Failed.lines {command : Option (List Byte)} (failed : Failed env s frame command next) :
    next.lines = s.lines := by
  -- Each of the three failures stops before a process is changed.
  cases failed with
  | null => rfl
  | missing => exact lines_markFish s _
  | full => exact (lines_putText _ _).trans (lines_markFish s _)

/-- Entering a program changes no line. -/
theorem Entered.lines {command : List Byte} {entryPoint : Nat}
    (entered : Entered env s frame command entryPoint next) : next.lines = s.lines := by
  -- What is stored of the process in the record lies outside the mailbox.
  have started : ∀ m : Kernel, ∀ dentry arg pid,
      (startProcess env m frame dentry arg pid).lines = m.lines := by
    intro m dentry arg pid
    have record : (m.setTerminal m.currentId fun term =>
        { term with curPcb := pcbAddr pid, firstProcess := true, currentPid := pid }).lines =
          m.lines := lines_setTerminal m _ fun _ => by rfl
    exact record
  exact (congrArg Kernel.lines entered.started).trans ((started _ _ _ _).trans (lines_markFish s _))

/-- Ending a process changes no line. -/
theorem Halted.lines {outcome : Outcome} (halted : Halted env s frame outcome next) :
    next.lines = s.lines := by
  -- A process ends in up to three steps, and none of them is about a line.
  have ended : (endProcess s).lines = s.lines := by
    have unmarked : (s.setTerminal s.currTerminal fun term =>
        { term with fish := false }).lines = s.lines := lines_setTerminal s _ fun _ => by rfl
    exact unmarked
  have vacated : (endBaseShell s).lines = s.lines :=
    (lines_setTerminal (endProcess s) _ fun _ => by rfl).trans ended
  have resumed : ∀ m : Kernel, ∀ parent, (resumeParent m parent).lines = m.lines :=
    fun m parent => by
      have record : (m.setTerminal m.currTerminal fun term =>
          { term with curPcb := pcbAddr parent, currentPid := parent }).lines = m.lines :=
        lines_setTerminal m _ fun _ => by rfl
      exact record
  cases halted with
  | child above => exact (resumed _ _).trans ended
  | stranded base refused => exact (resumed _ _).trans (refused.lines.trans vacated)
  | restarted base entered => exact entered.lines.trans vacated

/-- A plain call takes a line, or changes none. -/
theorem plain_lines {request : Call} {result : CallResult} (plain : request.Plain)
    (done : syscall env s frame request = some result) :
    (TakesLine s (.call frame request) ∧ s.displayed.readFlag = true ∧
        s.currTerminal = s.currentId ∧ result.kernel = (takeLine s).kernel) ∨
      (¬ TakesLine s (.call frame request) ∧ result.kernel.lines = s.lines) := by
  have takes : TakesLine s (.call frame request) ↔ request.Reads s .stdin := by
    cases request with
    | read | halt | execute | write | «open» | close | getargs | vidmap => exact Iff.rfl
  rw [takes]
  have step := plain_cases plain done
  generalize result.kernel = next at step ⊢
  -- Only a read whose descriptor leads to the terminal takes a line.
  cases step with
  | line reads entered shown => exact .inl ⟨reads, entered, shown, rfl⟩
  | kept spares => exact .inr ⟨spares, rfl⟩
  | listing reads =>
    exact .inr ⟨fun terminal => OpTable.noConfusion (reads.unique terminal), rfl⟩
  | position reads =>
    exact .inr ⟨fun terminal => OpTable.noConfusion (reads.unique terminal), rfl⟩
  | awaited reads =>
    exact .inr ⟨fun terminal => OpTable.noConfusion (reads.unique terminal), rfl⟩
  | written => exact .inr ⟨id, lines_terminalWrite s _ _⟩
  | rate | opened | closed | view => exact .inr ⟨id, rfl⟩

end Calls

/-- What one step of the kernel does to the lines. -/
inductive LineStep (s : Kernel) : Event → Kernel → Prop where
  /-- A key edits a line, hands one over, or displays another terminal. -/
  | key (scancode : Byte) : LineStep s (.keyboard scancode) (printKeyboard s scancode)
  /-- A process takes the line of the displayed terminal into its own memory. -/
  | taken {event : Event} {next : Kernel} (takes : TakesLine s event)
      (ready : s.displayed.readFlag = true) (here : s.currTerminal = s.currentId)
      (frames : Nat → Byte) (after : next = { (takeLine s).kernel with frames := frames }) :
      LineStep s event next
  /-- Every other step leaves all lines as they are. -/
  | other {event : Event} {next : Kernel} (spares : ¬ TakesLine s event)
      (silent : ∀ scancode, event ≠ .keyboard scancode) (kept : next.lines = s.lines) :
      LineStep s event next

/-- Every step of the machine is one of the three. -/
theorem line_cases {env : Env} {s next : Kernel} {event : Event}
    (taken : step env s event = some next) : LineStep s event next := by
  -- The calls are the long case: a plain one may take a line, the others change processes only.
  cases event with
  | keyboard scancode =>
    obtain ⟨-, rfl⟩ := key_taken taken
    exact .key scancode
  | pit esp ebp =>
    cases taken
    exact .other id (fun _ => Event.noConfusion) (lines_pitHandler s esp ebp)
  | rtc =>
    cases taken
    exact .other id (fun _ => Event.noConfusion) rfl
  | call frame request =>
    by_cases plain : request.Plain
    · obtain ⟨result, frames, done, -, rfl⟩ := call_taken taken
      rcases plain_lines plain done with ⟨takes, ready, here, after⟩ | ⟨spares, kept⟩
      · exact .taken takes ready here frames (by rw [after])
      · exact .other spares (fun _ => Event.noConfusion) kept
    · cases request with
      | halt status =>
        obtain ⟨outcome, ended⟩ := halt_taken taken
        exact .other id (fun _ => Event.noConfusion) (halt_cases ended).2.lines
      | execute command =>
        obtain ⟨outcome, executed⟩ := execute_taken taken
        rcases execute_cases executed with ⟨-, failed⟩ | ⟨_, _, -, -, ⟨entered⟩⟩
        · exact .other id (fun _ => Event.noConfusion) failed.lines
        · exact .other id (fun _ => Event.noConfusion) entered.lines
      | read | write | «open» | close | getargs | vidmap => exact absurd trivial plain

end SmallOs
