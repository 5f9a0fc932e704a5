import SmallOs.Proofs.Terminal.LineBuffers

/-! How far the loops of every step reach into the buffers of 128 bytes. -/

namespace SmallOs

open Foundation

/-- How far `prout` reaches into `keyboardbuf`. -/
def proutExtent (s : Kernel) : Nat :=
  -- At its limit, and past the last byte, `prout` stores nothing.
  if s.keyboard.count = bufsize then 0
  else if s.keyboard.bufIndex ≤ bufsize - 1 then s.keyboard.bufIndex + 1
  else 0

/-- How far `backspace` reaches into `keyboardbuf`. -/
def backspaceExtent (s : Kernel) : Nat :=
  -- The byte before the index is cleared, if the first two tests let Backspace through.
  if s.keyboard.count = 0 ∨ (s.keyboard.vdX = 0 ∧ s.keyboard.vdY = 0) then 0
  else s.keyboard.bufIndex

/-- How far a function key reaches into `keyboardbuf`, `kbbuf` and the terminals' buffers. -/
def displayExtents (s : Kernel) (t : Terminal) : List Nat :=
  -- `copy_keyboard_buf` comes before the test whether the terminal is displayed already.
  s.keyboard.bufIndex ::
    if s.currentId = t then []
    else
      -- The save clears one buffer, copies the line into it, and clears the other one.
      [bufsize, s.keyboard.bufIndex, bufsize] ++
        if t = 0 ∨ (s.terminals t).isOpen then [(s.terminals t).bufIndex] else []

/-- How far each thing a key asks for reaches into the buffers. -/
def keyExtents (s : Kernel) : KeyAction → List Nat
  -- The extents stand in the order in which the loops run.
  | .char _ => [proutExtent s]
  | .backspace => [backspaceExtent s]
  -- The character is stored, the line is copied out, and the buffer is cleared.
  | .enter => [proutExtent s, (prout s 0x0A).keyboard.bufIndex, bufsize]
  | .display t => displayExtents s t
  | .clear | .nothing => []

/-- How far `terminal_read` reaches: to the first NUL, over the line, and in `clear_buf`. -/
def readExtents (s : Kernel) : List Nat :=
  -- The scan reads the NUL as well, the copy stops before it, and `clear_buf` trusts the index.
  [lineSize s + 1, lineSize s, s.displayed.bufIndex]

/-- How far a step of the kernel reaches into the buffers of 128 bytes. -/
def extents (s : Kernel) : Event → List Nat
  | .keyboard scancode => keyExtents s (pressAction s.keyboard scancode)
  -- Apart from the keyboard, only a read from a terminal touches these buffers.
  | event => if TakesLine s event then readExtents s else []

/-- All of some numbers are no greater than the size of a buffer. -/
def AllFit (reached : List Nat) : Prop :=
  ∀ extent ∈ reached, extent ≤ bufsize

/-- The three kinds of buffers: `keyboardbuf`, `kbbuf`, and one for each terminal. -/
structure Buffers where
  typed : Nat → Byte
  copied : Nat → Byte
  saved : Terminal → Nat → Byte

def Kernel.buffers (s : Kernel) : Buffers :=
  ⟨s.keyboard.keyboardbuf, s.switch.kbbuf, fun t => (s.terminals t).buf⟩

/-- The second array differs from the first in its first bytes only. -/
def SameFrom (extent : Nat) (line after : Nat → Byte) : Prop :=
  ∀ i, extent ≤ i → after i = line i

/-- The buffers after loops over the first bytes of one of them each. -/
inductive LoopsOver : List Nat → Buffers → Buffers → Prop where
  | nil (b : Buffers) : LoopsOver [] b b
  | typed {extent : Nat} {more : List Nat} {b after : Buffers} (line : Nat → Byte)
      (beyond : SameFrom extent b.typed line) (rest : LoopsOver more { b with typed := line } after) :
      LoopsOver (extent :: more) b after
  | copied {extent : Nat} {more : List Nat} {b after : Buffers} (line : Nat → Byte)
      (beyond : SameFrom extent b.copied line)
      (rest : LoopsOver more { b with copied := line } after) : LoopsOver (extent :: more) b after
  | saved {extent : Nat} {more : List Nat} {b after : Buffers} (t : Terminal) (line : Nat → Byte)
      (beyond : SameFrom extent (b.saved t) line)
      (rest : LoopsOver more { b with saved := Function.update b.saved t line } after) :
      LoopsOver (extent :: more) b after

/-- Loops that follow each other reach as far as each of them does. -/
theorem LoopsOver.append {first rest : List Nat} {b middle after : Buffers}
    (loops : LoopsOver first b middle) (more : LoopsOver rest middle after) :
    LoopsOver (first ++ rest) b after := by
  induction loops with
  | nil => exact more
  | typed line beyond _ ih => exact .typed line beyond (ih more)
  | copied line beyond _ ih => exact .copied line beyond (ih more)
  | saved t line beyond _ ih => exact .saved t line beyond (ih more)

/-- A loop changes nothing from its bound on. -/
theorem sameFrom_loop (extent : Nat) (filled line : Nat → Byte) :
    SameFrom extent line fun i => if i < extent then filled i else line i :=
  fun _ beyond => if_neg (Nat.not_lt.mpr beyond)

theorem sameFrom_update {i extent : Nat} (below : i < extent) (c : Byte) (line : Nat → Byte) :
    SameFrom extent line (Function.update line i c) :=
  fun _ beyond => Function.update_of_ne (by omega) _ _

section Loops

variable {s : Kernel}

/-- Devices other than the statics of a switch have nothing to do with `kbbuf`. -/
@[simp] theorem setConsole_kbbuf (change : Console → Console) :
    (s.setConsole change).switch.kbbuf = s.switch.kbbuf := rfl

@[simp] theorem setKeyboard_kbbuf (change : Keyboard → Keyboard) :
    (s.setKeyboard change).switch.kbbuf = s.switch.kbbuf := rfl

@[simp] theorem setTerminal_kbbuf (t : Terminal) (change : InitTerminal → InitTerminal) :
    (s.setTerminal t change).switch.kbbuf = s.switch.kbbuf := rfl

@[simp] theorem display_kbbuf (t : Terminal) : (s.display t).switch.kbbuf = s.switch.kbbuf := rfl

@[simp] theorem resetPosition_kbbuf (x y : Int) :
    (resetPosition s x y).switch.kbbuf = s.switch.kbbuf := rfl

@[simp] theorem resetCursor_kbbuf (x y : Int) :
    (resetCursor s x y).switch.kbbuf = s.switch.kbbuf := rfl

@[simp] theorem scrolled_kbbuf : (clearRow (resetVideo s)).switch.kbbuf = s.switch.kbbuf := rfl

@[simp] theorem putc_kbbuf (c : Byte) : (putc s c).switch.kbbuf = s.switch.kbbuf := by
  -- Printing sets the positions, which the statics repeat, and the page.
  unfold putc publishPosition copyPosition keyboardWrite
  split
  · split
    · simp
    · simp
  · simp

theorem putText_kbbuf (text : List Byte) : (putText s text).switch.kbbuf = s.switch.kbbuf := by
  induction text generalizing s with
  | nil => rfl
  | cons c text ih => exact ih.trans (putc_kbbuf c)

/-- Typing leaves `kbbuf` alone. -/
theorem prout_kbbuf (c : Byte) : (prout s c).switch.kbbuf = s.switch.kbbuf := by
  unfold prout storeTyped
  -- Whatever follows the character sets positions, and may scroll the page.
  split
  · simp
  · simp only
    split
    · split
      · simp
      · simp
    · simp

theorem backspace_kbbuf : (backspace s).switch.kbbuf = s.switch.kbbuf := by
  have dropped : ∀ m : Kernel, (dropTyped m).switch.kbbuf = m.switch.kbbuf := by
    intro m
    unfold dropTyped
    split
    · rfl
    · rfl
  unfold backspace putBackspace putUpbackspace blankCell stepLeft stepUp
  -- Three tests leave everything alone, and both erasing branches end the same way.
  split
  · rfl
  split
  · rfl
  split
  · rfl
  split
  · simp [dropped]
  · simp [dropped]

theorem nextLine_kbbuf : (nextLine s).switch.kbbuf = s.switch.kbbuf := by
  unfold nextLine
  split
  · simp
  · split
    · simp
    · simp

/-- What a key does to the three buffers. -/
theorem buffers_eq {next : Kernel} {b : LineBuffers} (lines : next.lines = b) :
    next.buffers = ⟨b.keyboardbuf, next.switch.kbbuf, fun t => (b.mailboxes t).buf⟩ := by
  rw [← lines]
  rfl

theorem type_loops (s : Kernel) (c : Byte) :
    LoopsOver [proutExtent s] s.buffers (prout s c).buffers := by
  -- The character is stored at the index, if it is stored at all.
  rw [buffers_eq (lines_prout s c), prout_kbbuf, (LineBuffers.type_mailboxes c).1]
  refine .typed (s.lines.type c).keyboardbuf ?_ (.nil _)
  unfold proutExtent LineBuffers.type
  by_cases full : s.keyboard.count = bufsize
  · have stays : s.lines.count = bufsize := full
    rw [if_pos full, if_pos stays]
    exact fun _ _ => rfl
  · have goes : ¬ s.lines.count = bufsize := full
    rw [if_neg full, if_neg goes]
    by_cases room : s.keyboard.bufIndex ≤ bufsize - 1
    · have stored : s.lines.bufIndex ≤ bufsize - 1 := room
      simp only [if_pos room, if_pos stored]
      exact sameFrom_update (Nat.lt_succ_self _) c _
    · have dropped : ¬ s.lines.bufIndex ≤ bufsize - 1 := room
      simp only [if_neg room, if_neg dropped]
      exact fun _ _ => rfl

theorem backspace_loops (s : Kernel) :
    LoopsOver [backspaceExtent s] s.buffers (backspace s).buffers := by
  rw [buffers_eq (lines_backspace s), backspace_kbbuf]
  unfold backspaceExtent
  by_cases far : erases s = true
  · -- The byte before the index is cleared.
    obtain ⟨counted, away⟩ := of_decide_eq_true far
    rw [if_pos far, if_neg (not_or.mpr ⟨counted, away⟩)]
    unfold LineBuffers.erase
    split
    · rename_i some
      have below : s.keyboard.bufIndex - 1 < s.keyboard.bufIndex := Nat.sub_lt some.2 Nat.one_pos
      exact .typed _ (sameFrom_update below 0 _) (.nil _)
    · exact .typed s.keyboard.keyboardbuf (fun _ _ => rfl) (.nil _)
  · rw [if_neg far]
    exact .typed s.keyboard.keyboardbuf (fun _ _ => rfl) (.nil _)

theorem enter_loops (s : Kernel) :
    LoopsOver (keyExtents s .enter) s.buffers (enterKey s).buffers := by
  have copied : (enterKey s).switch.kbbuf = s.switch.kbbuf := by
    simp only [enterKey, nextLine_kbbuf, clearbuffuer, copyToTeminal, setKeyboard_kbbuf,
      setTerminal_kbbuf, prout_kbbuf]
  have typed := lines_prout s 0x0A
  -- The mailboxes are those of the state in which the newline is stored, but for one line.
  have boxes : (fun t => (s.lines.enter.mailboxes t).buf) = Function.update
      (fun t => (s.terminals t).buf) s.currentId (fun i =>
        if i < (prout s 0x0A).keyboard.bufIndex then (prout s 0x0A).keyboard.keyboardbuf i
        else s.displayed.buf i) := by
    funext t
    by_cases here : t = s.currentId
    · subst here
      rw [Function.update_self]
      have front := congrArg Mailbox.buf (LineBuffers.enter_front (b := s.lines))
      rw [← typed] at front
      exact front
    · rw [Function.update_of_ne here]
      exact congrArg Mailbox.buf (LineBuffers.enter_other (b := s.lines) here)
  have stored := type_loops s 0x0A
  rw [buffers_eq typed, prout_kbbuf, (LineBuffers.type_mailboxes 0x0A).1] at stored
  rw [buffers_eq (lines_enterKey s), copied, boxes]
  -- The newline is stored, the line is handed over, and the editor's buffer is cleared.
  refine stored.append (.saved s.currentId _ (sameFrom_loop _ _ _) (.typed _ ?_ (.nil _)))
  exact sameFrom_loop bufsize (fun _ => 0) _

/-- A function key copies the line into `kbbuf`, and nothing after that touches it. -/
theorem displayKey_kbbuf (t : Terminal) : (displayKey s t).switch.kbbuf = fun i =>
    if i < s.keyboard.bufIndex then s.keyboard.keyboardbuf i else s.switch.kbbuf i := by
  have saved : ∀ m : Kernel, (saveTerminal m).switch.kbbuf = m.switch.kbbuf := fun _ => rfl
  have restored : ∀ m : Kernel, (restoreTerminal m t).switch.kbbuf = m.switch.kbbuf := fun _ => rfl
  have opened : ∀ m : Kernel, (openTerminal m t).switch.kbbuf = m.switch.kbbuf := fun m => by
    unfold openTerminal clear
    rfl
  -- A switch saves the displayed terminal, and restores the other one or opens it.
  have switched : ∀ digit (m : Kernel),
      (switchToTerminal t digit m).switch.kbbuf = m.switch.kbbuf := by
    intro digit m
    unfold switchToTerminal
    split
    · exact putText_kbbuf _
    · simp only
      split
      · exact (restored _).trans (saved m)
      · exact (opened _).trans (saved m)
  unfold displayKey
  match t with
  | 0 =>
    refine Eq.trans ?_ (rfl : (copyKeyboardBuf s s.keyboard.keyboardbuf
      s.keyboard.bufIndex).switch.kbbuf = _)
    simp only [switchToTerminal1]
    split
    · exact putText_kbbuf _
    · rfl
  | 1 => exact switched 0x32 _
  | 2 => exact switched 0x33 _

/-- Putting the line away clears the displayed terminal's buffer, fills it, and clears the editor's. -/
theorem leave_loops (kb : Nat → Byte) :
    LoopsOver [bufsize, s.keyboard.bufIndex, bufsize]
      ⟨s.keyboard.keyboardbuf, kb, fun t => (s.terminals t).buf⟩
      ⟨s.lines.leave.keyboardbuf, kb, fun t => (s.lines.leave.mailboxes t).buf⟩ := by
  -- The record of the displayed terminal is written twice, and no other one.
  have boxes : (fun t => (s.lines.leave.mailboxes t).buf) = Function.update (Function.update
      (fun t => (s.terminals t).buf) s.currentId
        (fun i => if i < bufsize then 0 else s.displayed.buf i)) s.currentId (fun i =>
      if i < s.keyboard.bufIndex then s.keyboard.keyboardbuf i
      else if i < bufsize then 0 else s.displayed.buf i) := by
    rw [Function.update_idem]
    funext t
    by_cases shown : t = s.currentId
    · subst shown
      rw [Function.update_self]
      exact congrArg Mailbox.buf (LineBuffers.leave_front (b := s.lines))
    · rw [Function.update_of_ne shown]
      exact congrArg Mailbox.buf (LineBuffers.leave_other (b := s.lines) shown)
  rw [boxes]
  refine .saved s.currentId _ (sameFrom_loop bufsize (fun _ => 0) _) (.saved s.currentId _ ?_
    (.typed _ (sameFrom_loop bufsize (fun _ => 0) _) (.nil _)))
  simp only [Function.update_self]
  exact sameFrom_loop s.keyboard.bufIndex s.keyboard.keyboardbuf _

theorem display_loops (s : Kernel) (t : Terminal) :
    LoopsOver (displayExtents s t) s.buffers (displayKey s t).buffers := by
  rw [buffers_eq (lines_displayKey s t), displayKey_kbbuf]
  -- The line is copied out first, whatever the routine does then.
  refine .copied _ (sameFrom_loop s.keyboard.bufIndex s.keyboard.keyboardbuf s.switch.kbbuf) ?_
  unfold LineBuffers.display
  by_cases here : s.currentId = t
  · have stays : s.lines.displayed = t := here
    rw [if_pos here, if_pos stays]
    exact .nil _
  have moves : ¬ s.lines.displayed = t := here
  rw [if_neg here, if_neg moves]
  refine (leave_loops _).append ?_
  -- What is restored is a mailbox the save has not touched.
  have box : s.lines.leave.mailboxes t = s.lines.mailboxes t :=
    LineBuffers.leave_other fun same => here same.symm
  by_cases opened : t = 0 ∨ (s.terminals t).isOpen
  · have restores : t = 0 ∨ (s.lines.mailboxes t).isOpen := opened
    have length : (s.lines.leave.mailboxes t).bufIndex = (s.terminals t).bufIndex :=
      congrArg Mailbox.bufIndex box
    rw [if_pos opened, if_pos restores, ← length]
    exact .typed _ (sameFrom_loop _ _ _) (.nil _)
  · have starts : ¬ (t = 0 ∨ (s.lines.mailboxes t).isOpen) := opened
    rw [if_neg opened, if_neg starts]
    -- Opening a mailbox leaves its bytes alone.
    have same : (fun u => ((s.lines.leave.start t).mailboxes u).buf) =
        fun u => (s.lines.leave.mailboxes u).buf := by
      funext u
      by_cases there : u = t
      · subst there
        have started : (s.lines.leave.start u).mailboxes u =
            { s.lines.leave.mailboxes u with isOpen := true } := Function.update_self _ _ _
        rw [started]
      · exact congrArg Mailbox.buf (Function.update_of_ne there _ _)
    rw [same]
    exact .nil _

/-- The loops a key runs reach as far as its extents say, in the order in which they are listed. -/
theorem performKey_loops (s : Kernel) (action : KeyAction) :
    LoopsOver (keyExtents s action) s.buffers (performKey s action).buffers := by
  cases action with
  | char c => exact type_loops s c
  | backspace => exact backspace_loops s
  | enter => exact enter_loops s
  | clear =>
    -- Control and `l` set the index back, and leave the bytes where they are.
    have kept : (clearKey s).lines = { s.lines with bufIndex := 0, count := 0 } :=
      lines_performKey s .clear
    have copied : (clearKey s).switch.kbbuf = s.switch.kbbuf := by
      simp [clearKey, clear]
    have same : (clearKey s).buffers = s.buffers := by
      rw [buffers_eq kept, copied]
      rfl
    change LoopsOver [] s.buffers (clearKey s).buffers
    rw [same]
    exact .nil _
  | display t => exact display_loops s t
  | nothing => exact .nil _

theorem proutExtent_le (s : Kernel) : proutExtent s ≤ bufsize := by
  -- Only the branch that stores reaches into the buffer, and its own test bounds it.
  unfold proutExtent
  split
  · exact Nat.zero_le _
  · split
    · simp only [bufsize] at *
      omega
    · exact Nat.zero_le _

/-- The modifier flags say which loops run, and not how far. -/
theorem keyExtents_flags (s : Kernel) (c : Byte) (action : KeyAction) :
    keyExtents (s.setKeyboard fun kb => flagsAfter kb c) action = keyExtents s action := by
  -- The modifier flags are no part of the numbers that the extents are made of.
  obtain ⟨buf, index, count, vdX, vdY⟩ := flagsAfter_kept s.keyboard c
  have flagged : (s.setKeyboard fun kb => flagsAfter kb c).lines = s.lines :=
    lines_mk ((DeviceOnly.refl s).setKeyboard _) buf index count
  have entered : (prout (s.setKeyboard fun kb => flagsAfter kb c) 0x0A).keyboard.bufIndex =
      (prout s 0x0A).keyboard.bufIndex := by
    have typed := lines_prout (s.setKeyboard fun kb => flagsAfter kb c) 0x0A
    rw [flagged, ← lines_prout] at typed
    exact congrArg LineBuffers.bufIndex typed
  have kept : ∀ t, ((s.setKeyboard fun kb => flagsAfter kb c).terminals t) = s.terminals t :=
    fun _ => rfl
  have shown : (s.setKeyboard fun kb => flagsAfter kb c).currentId = s.currentId := rfl
  cases action with
  | char | backspace | enter | display =>
    simp only [keyExtents, proutExtent, backspaceExtent, displayExtents, entered, kept, shown]
    simp only [Kernel.setKeyboard, count, index, vdX, vdY]
  | clear | nothing => rfl

/-- The loops of a keyboard interrupt reach as far as the extents of its step. -/
theorem printKeyboard_loops (s : Kernel) (c : Byte) :
    LoopsOver (extents s (.keyboard c)) s.buffers (printKeyboard s c).buffers := by
  have flagged : (s.setKeyboard fun kb => flagsAfter kb c).buffers = s.buffers :=
    congrArg (fun line => ({ s.buffers with typed := line } : Buffers))
      (flagsAfter_kept s.keyboard c).1
  have loops := performKey_loops (s.setKeyboard fun kb => flagsAfter kb c)
    (pressAction s.keyboard c)
  rw [keyExtents_flags, flagged] at loops
  rw [printKeyboard_eq]
  exact loops

/-- A key's loops fit the buffers exactly when all its extents do. -/
theorem keyFits_iff (s : Kernel) (action : KeyAction) :
    KeyFits s action ↔ AllFit (keyExtents s action) := by
  have stored := proutExtent_le s
  cases action with
  | char c => exact iff_of_true trivial (List.forall_mem_singleton.mpr stored)
  | backspace =>
    -- Both sides ask for the index where Backspace gets as far as the buffer.
    rw [keyExtents, AllFit, List.forall_mem_singleton, backspaceExtent]
    by_cases far : erases s = true
    · obtain ⟨counted, away⟩ := of_decide_eq_true far
      rw [if_neg (not_or.mpr ⟨counted, away⟩)]
      exact ⟨fun fits => fits far, fun fits _ => fits⟩
    · have stops : s.keyboard.count = 0 ∨ (s.keyboard.vdX = 0 ∧ s.keyboard.vdY = 0) := by
        simpa [erases, or_iff_not_imp_left] using far
      rw [if_pos stops]
      exact iff_of_true (fun erasing => absurd erasing far) (Nat.zero_le _)
  | enter =>
    simp only [KeyFits, AllFit, keyExtents, List.mem_cons, List.not_mem_nil, or_false,
      forall_eq_or_imp, forall_eq]
    exact ⟨fun fits => ⟨stored, fits, Nat.le_refl _⟩, fun fits => fits.2.1⟩
  | display t =>
    simp only [KeyFits, AllFit, keyExtents, displayExtents]
    by_cases here : s.currentId = t
    · simp [here]
    · have other : t ≠ s.currentId := fun same => here same.symm
      by_cases opened : t = 0 ∨ (s.terminals t).isOpen = true
      · simp [here, other, opened]
      · simp [here, other, opened]
  | clear | nothing => exact iff_of_true trivial fun _ none => absurd none List.not_mem_nil

/-- A scan that ends depends on the bytes up to its end only. -/
theorem strlen_congr {line other : Nat → Byte} {bound : Nat}
    (same : ∀ i ≤ strlen line bound, other i = line i) :
    strlen other bound = strlen line bound := by
  have inside := strlen_le line bound
  -- Neither scan passes the byte at which the other one stops.
  refine Nat.le_antisymm (Nat.le_of_not_lt fun longer => ?_) (Nat.le_of_not_lt fun shorter => ?_)
  · have within : strlen line bound + 1 ≤ bound := Nat.lt_of_lt_of_le longer (strlen_le other bound)
    obtain ⟨k, below, zero⟩ := (strlen_lt_iff line within).mp (Nat.lt_succ_self _)
    have ends := (strlen_lt_iff other within).mpr
      ⟨k, below, (same k (Nat.le_of_lt_succ below)).trans zero⟩
    omega
  · obtain ⟨k, below, zero⟩ := (strlen_lt_iff other inside).mp shorter
    have ends := (strlen_lt_iff line inside).mpr
      ⟨k, below, (same k (Nat.le_of_lt below)).symm.trans zero⟩
    omega

/-- What `terminal_read` finds depends on the bytes its scan reads, up to the first NUL. -/
theorem takeLine_scans {other : Kernel}
    (same : ∀ i < lineSize s + 1, recordBytes other.displayed i = recordBytes s.displayed i) :
    lineSize other = lineSize s ∧ (takeLine other).bytes = (takeLine s).bytes := by
  have scanned : lineSize other = lineSize s :=
    strlen_congr fun i below => same i (Nat.lt_succ_of_le below)
  refine ⟨scanned, ?_⟩
  -- The copy reads the bytes in front of the NUL.
  simp only [takeLine, scanned]
  exact List.map_congr_left fun i inside => same i (by have := List.mem_range.mp inside; omega)

/-- The copy of `terminal_read` takes as many bytes as its scan counted, and `clear_buf` clears to the index. -/
theorem takeLine_loops (s : Kernel) : (takeLine s).bytes.length = lineSize s ∧
    LoopsOver [s.displayed.bufIndex] s.buffers (takeLine s).kernel.buffers := by
  -- The displayed record is cleared up to its index, and the other ones are as they were.
  refine ⟨by simp [takeLine], ?_⟩
  have boxes : (fun t => (s.lines.take.mailboxes t).buf) = Function.update
      (fun t => (s.terminals t).buf) s.currentId (fun i =>
        if i < s.displayed.bufIndex ∧ i < bufsize then 0 else s.displayed.buf i) := by
    funext t
    by_cases here : t = s.currentId
    · subst here
      rw [Function.update_self]
      exact congrArg Mailbox.buf (LineBuffers.deliver_front (b := s.lines) _)
    · rw [Function.update_of_ne here]
      exact congrArg Mailbox.buf (LineBuffers.deliver_other (b := s.lines) _ here)
  rw [buffers_eq (lines_takeLine s), boxes]
  refine .saved s.currentId _ (fun i beyond => if_neg fun inside => ?_) (.nil _)
  omega

end Loops

end SmallOs
