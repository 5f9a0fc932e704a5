import SmallOs.Proofs.Terminal.BufferAccess

/-! The buffers of 128 bytes: when the indices into them stay within their size over a whole run. -/

namespace SmallOs

open Foundation

/-- The bytes Enter adds to the index of the displayed terminal: its own only while there is room. -/
def enteredLength (s : Kernel) : Nat :=
  -- A full line is handed over without its newline.
  if s.keyboard.count = bufsize then s.keyboard.bufIndex else s.keyboard.bufIndex + 1

/-- What keeps the indices within the buffers, for each thing a key asks for. -/
def KeyKeepsIndices (s : Kernel) : KeyAction → Prop
  -- Where the counter is behind the index, the index goes on past the end.
  | .char _ => s.keyboard.count = bufsize ∨ s.keyboard.bufIndex < bufsize
  -- The index of the mailbox is added to, and only a read sets it back.
  | .enter => s.displayed.bufIndex + enteredLength s ≤ bufsize
  | _ => True

/-- What keeps the indices within the buffers, for each step of the kernel. -/
def KeepsIndices (s : Kernel) : Event → Prop
  | .keyboard scancode => KeyKeepsIndices s (pressAction s.keyboard scancode)
  -- A line that is taken has to end inside its buffer.
  | event => TakesLine s event → ∃ i < bufsize, s.displayed.buf i = 0

instance (s : Kernel) : (action : KeyAction) → Decidable (KeyKeepsIndices s action)
  | .char _ => inferInstanceAs (Decidable (_ ∨ _))
  | .enter => inferInstanceAs (Decidable (s.displayed.bufIndex + enteredLength s ≤ bufsize))
  | .backspace | .clear | .display _ | .nothing => inferInstanceAs (Decidable True)

instance (s : Kernel) : (event : Event) → Decidable (KeepsIndices s event)
  | .keyboard scancode =>
    inferInstanceAs (Decidable (KeyKeepsIndices s (pressAction s.keyboard scancode)))
  | .call frame request =>
    inferInstanceAs (Decidable (TakesLine s (.call frame request) →
      ∃ i < bufsize, s.displayed.buf i = 0))
  | .pit _ _ | .rtc =>
    inferInstanceAs (Decidable (False → ∃ i < bufsize, s.displayed.buf i = 0))

/-- No index of a line is past the end of its buffer. -/
structure WithinBuffers (b : LineBuffers) : Prop where
  -- The editor's index bounds `keyboardbuf` and `kbbuf`.
  typed : b.bufIndex ≤ bufsize
  -- Each mailbox's index bounds its own buffer.
  saved : ∀ t, (b.mailboxes t).bufIndex ≤ bufsize

namespace WithinBuffers

variable {b : LineBuffers}

/-- Replacing the displayed terminal's mailbox keeps the indices, when its own is kept. -/
theorem deliver (within : WithinBuffers b) {box : Mailbox} (fits : box.bufIndex ≤ bufsize) :
    ∀ t, ((b.deliver box).mailboxes t).bufIndex ≤ bufsize := by
  -- Only one mailbox is replaced, so the others keep the indices they had.
  intro t
  by_cases here : t = b.displayed
  · subst here
    have replaced : (b.deliver box).mailboxes b.displayed = box := Function.update_self _ _ _
    rw [replaced]
    exact fits
  · have kept : (b.deliver box).mailboxes t = b.mailboxes t := Function.update_of_ne here _ _
    rw [kept]
    exact within.saved t

theorem leave (within : WithinBuffers b) : WithinBuffers b.leave :=
  ⟨Nat.zero_le _, within.deliver within.typed⟩

theorem restore (within : WithinBuffers b) (t : Terminal) : WithinBuffers (b.restore t) :=
  ⟨within.saved t, within.saved⟩

theorem start (within : WithinBuffers b) (t : Terminal) : WithinBuffers (b.start t) := by
  -- Opening a mailbox changes no index in it.
  refine ⟨within.typed, fun u => ?_⟩
  by_cases here : u = t
  · subst here
    have opened : (b.start u).mailboxes u = { b.mailboxes u with isOpen := true } :=
      Function.update_self _ _ _
    rw [opened]
    exact within.saved u
  · have kept : (b.start t).mailboxes u = b.mailboxes u := Function.update_of_ne here _ _
    rw [kept]
    exact within.saved u

/-- A terminal switch keeps the indices. -/
theorem display (within : WithinBuffers b) (t : Terminal) : WithinBuffers (b.display t) := by
  -- The source leaves the displayed terminal first, and then restores or opens the next.
  unfold LineBuffers.display
  split
  · exact within
  split
  · exact within.leave.restore t
  · exact within.leave.start t

theorem take (within : WithinBuffers b) : WithinBuffers b.take :=
  ⟨within.typed, within.deliver (Nat.zero_le _)⟩

end WithinBuffers

section Keys

variable {s : Kernel}

/-- A typed character keeps the index exactly when the counter or the index leaves room. -/
theorem type_within_iff (within : WithinBuffers s.lines) (c : Byte) :
    KeyKeepsIndices s (.char c) ↔
      WithinBuffers (s.lines.type c) ∧ AllFit (keyExtents s (.char c)) := by
  -- `prout` tests the index before it stores, so only the index itself can go wrong.
  have reached : AllFit (keyExtents s (.char c)) := by
    simp only [AllFit, keyExtents, List.mem_singleton, forall_eq]
    exact proutExtent_le s
  unfold KeyKeepsIndices LineBuffers.type
  -- The counter decides whether the index is raised at all.
  by_cases full : s.keyboard.count = bufsize
  · have stays : s.lines.count = bufsize := full
    rw [if_pos stays]
    exact ⟨fun _ => ⟨within, reached⟩, fun _ => .inl full⟩
  · have goes : ¬ s.lines.count = bufsize := full
    rw [if_neg goes]
    constructor
    · rintro (counted | room)
      · exact absurd counted full
      · exact ⟨⟨room, within.saved⟩, reached⟩
    · rintro ⟨kept, -⟩
      exact .inr kept.typed

/-- The index of the line that Enter hands over. -/
theorem enteredLength_eq (s : Kernel) (c : Byte) :
    (s.lines.type c).bufIndex = enteredLength s := by
  unfold LineBuffers.type enteredLength
  -- Typing the newline raises the index exactly when the counter leaves room.
  by_cases full : s.keyboard.count = bufsize
  · have stays : s.lines.count = bufsize := full
    rw [if_pos stays, if_pos full]
    rfl
  · have goes : ¬ s.lines.count = bufsize := full
    rw [if_neg goes, if_neg full]
    rfl

/-- Enter keeps the indices exactly when the mailbox has room for what it adds. -/
theorem enter_within_iff (within : WithinBuffers s.lines) :
    KeyKeepsIndices s .enter ↔
      WithinBuffers s.lines.enter ∧ AllFit (keyExtents s .enter) := by
  -- What is added to the mailbox is the length of the line with its newline.
  have index := enteredLength_eq s 0x0A
  have copied : (prout s 0x0A).keyboard.bufIndex = enteredLength s := by
    rw [← index, ← lines_prout]
    rfl
  have added : (s.lines.enter.mailboxes s.currentId).bufIndex =
      s.displayed.bufIndex + enteredLength s := by
    rw [← index]
    exact congrArg Mailbox.bufIndex (LineBuffers.enter_front (b := s.lines))
  constructor
  · intro room
    have fits : s.displayed.bufIndex + enteredLength s ≤ bufsize := room
    refine ⟨⟨Nat.zero_le _, fun t => ?_⟩, ?_⟩
    · by_cases here : t = s.currentId
      · subst here
        rw [added]
        exact fits
      · rw [LineBuffers.enter_other here]
        exact within.saved t
    · -- The copy runs over the entered length, which the mailbox has room for.
      have stored := proutExtent_le s
      simp only [AllFit, keyExtents, copied, List.mem_cons, List.not_mem_nil, or_false,
        forall_eq_or_imp, forall_eq]
      exact ⟨stored, by omega, Nat.le_refl _⟩
  · rintro ⟨kept, -⟩
    -- Read backwards, the mailbox's index after Enter is the bound.
    have fits := kept.saved s.currentId
    rw [added] at fits
    exact fits

/-- Backspace never raises an index. -/
theorem erase_within (within : WithinBuffers s.lines) : WithinBuffers s.lines.erase := by
  -- The index falls by one, or Backspace does nothing.
  unfold LineBuffers.erase
  split
  · have typed : s.keyboard.bufIndex ≤ bufsize := within.typed
    exact ⟨Nat.le_trans (Nat.sub_le _ _) typed, within.saved⟩
  · exact within

/-- A key keeps the indices, and stays within the buffers, exactly under its condition. -/
theorem key_within_iff (within : WithinBuffers s.lines) (action : KeyAction) :
    KeyKeepsIndices s action ↔
      WithinBuffers (s.lines.key (erases s) action) ∧ AllFit (keyExtents s action) := by
  -- Only a character and Enter have a condition; every other key keeps the indices anyway.
  have typed : s.keyboard.bufIndex ≤ bufsize := within.typed
  cases action with
  | char c => exact type_within_iff within c
  | enter => exact enter_within_iff within
  | backspace =>
    refine ⟨fun _ => ⟨?_, ?_⟩, fun _ => trivial⟩
    · simp only [LineBuffers.key]
      split
      · exact erase_within within
      · exact within
    · simp only [AllFit, keyExtents, backspaceExtent, List.mem_singleton, forall_eq]
      split
      · exact Nat.zero_le _
      · exact typed
  | clear =>
    refine ⟨fun _ => ⟨⟨Nat.zero_le _, within.saved⟩, ?_⟩, fun _ => trivial⟩
    simp [AllFit, keyExtents]
  | display t =>
    refine ⟨fun _ => ⟨within.display t, ?_⟩, fun _ => trivial⟩
    have saved : (s.terminals t).bufIndex ≤ bufsize := within.saved t
    -- Every loop runs over the size of a buffer, or up to an index.
    simp only [AllFit, keyExtents, displayExtents]
    intro extent reached
    split at reached
    · obtain rfl := List.mem_singleton.mp reached
      exact typed
    · split at reached
      · simp only [List.cons_append, List.nil_append, List.mem_cons, List.not_mem_nil,
          or_false] at reached
        rcases reached with rfl | rfl | rfl | rfl | rfl
        all_goals omega
      · simp only [List.append_nil, List.mem_cons, List.not_mem_nil, or_false] at reached
        rcases reached with rfl | rfl | rfl | rfl
        all_goals omega
  | nothing =>
    refine ⟨fun _ => ⟨within, ?_⟩, fun _ => trivial⟩
    simp [AllFit, keyExtents]

/-- Taking a line stays within the buffers exactly when it ends inside its own. -/
theorem take_within_iff (within : WithinBuffers s.lines) :
    (∃ i < bufsize, s.displayed.buf i = 0) ↔
      WithinBuffers s.lines.take ∧ AllFit (readExtents s) := by
  have saved : s.displayed.bufIndex ≤ bufsize := within.saved s.currentId
  -- Up to its size the record's bytes are those of its buffer.
  have ends : lineSize s < bufsize ↔ ∃ i < bufsize, s.displayed.buf i = 0 := by
    rw [lineSize, strlen_lt_iff _ (Nat.le_add_right bufsize 5)]
    constructor
    · rintro ⟨i, inside, zero⟩
      rw [recordBytes, if_pos inside] at zero
      exact ⟨i, inside, zero⟩
    · rintro ⟨i, inside, zero⟩
      refine ⟨i, inside, ?_⟩
      rw [recordBytes, if_pos inside]
      exact zero
  -- The index after the read is zero, so all that is left is where the line ends.
  rw [← ends]
  simp only [AllFit, readExtents, List.mem_cons, List.not_mem_nil, or_false, forall_eq_or_imp,
    forall_eq]
  constructor
  · intro below
    exact ⟨within.take, below, by omega, saved⟩
  · rintro ⟨-, below, -⟩
    exact below

end Keys

/-- A step that meets its condition stays within the buffers, so a key is taken as far as they go. -/
theorem extents_fit {s : Kernel} {event : Event} (within : WithinBuffers s.lines)
    (keeps : KeepsIndices s event) : AllFit (extents s event) := by
  -- The two kinds of steps that reach into the buffers are judged by the lemmas above.
  cases event with
  | keyboard scancode => exact ((key_within_iff within _).mp keeps).2
  | call frame request =>
    by_cases takes : TakesLine s (.call frame request)
    · have reaches : extents s (.call frame request) = readExtents s := if_pos takes
      rw [reaches]
      exact ((take_within_iff within).mp (keeps takes)).2
    · have reaches : extents s (.call frame request) = [] := if_neg takes
      rw [reaches]
      exact fun _ none => absurd none List.not_mem_nil
  | pit | rtc => exact fun _ none => absurd none List.not_mem_nil

/-- One step of the kernel keeps the indices, and stays within the buffers, exactly under its condition. -/
theorem step_within_iff {env : Env} {s next : Kernel} {event : Event}
    (within : WithinBuffers s.lines) (taken : step env s event = some next) :
    KeepsIndices s event ↔ WithinBuffers next.lines ∧ AllFit (extents s event) := by
  -- Of the three kinds of step, the last one touches no line.
  cases line_cases taken with
  | key scancode =>
    rw [lines_printKeyboard]
    exact key_within_iff within (pressAction s.keyboard scancode)
  | taken takes ready here frames after =>
    have lines : next.lines = s.lines.take := by
      rw [after]
      exact lines_takeLine s
    rw [lines]
    cases event with
    | keyboard scancode => exact takes.elim
    | pit | rtc => exact takes.elim
    | call frame request =>
      -- A read that takes a line is judged by the line it finds.
      have reaches : extents s (.call frame request) = readExtents s := if_pos takes
      rw [reaches, ← take_within_iff within]
      exact ⟨fun keeps => keeps takes, fun ends _ => ends⟩
  | other spares silent kept =>
    rw [kept]
    cases event with
    | keyboard scancode => exact absurd rfl (silent scancode)
    | pit | rtc | call =>
      refine ⟨fun _ => ⟨within, ?_⟩, fun _ takes => absurd takes spares⟩
      simp [AllFit, extents, spares]

/-- An observer who notes how far each step reaches into the buffers. -/
def reached (seen : List Nat) (s : Kernel) (event : Event) (_ : Kernel) : List Nat :=
  -- The extents depend on the state before the step only.
  seen ++ extents s event

/-- The lines are empty when the machine is up. -/
theorem booted_within {env : Env} {start : Kernel} (booted : boot env = some start) :
    WithinBuffers start.lines := by
  -- The first shell is entered without touching a line.
  obtain ⟨_, ⟨entered⟩⟩ := boot_entered booted
  rw [entered.lines]
  exact ⟨Nat.zero_le _, fun _ => Nat.zero_le _⟩

/--
The indices into the line buffers stay within them.

In every run whose steps all meet the condition, both indices are at most the size of a buffer, no
step reached further than that, and neither would any step that meets the condition next.
-/
theorem indices_within {env : Env} {start last : Kernel} {labels : List Event} {seen : List Nat}
    (booted : boot env = some start)
    (run : Run (observed (step env) reached) (fun state event => KeepsIndices state.1 event)
      (start, []) labels (last, seen)) :
    last.keyboard.bufIndex ≤ bufsize ∧ (∀ t, (last.terminals t).bufIndex ≤ bufsize) ∧
      (∀ extent ∈ seen, extent ≤ bufsize) ∧
      ∀ event, KeepsIndices last event → ∀ extent ∈ extents last event, extent ≤ bufsize := by
  -- The invariant carries the indices and what was reached, one step at a time.
  have held : WithinBuffers last.lines ∧ AllFit seen := by
    refine run.observed_invariant (fun s seen => WithinBuffers s.lines ∧ AllFit seen)
      ⟨booted_within booted, fun _ none => by cases none⟩ fun s seen event next held keeps taken => ?_
    obtain ⟨within, fit⟩ := held
    obtain ⟨kept, more⟩ := (step_within_iff within taken).mp keeps
    exact ⟨kept, List.forall_mem_append.mpr ⟨fit, more⟩⟩
  exact ⟨held.1.typed, held.1.saved, held.2, fun _ keeps => extents_fit held.1 keeps⟩

/-- Two letters, an erased one and Enter, a read, a second shell, a tick, and a switch back. -/
def editedRun : List Event :=
  [.keyboard 0x1E, .keyboard 0x30, .keyboard 0x0E, .keyboard 0x1C,
    .call sampleFrame (.read 0 0x8000000 128)] ++ startSecond ++ [.keyboard 0x30, .keyboard 0x3B]

/-- None of the nineteen loops of that run reaches past the end of its buffer. -/
theorem indices_within_sample : ∃ last seen,
    Run (observed (step sampleEnv) reached) (fun state event => KeepsIndices state.1 event)
      (sampleBooted, []) editedRun (last, seen) ∧
    seen.length = 19 ∧ AllFit seen ∧ ∀ t, (last.terminals t).bufIndex ≤ bufsize := by
  -- The run is executed, with the condition decided before each step.
  have given : (replay (observed (step sampleEnv) reached)
      (fun state event => KeepsIndices state.1 event) (sampleBooted, []) editedRun).map
        (fun state => state.2.length) = some 19 := by decide +kernel
  obtain ⟨⟨last, seen⟩, reaches, length⟩ := Option.map_eq_some_iff.mp given
  have run := replay_run reaches
  obtain ⟨-, saved, fit, -⟩ := indices_within sample_boot run
  exact ⟨last, seen, run, length, fit, saved⟩

/-- Enter on an empty line adds one to the index of the displayed terminal. -/
theorem enter_empty {b : LineBuffers} (none : b.count = 0) (empty : b.bufIndex = 0) :
    b.enter.front.bufIndex = b.front.bufIndex + 1 := by
  -- The counter is zero, so the newline is stored and counted.
  have goes : ¬ b.count = bufsize := by
    rw [none]
    decide
  have typed : (b.type 0x0A).bufIndex = 1 := by
    unfold LineBuffers.type
    rw [if_neg goes]
    exact congrArg (· + 1) empty
  have shown : b.enter.displayed = b.displayed := (LineBuffers.type_mailboxes 0x0A).2
  have added := congrArg Mailbox.bufIndex (LineBuffers.enter_front (b := b))
  rw [typed] at added
  unfold LineBuffers.front at added ⊢
  rw [shown]
  exact added

/-- Enter, pressed again and again, adds up in the mailbox. -/
theorem enters_add (n : Nat) : ∃ last,
    Run (step sampleEnv) Always sampleBooted (List.replicate n (.keyboard 0x1C)) last ∧
      last.lines.count = 0 ∧ last.lines.bufIndex = 0 ∧ last.lines.front.bufIndex = n ∧
      ScreenOnly sampleBooted last := by
  -- Nothing is read in between, so no press is undone.
  induction n with
  | zero => exact ⟨sampleBooted, .nil _, rfl, rfl, rfl, ScreenOnly.refl _⟩
  | succ n ih =>
    obtain ⟨last, run, none, empty, index, same⟩ := ih
    have entered : (printKeyboard last 0x1C).lines = last.lines.enter :=
      lines_printKeyboard last 0x1C
    -- The line that is handed over is the newline.
    have line : (prout last 0x0A).keyboard.bufIndex ≤ bufsize := by
      have typed := congrArg LineBuffers.bufIndex (lines_prout last 0x0A)
      have goes : ¬ last.lines.count = bufsize := by
        rw [none]
        decide
      rw [LineBuffers.type, if_neg goes] at typed
      rw [show (prout last 0x0A).keyboard.bufIndex = last.lines.bufIndex + 1 from typed, empty]
      decide
    have pressed : step sampleEnv last (.keyboard 0x1C) = some (printKeyboard last 0x1C) :=
      step_key ⟨line, KeyAction.noConfusion⟩
    refine ⟨printKeyboard last 0x1C, ?_, ?_, ?_, ?_, ?_⟩
    · rw [List.replicate_succ']
      exact run.snoc trivial pressed
    · rw [entered]
      rfl
    · rw [entered]
      rfl
    · rw [entered, enter_empty none empty, index]
    · exact same.trans (screenOnly_printKeyboard last 0x1C)

/-- After 129 times Enter the index is past the end of the buffer, and so is what the next read clears. -/
theorem index_overruns : ∃ last,
    Run (step sampleEnv) Always sampleBooted (List.replicate 129 (.keyboard 0x1C)) last ∧
      bufsize < last.displayed.bufIndex ∧
      ∃ extent ∈ extents last (.call sampleFrame (.read 0 0x8000000 128)), bufsize < extent := by
  -- Nothing but the line buffers matters, and these are known after any number of presses.
  obtain ⟨last, run, -, -, index, same⟩ := enters_add 129
  have counted : last.displayed.bufIndex = 129 := index
  have running : last.scheduled.curPcb = sampleBooted.scheduled.curPcb :=
    same.agree (fun k => k.scheduled.curPcb) fun _ => rfl
  have block : last.curPcb = sampleBooted.curPcb := same.agree Kernel.curPcb fun _ => rfl
  -- The first shell still reads from its terminal.
  have takes : TakesLine last (.call sampleFrame (.read 0 0x8000000 128)) := by
    simp only [TakesLine, running, block]
    decide +kernel
  have past : bufsize < last.displayed.bufIndex := by
    rw [counted]
    decide
  have reaches : extents last (.call sampleFrame (.read 0 0x8000000 128)) = readExtents last :=
    if_pos takes
  refine ⟨last, run, past, last.displayed.bufIndex, ?_, past⟩
  rw [reaches]
  exact List.mem_cons_of_mem _ (List.mem_cons_of_mem _ (List.mem_singleton.mpr rfl))

end SmallOs
