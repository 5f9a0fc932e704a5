import SmallOs.Proofs.Process.Attribution
import SmallOs.Proofs.Process.Step
import SmallOs.Proofs.Terminal.LineBuffers

/-! The timer's turns: how long an open terminal waits for its own. -/

namespace SmallOs

open Foundation

namespace LineBuffers

variable {b : LineBuffers}

/-- A mailbox that is replaced by one as open as it was changes no other flag either. -/
theorem deliver_isOpen (box : Mailbox) (same : box.isOpen = b.front.isOpen) (t : Terminal) :
    ((b.deliver box).mailboxes t).isOpen = (b.mailboxes t).isOpen := by
  by_cases here : t = b.displayed
  · subst here
    rw [deliver_front, same]
    rfl
  · rw [deliver_other box here]

/-- Enter opens and closes no terminal. -/
theorem enter_isOpen (t : Terminal) : (b.enter.mailboxes t).isOpen = (b.mailboxes t).isOpen := by
  by_cases here : t = b.displayed
  · subst here
    rw [enter_front]
    rfl
  · rw [enter_other here]

/-- Neither does putting a line away. -/
theorem leave_isOpen (t : Terminal) : (b.leave.mailboxes t).isOpen = (b.mailboxes t).isOpen :=
  -- The line goes into the mailbox, and the flag beside it stays.
  deliver_isOpen { b.front with
    buf := fun i =>
      if i < b.bufIndex then b.keyboardbuf i else if i < bufsize then 0 else b.front.buf i
    bufIndex := b.bufIndex } rfl t

/-- Neither does taking a line. -/
theorem take_isOpen (t : Terminal) : (b.take.mailboxes t).isOpen = (b.mailboxes t).isOpen :=
  deliver_isOpen { b.front with
    buf := fun i => if i < b.front.bufIndex ∧ i < bufsize then 0 else b.front.buf i
    bufIndex := 0
    readFlag := false } rfl t

/-- The first terminal is open, and so is the displayed one. -/
structure Opened (b : LineBuffers) : Prop where
  first : (b.mailboxes 0).isOpen = true
  shown : (b.mailboxes b.displayed).isOpen = true

/-- A terminal displayed for the first time is open from then on, as is what was open before. -/
theorem start_isOpen {u t : Terminal} (opened : u = t ∨ (b.mailboxes u).isOpen = true) :
    ((b.start t).mailboxes u).isOpen = true := by
  by_cases here : u = t
  · subst here
    have box : (b.start u).mailboxes u = { b.mailboxes u with isOpen := true } :=
      Function.update_self _ _ _
    rw [box]
  · rcases opened with same | opened
    · exact absurd same here
    · exact (congrArg Mailbox.isOpen (Function.update_of_ne here _ _)).trans opened

/-- A key closes no terminal. -/
theorem key_isOpen (erases : Bool) (action : KeyAction) {t : Terminal}
    (opened : (b.mailboxes t).isOpen = true) :
    ((b.key erases action).mailboxes t).isOpen = true := by
  cases action with
  | char c =>
    obtain ⟨boxes, -⟩ := type_mailboxes (b := b) c
    rw [LineBuffers.key, boxes, opened]
  | backspace =>
    simp only [LineBuffers.key, erase]
    split
    · split
      · exact opened
      · exact opened
    · exact opened
  | enter => exact (enter_isOpen t).trans opened
  | clear => exact opened
  | display u =>
    -- The line is put away before the other terminal is displayed, if there is another one.
    have left := (leave_isOpen t).trans opened
    simp only [LineBuffers.key, LineBuffers.display]
    split
    · exact opened
    · split
      · exact left
      · exact start_isOpen (.inr left)
  | nothing => exact opened

/-- After a key the displayed terminal is open. -/
theorem Opened.key (open' : b.Opened) (erases : Bool) (action : KeyAction) :
    (b.key erases action).Opened := by
  refine ⟨key_isOpen erases action open'.first, ?_⟩
  -- Only a function key displays another terminal, so every other key keeps the old one.
  have kept : ∀ next : Terminal, (b.key erases action).displayed = next →
      (b.mailboxes next).isOpen = true →
        ((b.key erases action).mailboxes (b.key erases action).displayed).isOpen = true := by
    intro next shown opened
    rw [shown]
    exact key_isOpen erases action opened
  cases action with
  | char c => exact kept _ (type_mailboxes (b := b) c).2 open'.shown
  | backspace =>
    refine kept b.displayed ?_ open'.shown
    simp only [LineBuffers.key, erase]
    split
    · split <;> rfl
    · rfl
  | enter => exact kept _ (type_mailboxes (b := b) 0x0A).2 open'.shown
  | clear => exact kept _ rfl open'.shown
  | display t =>
    simp only [LineBuffers.key, LineBuffers.display]
    split
    · exact open'.shown
    · split
      · rename_i known
        -- What is restored is the first terminal, or was open.
        rcases known with rfl | opened
        · exact (leave_isOpen 0).trans open'.first
        · exact (leave_isOpen t).trans opened
      · exact start_isOpen (.inl rfl)
  | nothing => exact kept _ rfl open'.shown

end LineBuffers

section Open

variable {env : Env} {s next : Kernel} {event : Event}

/-- No step closes a terminal. -/
theorem isOpen_of_step (taken : step env s event = some next) {t : Terminal}
    (opened : (s.terminals t).isOpen = true) : (next.terminals t).isOpen = true := by
  have before : (s.lines.mailboxes t).isOpen = true := opened
  suffices after : (next.lines.mailboxes t).isOpen = true from after
  cases line_cases taken with
  | key scancode =>
    rw [lines_printKeyboard]
    exact LineBuffers.key_isOpen _ _ before
  | taken _ _ _ frames after =>
    -- A reader empties the mailbox of the displayed terminal.
    have lines : next.lines = s.lines.take := by
      rw [after]
      exact lines_takeLine s
    rw [lines]
    exact (LineBuffers.take_isOpen t).trans before
  | other _ _ kept => rwa [kept]

/-- Every step displays an open terminal. -/
theorem opened_of_step (opened : s.lines.Opened) (taken : step env s event = some next) :
    next.lines.Opened := by
  cases line_cases taken with
  | key scancode =>
    rw [lines_printKeyboard]
    exact opened.key _ _
  | taken _ _ _ frames after =>
    have lines : next.lines = s.lines.take := by
      rw [after]
      exact lines_takeLine s
    rw [lines]
    exact ⟨(LineBuffers.take_isOpen 0).trans opened.first,
      (LineBuffers.take_isOpen s.lines.displayed).trans opened.shown⟩
  | other _ _ kept => rwa [kept]

end Open

section Turn

variable {env : Env} {s next : Kernel} {event : Event}

/-- The terminal that runs, and the one the timer picked last. -/
def Kernel.turn (s : Kernel) : Terminal × Terminal :=
  (s.currTerminal, s.nextTerminal)

theorem Quiet.turn (quiet : Quiet s next) : next.turn = s.turn := by
  induction quiet with
  | screens same => exact same.agree Kernel.turn fun _ => rfl
  | clock | listing | descriptor | view => rfl
  | stored _ _ ih => exact ih

/-- A program that is entered runs on the displayed terminal, whoever had the turn. -/
theorem Entered.turn {frame : CallFrame} {command : List Byte} {entryPoint : Nat}
    (entered : Entered env s frame command entryPoint next) :
    next.turn = (s.currentId, s.nextTerminal) := by
  -- The timer's own variable is read and written by the timer only.
  have named : (markFish s entered.fileName).nextTerminal = s.nextTerminal :=
    (screenOnly_markFish s _).agree Kernel.nextTerminal fun _ => rfl
  refine Prod.ext (congrArg Processes.running entered.processes.2) ?_
  exact (congrArg Kernel.nextTerminal entered.started).trans named

/-- After a tick the terminal that was picked runs. -/
theorem pitHandler_turn (s : Kernel) (esp ebp : Nat) :
    (pitHandler s esp ebp).turn = (pickTerminal s, pickTerminal s) := by
  have next : (pitHandler s esp ebp).nextTerminal = pickTerminal s :=
    (screenOnly_refreshFish _).agree Kernel.nextTerminal fun _ => rfl
  exact Prod.ext (congrArg Processes.running (pitHandler_processes s esp ebp)) next

/-- Besides the timer only a program that is entered takes the turn, to the displayed terminal. -/
theorem turn_cases (taken : step env s event = some next) :
    (∃ esp ebp, event = .pit esp ebp ∧ next = pitHandler s esp ebp) ∨
      ((∀ esp ebp, event ≠ .pit esp ebp) ∧
        (next.turn = s.turn ∨ next.turn = (s.currentId, s.nextTerminal))) := by
  cases step_cases taken with
  | quiet kept uneventful =>
    -- A quiet step is none of the timer's.
    refine .inr ⟨fun esp ebp same => ?_, .inl kept.turn⟩
    subst same
    exact uneventful
  | tick => exact .inl ⟨_, _, rfl, rfl⟩
  | enter entered => exact .inr ⟨fun _ _ => Event.noConfusion, .inr entered.turn⟩
  | finish ended mapped halted =>
    refine .inr ⟨fun _ _ => Event.noConfusion, ?_⟩
    cases halted with
    | child => exact .inl rfl
    | stranded base refused =>
      -- The restart that failed printed a text at most.
      exact .inl (refused.screens.agree Kernel.turn fun _ => rfl)
    | restarted base entered => exact .inr entered.turn

/-- The invariant of the timer: what runs, what was picked last, and what is displayed are open. -/
structure Turning (s : Kernel) : Prop where
  lines : s.lines.Opened
  running : (s.terminals s.currTerminal).isOpen = true
  picked : (s.terminals s.nextTerminal).isOpen = true

/-- The timer picks an open terminal. -/
theorem pickTerminal_isOpen (inv : Turning s) : (s.terminals (pickTerminal s)).isOpen = true := by
  unfold pickTerminal
  split
  · assumption
  · split
    · assumption
    · exact inv.picked

theorem Turning.step (inv : Turning s) (taken : step env s event = some next) : Turning next := by
  have turn : (s.terminals next.turn.1).isOpen = true ∧
      (s.terminals next.turn.2).isOpen = true := by
    -- The turn stays, goes to the terminal that was picked, or to the displayed one.
    rcases turn_cases taken with ⟨esp, ebp, -, rfl⟩ | ⟨-, same | entered⟩
    · rw [pitHandler_turn]
      exact ⟨pickTerminal_isOpen inv, pickTerminal_isOpen inv⟩
    · rw [same]
      exact ⟨inv.running, inv.picked⟩
    · rw [entered]
      exact ⟨inv.lines.shown, inv.picked⟩
  exact ⟨opened_of_step inv.lines taken, isOpen_of_step taken turn.1, isOpen_of_step taken turn.2⟩

/-- How many turns a terminal is away from its own, where a running one has a whole round to go. -/
def ahead (current t : Terminal) : Nat :=
  if t = current + 1 then 1 else if t = current + 2 then 2 else 3

/-- Away from the running terminal nobody is further than two turns. -/
theorem ahead_le_two {current t : Terminal} (other : current ≠ t) : ahead current t ≤ 2 := by
  revert current t
  decide

/-- A tick brings an open terminal closer to its turn, or gives it. -/
theorem ahead_pick (inv : Turning s) {t : Terminal} (opened : (s.terminals t).isOpen = true)
    (other : pickTerminal s ≠ t) : ahead (pickTerminal s) t + 1 ≤ ahead s.currTerminal t := by
  -- The numbers of the terminals wrap, and the two sides are counted on all three of them.
  have near : ∀ c : Terminal, ahead c (c + 1) = 1 ∧ ahead c (c + 2) = 2 ∧ ahead c c = 3 ∧
      ahead (c + 1) (c + 2) = 1 ∧ ahead (c + 1) c = 2 ∧ ahead (c + 2) c = 1 := by decide
  have places : ∀ c u : Terminal, u = c + 1 ∨ u = c + 2 ∨ u = c := by decide
  obtain ⟨one, two, round, second, third, last⟩ := near s.currTerminal
  by_cases first : (s.terminals (s.currTerminal + 1)).isOpen = true
  · have picks : pickTerminal s = s.currTerminal + 1 := if_pos first
    rw [picks] at other ⊢
    rcases places s.currTerminal t with rfl | rfl | rfl
    · exact absurd rfl other
    · omega
    · omega
  · by_cases next : (s.terminals (s.currTerminal + 2)).isOpen = true
    · have picks : pickTerminal s = s.currTerminal + 2 :=
        (if_neg first).trans (if_pos next)
      rw [picks] at other ⊢
      rcases places s.currTerminal t with rfl | rfl | rfl
      · exact absurd opened first
      · exact absurd rfl other
      · omega
    · -- Nobody else is open, so the last pick can only have been the running terminal.
      have picks : pickTerminal s = s.nextTerminal := (if_neg first).trans (if_neg next)
      have alone : ∀ u : Terminal, (s.terminals u).isOpen = true → u = s.currTerminal := by
        intro u up
        rcases places s.currTerminal u with rfl | rfl | same
        · exact absurd up first
        · exact absurd up next
        · exact same
      rw [picks, alone _ inv.picked] at other
      exact absurd (alone t opened).symm other

end Turn

/-- The wait of a terminal since it ran: ticks that passed it over, and turns programs took. -/
structure Waiting where
  passed : Nat
  taken : Nat
  deriving DecidableEq

/-- What an observer of one terminal counts: a terminal that is not open yet waits for nothing. -/
def Waiting.after (t : Terminal) (waiting : Waiting) (s : Kernel) (event : Event) (next : Kernel) :
    Waiting :=
  if next.currTerminal = t ∨ (s.terminals t).isOpen = false then ⟨0, 0⟩
  else match event with
    | .pit _ _ => { waiting with passed := waiting.passed + 1 }
    | _ =>
      if next.currTerminal = s.currTerminal then waiting
      else { waiting with taken := waiting.taken + 1 }

/-- The turn comes to the terminal, or the terminal was not open. -/
theorem Waiting.after_here {t : Terminal} {waiting : Waiting} {s next : Kernel} {event : Event}
    (here : next.currTerminal = t ∨ (s.terminals t).isOpen = false) :
    waiting.after t s event next = ⟨0, 0⟩ :=
  if_pos here

/-- The turn is elsewhere, and not because of the timer. -/
theorem Waiting.after_other {t : Terminal} {waiting : Waiting} {s next : Kernel} {event : Event}
    (away : ¬ (next.currTerminal = t ∨ (s.terminals t).isOpen = false))
    (silent : ∀ esp ebp, event ≠ .pit esp ebp) :
    waiting.after t s event next =
      if next.currTerminal = s.currTerminal then waiting
      else { waiting with taken := waiting.taken + 1 } := by
  unfold Waiting.after
  rw [if_neg away]
  cases event with
  | pit esp ebp => exact absurd rfl (silent esp ebp)
  | keyboard | rtc | call => rfl

section Waits

variable {env : Env} {s next : Kernel} {event : Event} {t : Terminal} {waiting : Waiting}

/-- The invariant of one terminal: ticks bring it closer to its turn, and programs take it away. -/
structure Waits (t : Terminal) (s : Kernel) (waiting : Waiting) : Prop where
  turning : Turning s
  counted : waiting.passed + ahead s.currTerminal t ≤ waiting.taken + 3

theorem ahead_pos (current t : Terminal) : 1 ≤ ahead current t ∧ ahead current t ≤ 3 := by
  revert current t
  decide

theorem Waits.step (inv : Waits t s waiting) (taken : step env s event = some next) :
    Waits t next (waiting.after t s event next) := by
  have turning := inv.turning.step taken
  have counted := inv.counted
  obtain ⟨near, far⟩ := ahead_pos next.currTerminal t
  by_cases here : next.currTerminal = t ∨ (s.terminals t).isOpen = false
  · -- The wait is over, or has not begun, and a whole round is the longest one.
    rw [Waiting.after_here here]
    exact ⟨turning, by simpa using far⟩
  obtain ⟨away, up⟩ := not_or.mp here
  have opened : (s.terminals t).isOpen = true := Bool.of_not_eq_false up
  rcases turn_cases taken with ⟨esp, ebp, rfl, rfl⟩ | ⟨silent, -⟩
  · -- A tick goes to another terminal, which is nearer to this one.
    have picks : (pitHandler s esp ebp).currTerminal = pickTerminal s :=
      congrArg Prod.fst (pitHandler_turn s esp ebp)
    simp only [Waiting.after, if_neg here]
    rw [picks] at away
    have closer := ahead_pick inv.turning opened away
    refine ⟨turning, ?_⟩
    rw [picks]
    simp only
    omega
  · rw [Waiting.after_other here silent]
    split
    · rename_i same
      exact ⟨turning, by rw [same]; exact counted⟩
    · -- The turn was taken to the displayed terminal, and this one is two turns away at most.
      have before := (ahead_pos s.currTerminal t).1
      have after := ahead_le_two away
      refine ⟨turning, ?_⟩
      simp only
      omega

/-- While no other terminal is open, the timer falls back on the running one. -/
theorem pickTerminal_alone (inv : Turning s)
    (alone : ∀ u, u ≠ s.currTerminal → (s.terminals u).isOpen = false) :
    pickTerminal s = s.currTerminal := by
  -- What is picked is open, the stale number of the last pick included.
  by_contra other
  have shut := alone _ other
  rw [pickTerminal_isOpen inv] at shut
  cases shut

/-- At boot the first terminal is open, displayed and running. -/
theorem turning_boot {start : Kernel} (booted : boot env = some start) : Turning start := by
  obtain ⟨entryPoint, ⟨entered⟩⟩ := boot_entered booted
  have first : ((initialKernel env).lines.mailboxes 0).isOpen = true := rfl
  have lines := entered.lines
  have opened : (start.lines.mailboxes 0).isOpen = true := by rw [lines, first]
  have turn := entered.turn
  refine ⟨⟨opened, ?_⟩, ?_, ?_⟩
  · rw [lines]
    exact first
  · rw [show start.currTerminal = 0 from congrArg Prod.fst turn]
    exact opened
  · rw [show start.nextTerminal = 0 from congrArg Prod.snd turn]
    exact opened

/--
An open terminal's turn comes around.

The timer passes it over at most twice, and once more for each program that was entered on another
terminal than the running one in the meantime. With no other terminal open, the running one goes on.
-/
theorem turn_comes_around {start : Kernel} {labels : List Event} (booted : boot env = some start)
    (run : Run (observed (step env) (Waiting.after t)) Always (start, ⟨0, 0⟩) labels (s, waiting)) :
    (s.terminals s.currTerminal).isOpen = true ∧ waiting.passed ≤ waiting.taken + 2 ∧
      ((∀ u, u ≠ s.currTerminal → (s.terminals u).isOpen = false) →
        pickTerminal s = s.currTerminal) := by
  have inv := run.observed_invariant (Waits t)
    ⟨turning_boot booted, by simpa using (ahead_pos start.currTerminal t).2⟩
    fun before memory event after held _ taken => held.step taken
  have near := (ahead_pos s.currTerminal t).1
  have counted := inv.counted
  exact ⟨inv.turning.running, by omega, pickTerminal_alone inv.turning⟩

/-- The second terminal's shell takes the first one's turn, and the third terminal gets the next one. -/
theorem turn_comes_around_sample : ∃ s waiting,
    Run (observed (step sampleEnv) (Waiting.after 0)) Always (sampleBooted, ⟨0, 0⟩)
      [.keyboard 0x38, .keyboard 0x3C, .call sampleFrame (.execute (some shell)), .keyboard 0x3D,
        .pit 8 12] (s, waiting) ∧
    waiting = ⟨1, 1⟩ ∧ s.currTerminal = 2 ∧ (s.terminals s.currTerminal).isOpen = true ∧
      waiting.passed ≤ waiting.taken + 2 := by
  have given : (replay (observed (step sampleEnv) (Waiting.after 0)) Always (sampleBooted, ⟨0, 0⟩)
      [.keyboard 0x38, .keyboard 0x3C, .call sampleFrame (.execute (some shell)), .keyboard 0x3D,
        .pit 8 12]).map (fun state => (state.2, state.1.currTerminal)) = some (⟨1, 1⟩, 2) := by
    decide +kernel
  obtain ⟨⟨s, waiting⟩, reached, same⟩ := Option.map_eq_some_iff.mp given
  obtain ⟨counted, running⟩ := Prod.ext_iff.mp same
  have run := replay_run reached
  obtain ⟨opened, bounded, -⟩ := turn_comes_around sample_boot run
  exact ⟨s, waiting, run, counted, running, opened, bounded⟩

end Waits

end SmallOs
