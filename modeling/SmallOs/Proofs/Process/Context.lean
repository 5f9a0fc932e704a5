import SmallOs.Proofs.Process.AddressSpace

/-! From which context a tick resumes a terminal, and where that terminal really stopped. -/

namespace SmallOs

open Foundation

/-- How a terminal's thread last left the processor. -/
inductive Departure where
  | never
  /-- `do_switch` saved its registers. -/
  | switched
  /-- A call put another terminal in its place. -/
  | displaced
  deriving DecidableEq

/-- What an observer of the processor remembers of each terminal. -/
structure History where
  /-- The stack and base pointers at which the terminal last stopped running. -/
  lastStop : Terminal → Option (Nat × Nat)
  left : Terminal → Departure

namespace History

/-- At boot no terminal has stopped yet. -/
def initial : History :=
  ⟨fun _ => none, fun _ => .never⟩

/-- The running terminal stops. -/
def stop (h : History) (t : Terminal) (registers : Nat × Nat) (how : Departure) : History :=
  ⟨Function.update h.lastStop t (some registers), Function.update h.left t how⟩

/-- What the observer remembers after a step. -/
def after (h : History) (s : Kernel) (event : Event) (next : Kernel) : History :=
  match event with
  | .pit esp ebp => h.stop s.currTerminal (esp, ebp) .switched
  | .call frame _ =>
    -- A call takes the processor from its terminal when it runs another one instead.
    if next.currTerminal = s.currTerminal then h
    else h.stop s.currTerminal (frame.esp, frame.ebp) .displaced
  | _ => h

end History

/-- The machine together with its observer. -/
def observedStep (env : Env) (state : Kernel × History) (event : Event) :
    Option (Kernel × History) :=
  (step env state.1 event).map fun next => (next, state.2.after state.1 event next)

/-- A tick resumes the terminal it interrupts, or one whose registers `do_switch` saved when it left. -/
def ResumesSaved (state : Kernel × History) : Event → Prop
  | .pit _ _ => pickTerminal state.1 = state.1.currTerminal ∨
      state.2.left (pickTerminal state.1) = .switched
  | _ => True

instance (state : Kernel × History) : (event : Event) → Decidable (ResumesSaved state event)
  | .pit _ _ =>
    inferInstanceAs (Decidable (pickTerminal state.1 = state.1.currTerminal ∨
      state.2.left (pickTerminal state.1) = .switched))
  | .keyboard _ | .rtc | .call _ _ => inferInstanceAs (Decidable True)

/-- The registers a record holds are those at which its terminal stopped in `do_switch`. -/
def ContextsSaved (state : Kernel × History) : Prop :=
  ∀ t, state.2.left t = .switched → state.2.lastStop t =
    some ((state.1.terminals t).currentEsp, (state.1.terminals t).currentEbp)

/-- Calls, keys, and clock interrupts leave the saved registers alone. -/
theorem saved_registers_kept {env : Env} {s next : Kernel} {event : Event}
    (taken : step env s event = some next) (noTick : ∀ esp ebp, event ≠ .pit esp ebp) (t : Terminal) :
    (next.terminals t).slot.registers = (s.terminals t).slot.registers := by
  -- The registers are compared through the slots of the processes before and after.
  have through : ∀ ps : Processes, next.processes = ps →
      (ps.slots t).registers = (s.processes.slots t).registers →
      (next.terminals t).slot.registers = (s.terminals t).slot.registers := by
    intro ps same kept
    rw [← same] at kept
    exact kept
  -- `execute` and `halt` write the records of terminals, but other fields of them.
  cases step_cases taken with
  | quiet kept _ => exact through _ kept.processes rfl
  | tick => exact absurd rfl (noTick _ _)
  | enter entered => exact through _ entered.processes.2 (Processes.spawn_registers ..)
  | finish _ mapped halted =>
    cases halted with
    | child above => exact through _ (child_processes s) (Processes.resume_registers ..)
    | stranded base refused =>
      exact through _ (stranded_processes base refused) (by simp)
    | restarted base entered =>
      exact through _ (restarted_processes entered).2 (by simp)

/-- After a tick the interrupted terminal has the registers it was interrupted with. -/
theorem pitHandler_registers (s : Kernel) (esp ebp : Nat) (t : Terminal) :
    ((pitHandler s esp ebp).terminals t).slot.registers =
      if t = s.currTerminal then (esp, ebp) else (s.terminals t).slot.registers := by
  have record := congrArg (fun ps => (ps.slots t).registers) (pitHandler_processes s esp ebp)
  exact record.trans (s.processes.tick_registers t _ esp ebp)

/-- Stopping a terminal with its registers in place keeps the contexts. -/
theorem ContextsSaved.step {env : Env} {state next : Kernel × History} {event : Event}
    (saved : ContextsSaved state) (taken : observedStep env state event = some next) :
    ContextsSaved next := by
  -- Only a tick stores registers, and it stores those the observer sees.
  simp only [observedStep, Option.map_eq_some_iff] at taken
  obtain ⟨after, taken, rfl⟩ := taken
  intro t left
  cases event with
  | pit esp ebp =>
    cases taken
    have record := pitHandler_registers state.1 esp ebp t
    by_cases same : t = state.1.currTerminal
    · subst same
      rw [if_pos rfl] at record
      simp only [History.after, History.stop, Function.update_self]
      exact congrArg some record.symm
    · rw [if_neg same] at record
      simp only [History.after, History.stop, Function.update_of_ne same] at left ⊢
      exact (saved t left).trans (congrArg some record.symm)
  | keyboard | rtc =>
    have kept := saved_registers_kept taken (fun _ _ => Event.noConfusion) t
    exact (saved t left).trans (congrArg some kept.symm)
  | call frame request =>
    have kept := saved_registers_kept taken (fun _ _ => Event.noConfusion) t
    simp only [History.after] at left ⊢
    split at left
    · rename_i stays
      rw [if_pos stays]
      exact (saved t left).trans (congrArg some kept.symm)
    · rename_i moved
      rw [if_neg moved]
      by_cases same : t = state.1.currTerminal
      · subst same
        -- A terminal that a call displaced was not switched, so nothing is claimed of it.
        simp [History.stop] at left
      · simp only [History.stop, Function.update_of_ne same] at left ⊢
        exact (saved t left).trans (congrArg some kept.symm)

/-- A tick that meets the condition loads the registers at which the terminal it resumes last stopped. -/
theorem loadedContext_eq {state : Kernel × History} {esp ebp : Nat} (saved : ContextsSaved state)
    (met : ResumesSaved state (.pit esp ebp)) :
    (state.2.after state.1 (.pit esp ebp) (pitHandler state.1 esp ebp)).lastStop
        (pickTerminal state.1) = some (loadedContext state.1 esp ebp) := by
  -- What is loaded is read from the records after the save, so the tick may resume itself.
  have loaded : loadedContext state.1 esp ebp = _ :=
    pitHandler_registers state.1 esp ebp (pickTerminal state.1)
  rw [loaded]
  -- The terminal just saved, or one that was saved when it left before.
  by_cases same : pickTerminal state.1 = state.1.currTerminal
  · rw [same, if_pos rfl]
    simp only [History.after, History.stop, Function.update_self]
  · rw [if_neg same]
    simp only [History.after, History.stop, Function.update_of_ne same]
    exact saved _ (met.resolve_left same)

/--
In every run, a tick that meets the condition resumes its terminal where that terminal last stopped.

The condition is on the state before the tick: the terminal it resumes is the one it interrupts, or
one that last stopped in `do_switch`.
-/
theorem context_resumed {env : Env} {start : Kernel} {state : Kernel × History}
    {events : List Event} {esp ebp : Nat} (booted : boot env = some start)
    (run : Run (observedStep env) Always (start, History.initial) events state)
    (met : ResumesSaved state (.pit esp ebp)) :
    Reachable env state.1 ∧
      (state.2.after state.1 (.pit esp ebp) (pitHandler state.1 esp ebp)).lastStop
        (pickTerminal state.1) = some (loadedContext state.1 esp ebp) := by
  -- At boot nothing was switched, and every step keeps the registers of what was.
  have both := run.invariant (fun state => Reachable env state.1 ∧ ContextsSaved state)
    ⟨⟨start, [], booted, .nil start⟩, fun t left => by simp [History.initial] at left⟩
    fun before event after holds _ taken => by
      have moved := taken
      simp only [observedStep, Option.map_eq_some_iff] at moved
      obtain ⟨next, moved, same⟩ := moved
      refine ⟨?_, holds.2.step taken⟩
      rw [← same]
      exact holds.1.step moved
  exact ⟨both.1, loadedContext_eq both.2 met⟩

/-- The two terminals take turns, and the second one's shell starts another one in its turn. -/
def takeTurns : List Event :=
  startSecond ++ [.pit 300 400, .call sampleFrame (.execute (some shell)), .pit 20 24]

/-- The tick after that interrupts the first terminal and resumes the second where it was left. -/
theorem context_resumed_sample : ∃ state : Kernel × History,
    Run (observedStep sampleEnv) Always (sampleBooted, History.initial) takeTurns state ∧
      state.1.currTerminal = 0 ∧ pickTerminal state.1 = 1 ∧
        loadedContext state.1 500 600 = (20, 24) := by
  -- The run is executed, and the theorem says what the tick after it loads.
  have given : (replay (observedStep sampleEnv) Always (sampleBooted, History.initial)
      takeTurns).map (fun state => decide (state.1.currTerminal = 0 ∧ pickTerminal state.1 = 1 ∧
        ResumesSaved state (.pit 500 600) ∧
        (state.2.after state.1 (.pit 500 600) (pitHandler state.1 500 600)).lastStop 1 =
          some (20, 24))) = some true := by decide +kernel
  obtain ⟨state, reached, facts⟩ := Option.map_eq_some_iff.mp given
  obtain ⟨running, next, met, stopped⟩ := of_decide_eq_true facts
  have run := replay_run reached
  have resumed := (context_resumed sample_boot run met).2
  rw [next] at resumed
  exact ⟨state, run, running, next, Option.some.inj (resumed.symm.trans stopped)⟩

/-- The sample after the second terminal's shell was started. -/
def sampleSecondShell : Kernel :=
  startProcess sampleEnv sampleSecondOpen sampleFrame sampleShell [] 1

theorem sampleSecondShell_step : step sampleEnv sampleSecondOpen
    (.call sampleFrame (.execute (some shell))) = some sampleSecondShell := by
  have parsed : parseCommand shell = some (shell, []) := by decide
  have plain : markFish sampleSecondOpen shell = sampleSecondOpen := if_neg (by decide)
  have found : findProgram sampleEnv.image sampleFrame shell = some (sampleShell, 0x8048018) :=
    sample_found sampleFrame
  have room : ¬ (sampleSecondOpen.displayed.firstProcess ∧ TableFull sampleSecondOpen) := by
    decide +kernel
  have picked : pickProcess sampleSecondOpen = some 1 := by decide +kernel
  have entered := execute_of_found parsed found room picked sample_fits
  rw [plain] at entered
  exact step_execute entered

/-- The first terminal was displaced by that shell, and the next tick resumes it from registers never saved. -/
theorem context_never_saved : ∃ history : History,
    Run (observedStep sampleEnv) Always
      (startProcess sampleEnv (initialKernel sampleEnv) bootFrame sampleShell [] 0,
        History.initial)
      [.keyboard 0x38, .keyboard 0x3C, .call sampleFrame (.execute (some shell))]
      (sampleSecondShell, history) ∧
    pickTerminal sampleSecondShell = 0 ∧
    loadedContext sampleSecondShell 300 400 = (0, 0) ∧
    (history.after sampleSecondShell (.pit 300 400)
      (pitHandler sampleSecondShell 300 400)).lastStop 0 = some (100, 200) := by
  -- `execute` ran on the second terminal, in place of the first one.
  refine ⟨History.initial.stop 0 (100, 200) .displaced, ?_, by decide +kernel, by decide +kernel,
    by decide +kernel⟩
  have first : observedStep sampleEnv (startProcess sampleEnv (initialKernel sampleEnv) bootFrame
      sampleShell [] 0, History.initial) (.keyboard 0x38) = some (printKeyboard (startProcess
        sampleEnv (initialKernel sampleEnv) bootFrame sampleShell [] 0) 0x38,
        History.initial) := rfl
  have second : observedStep sampleEnv (printKeyboard (startProcess sampleEnv
      (initialKernel sampleEnv) bootFrame sampleShell [] 0) 0x38, History.initial)
      (.keyboard 0x3C) = some (sampleSecondOpen, History.initial) := rfl
  have third : observedStep sampleEnv (sampleSecondOpen, History.initial)
      (.call sampleFrame (.execute (some shell))) =
      some (sampleSecondShell, History.initial.stop 0 (100, 200) .displaced) := by
    have running : sampleSecondOpen.currTerminal = 0 := by decide +kernel
    have moved : sampleSecondShell.currTerminal ≠ 0 := by decide +kernel
    simp only [observedStep, sampleSecondShell_step, Option.map_some, History.after, running,
      if_neg moved]
    rfl
  exact .snoc (.snoc (.snoc (.nil _) trivial first) trivial second) trivial third

end SmallOs
