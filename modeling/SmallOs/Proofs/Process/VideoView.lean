import SmallOs.Proofs.Process.Arguments

/-! The user's view of the screen at 132 megabytes: one page table slot for every process. -/

namespace SmallOs

open Foundation

/-- The bits of a paging entry that let a program in: present, and user. -/
def UserBits (entry : Nat) : Prop :=
  entry.testBit 0 = true ∧ entry.testBit 2 = true

instance (entry : Nat) : Decidable (UserBits entry) :=
  inferInstanceAs (Decidable (_ ∧ _))

/-- A program may access the page at 132 megabytes: both levels of its translation let it in. -/
def UserAccessible (s : Kernel) : Prop :=
  UserBits (s.pageDirectory vidPde) ∧ UserBits (s.firstPageTable 0)

instance (s : Kernel) : Decidable (UserAccessible s) :=
  inferInstanceAs (Decidable (_ ∧ _))

/-- The two entries through which the page at 132 megabytes is translated. -/
def Kernel.view (s : Kernel) : Nat × Nat :=
  (s.pageDirectory vidPde, s.firstPageTable 0)

/-- The entries `map_to_vid` writes let programs in. -/
theorem userBits_readWrite (address : Nat) : UserBits (address ||| readWrite) := by
  -- Both bits are set in the constant already.
  have first : readWrite.testBit 0 = true := by decide
  have second : readWrite.testBit 2 = true := by decide
  unfold UserBits
  rw [Nat.testBit_or, Nat.testBit_or, first, second]
  simp

section View

/-- What the user sees and types is translated by no page. -/
theorem ScreenOnly.view {s next : Kernel} (same : ScreenOnly s next) : next.view = s.view :=
  same.agree Kernel.view fun _ => rfl

/-- A plain call other than `vidmap` leaves the view alone. -/
theorem PlainStep.keepsView {s next : Kernel} {request : Call} (step : PlainStep s request next)
    (other : ∀ address, request ≠ .vidmap address) : next.view = s.view := by
  -- Taking a line and writing a text are the changes with code of their own.
  cases step with
  | kept | listing | position | awaited | rate | opened | closed => rfl
  | line => exact (screenOnly_takeLine s).view
  | written => exact (screenOnly_terminalWrite s _ _).view
  | @view address => exact absurd rfl (other address)

/-- The view is one of the parts that only the clock and the plain calls change. -/
theorem view_of_apart {s next : Kernel} (same : next.apart = s.apart) : next.view = s.view :=
  -- The entry of the view is not that of the user page, so the directory still has it.
  Prod.ext (congrFun (congrArg Apart.pageDirectory same) vidPde)
    (congrFun (congrArg Apart.firstPageTable same) 0)

/-- A program that is entered gets a user page, and no view of its own. -/
theorem Entered.view {env : Env} {s next : Kernel} {frame : CallFrame} {command : List Byte}
    {entryPoint : Nat} (entered : Entered env s frame command entryPoint next) :
    next.view = s.view :=
  view_of_apart entered.apart

/-- A timer interrupt maps another user page, and leaves the view as it is. -/
theorem pitHandler_view (s : Kernel) (esp ebp : Nat) : (pitHandler s esp ebp).view = s.view :=
  view_of_apart (pitHandler_apart s esp ebp)

/-- `halt` removes no view. -/
theorem Halted.view {env : Env} {s next : Kernel} {frame : CallFrame} {outcome : Outcome}
    (halted : Halted env s frame outcome next) : next.view = s.view :=
  -- The source has no call that takes the view away.
  view_of_apart halted.apart

end View

/-- Which processes have called `vidmap` with success since they were started. -/
abbrev Views :=
  Nat → Bool

/-- What the observer remembers after a step: successful calls, and programs that are entered. -/
def Views.after (env : Env) (viewed : Views) (s : Kernel) (event : Event) (next : Kernel) : Views :=
  match event with
  | .call _ (.vidmap address) =>
    if InUserPage address then Function.update viewed s.scheduled.currentPid true else viewed
  | .call frame (.execute command) =>
    match execute env s frame command with
    | some (.entered _, _) => Function.update viewed next.scheduled.currentPid false
    | _ => viewed
  | .call frame (.halt _) =>
    match halt env s frame with
    -- A base shell was started again.
    | some (.entered _, _) => Function.update viewed next.scheduled.currentPid false
    | _ => viewed
  | _ => viewed

/-- The page at 132 megabytes belongs to the running process, which asked for it, or to nobody. -/
structure ViewIsolated (env : Env) (s : Kernel) (viewed : Views) : Prop where
  accessible : UserAccessible s ↔
    s.scheduled.firstProcess = true ∧ viewed s.scheduled.currentPid = true
  maps : UserAccessible s → s.pageDirectory vidPde = env.tableAddr ||| readWrite ∧
    s.firstPageTable 0 = videoPtr s.currTerminal ||| readWrite

/-- A command that `execute` finds a program and a slot for. -/
def CanEnter (env : Env) (s : Kernel) (frame : CallFrame) (command : Option (List Byte)) : Prop :=
  ∃ text words program, command = some text ∧ parseCommand text = some words ∧
    findProgram env.image frame words.1 = some program ∧
      ¬ (s.displayed.firstProcess = true ∧ TableFull s)

/--
Views are only asked for on the displayed terminal, and then that process keeps the processor.

Once the page is accessible, no program is entered, no process ends, and every tick picks the
running terminal.
-/
def KeepsView (env : Env) (state : Kernel × Views) : Event → Prop
  | .call _ (.vidmap address) => InUserPage address →
      state.1.scheduled.firstProcess = true ∧ state.1.currentId = state.1.currTerminal
  | .call frame (.execute command) => UserAccessible state.1 → ¬ CanEnter env state.1 frame command
  | .call _ (.halt _) => ¬ UserAccessible state.1
  | .pit _ _ => UserAccessible state.1 → pickTerminal state.1 = state.1.currTerminal
  | _ => True

/-- The invariant: nobody has asked for the view yet, or the running process has. -/
inductive Viewing (env : Env) (s : Kernel) (viewed : Views) : Prop where
  /-- The entry of the region is as it was at boot. -/
  | closed (absent : s.pageDirectory vidPde = nopresentRw) (nobody : ∀ p, viewed p = false)
  /-- Both entries are those `map_to_vid` writes for the running process's terminal. -/
  | «open» (directory : s.pageDirectory vidPde = env.tableAddr ||| readWrite)
      (page : s.firstPageTable 0 = videoPtr s.currTerminal ||| readWrite)
      (runs : s.scheduled.firstProcess = true) (asked : viewed s.scheduled.currentPid = true)

namespace Viewing

variable {env : Env} {s next : Kernel} {viewed : Views}

/-- An entry that is not present lets nobody in. -/
theorem closed_inaccessible (absent : s.pageDirectory vidPde = nopresentRw) :
    ¬ UserAccessible s := by
  rintro ⟨directory, -⟩
  -- The entry at boot has its present bit clear.
  rw [absent] at directory
  exact absurd directory (by decide)

/-- The two entries of an open view let the program in. -/
theorem open_accessible {page : Nat} (directory : s.pageDirectory vidPde = env.tableAddr ||| readWrite)
    (maps : s.firstPageTable 0 = page ||| readWrite) : UserAccessible s := by
  refine ⟨?_, ?_⟩
  · rw [directory]
    exact userBits_readWrite _
  · rw [maps]
    exact userBits_readWrite _

/-- The invariant is what the property asks for. -/
theorem isolated (viewing : Viewing env s viewed) : ViewIsolated env s viewed := by
  cases viewing with
  | closed absent nobody =>
    -- Neither side holds: the entry is absent, and no process has asked.
    have shut := closed_inaccessible absent
    refine ⟨⟨fun accessible => absurd accessible shut, fun asked => ?_⟩,
      fun accessible => absurd accessible shut⟩
    rw [nobody] at asked
    cases asked.2
  | «open» directory page runs asked =>
    -- Both sides hold, and the entries are those of the invariant.
    exact ⟨⟨fun _ => ⟨runs, asked⟩, fun _ => open_accessible directory page⟩,
      fun _ => ⟨directory, page⟩⟩

/-- While the page is not accessible, nobody has asked for it. -/
theorem inaccessible (viewing : Viewing env s viewed) (shut : ¬ UserAccessible s) :
    s.pageDirectory vidPde = nopresentRw ∧ ∀ p, viewed p = false := by
  cases viewing with
  | closed absent nobody => exact ⟨absent, nobody⟩
  | «open» directory page => exact absurd (open_accessible directory page) shut

/-- A step that keeps the view and the running process keeps the invariant. -/
theorem kept (viewing : Viewing env s viewed) (same : next.view = s.view)
    (running : next.currTerminal = s.currTerminal)
    (first : next.scheduled.firstProcess = s.scheduled.firstProcess)
    (current : next.scheduled.currentPid = s.scheduled.currentPid) : Viewing env next viewed := by
  have directory : next.pageDirectory vidPde = s.pageDirectory vidPde := congrArg Prod.fst same
  have page : next.firstPageTable 0 = s.firstPageTable 0 := congrArg Prod.snd same
  cases viewing with
  | closed absent nobody => exact .closed (directory.trans absent) nobody
  | «open» entry maps runs asked =>
    -- The page is named by the running terminal, which is the same.
    refine .open (directory.trans entry) ?_ (first.trans runs) (by rw [current]; exact asked)
    rw [page, running]
    exact maps

/-- A step that keeps the view of nobody keeps the invariant, whoever runs next. -/
theorem keptClosed (viewing : Viewing env s viewed) (shut : ¬ UserAccessible s)
    (same : next.view = s.view) : Viewing env next viewed := by
  obtain ⟨absent, nobody⟩ := viewing.inaccessible shut
  exact .closed ((congrArg Prod.fst same).trans absent) nobody

/-- What nobody has, a new process does not have either. -/
theorem forget (viewing : Viewing env s viewed) (shut : ¬ UserAccessible s) (pid : Nat) :
    Viewing env s (Function.update viewed pid false) := by
  obtain ⟨absent, nobody⟩ := viewing.inaccessible shut
  refine .closed absent fun p => ?_
  by_cases here : p = pid
  · simp [here]
  · simpa [here] using nobody p

/-- A quiet step that leaves the view alone keeps the invariant. -/
theorem quiet (viewing : Viewing env s viewed) (same : next.view = s.view)
    (quiet : Quiet s next) : Viewing env next viewed := by
  -- What is quiet touches no account, so the same process runs on.
  have processes := quiet.processes
  have slot := scheduled_slot processes
  exact viewing.kept same (congrArg Processes.running processes)
    (congrArg Slot.firstProcess slot) (congrArg Slot.currentPid slot)

/-- A tick that picks the running terminal again keeps the invariant. -/
theorem ticked (viewing : Viewing env s viewed) (esp ebp : Nat)
    (same : pickTerminal s = s.currTerminal) : Viewing env (pitHandler s esp ebp) viewed := by
  have processes := pitHandler_processes s esp ebp
  -- The tick saves the stack pointers, and switches to where it came from.
  rw [same] at processes
  have running : (pitHandler s esp ebp).currTerminal = s.currTerminal :=
    congrArg Processes.running processes
  -- The record of the terminal is saved, and otherwise as it was.
  have slots := congrArg (fun ps => ps.slots s.currTerminal) processes
  have slot : (pitHandler s esp ebp).scheduled.slot =
      { s.scheduled.slot with currentEsp := esp, currentEbp := ebp } := by
    unfold Kernel.scheduled
    rw [running]
    exact slots.trans (Function.update_self _ _ _)
  exact viewing.kept (pitHandler_view s esp ebp) running (congrArg Slot.firstProcess slot)
    (congrArg Slot.currentPid slot)

/-- A successful call on the displayed terminal opens the view of the running process. -/
theorem asked (runs : s.scheduled.firstProcess = true)
    (shown : s.currentId = s.currTerminal) :
    Viewing env (mapToVid s env.tableAddr (videoPtr s.currentId))
      (Function.update viewed s.scheduled.currentPid true) := by
  -- `vidmap` maps the page of the displayed terminal, which is the running one here.
  refine .open ?_ ?_ runs ?_
  · simp [mapToVid]
  · simp [mapToVid, shown]
  · exact Function.update_self _ _ _

/-- Every admitted step keeps the invariant. -/
theorem step {event : Event} (viewing : Viewing env s viewed)
    (met : KeepsView env (s, viewed) event) (taken : step env s event = some next) :
    Viewing env next (Views.after env viewed s event next) := by
  -- Only a `vidmap` opens the view; the other steps keep it, or are excluded while it is open.
  cases step_cases taken with
  | quiet kept uneventful =>
    cases event with
    | pit => exact uneventful.elim
    | keyboard scancode =>
      obtain ⟨-, rfl⟩ := key_taken taken
      exact viewing.quiet (screenOnly_printKeyboard s scancode).view kept
    | rtc =>
      cases taken
      exact viewing.quiet rfl kept
    | call frame request =>
      obtain ⟨result, frames, done, -, rfl⟩ := call_taken taken
      cases request with
      | halt => exact uneventful.elim
      | execute command =>
        obtain ⟨⟨outcome, after⟩, executed, rfl⟩ := Option.map_eq_some_iff.mp done
        rcases execute_cases executed with ⟨rfl, failed⟩ | ⟨text, entryPoint, -, rfl, -⟩
        · -- The call failed, so the observer saw no program.
          simp only [Views.after, executed]
          exact viewing.quiet failed.screens.view kept
        · exact absurd executed (uneventful entryPoint after)
      | read | write | «open» | close | getargs =>
        have same : result.kernel.view = s.view :=
          (plain_cases (by exact trivial) done).keepsView fun _ => Call.noConfusion
        exact viewing.quiet same kept
      | vidmap address =>
        simp only [Views.after]
        -- A refused address leaves both the tables and the observer as they were.
        cases vidmap_cases done with
        | mapped accepted =>
          rw [if_pos accepted]
          obtain ⟨runs, shown⟩ := met accepted
          exact (asked runs shown).kept rfl rfl rfl rfl
        | refused outside =>
          rw [if_neg outside]
          exact viewing.kept rfl rfl rfl rfl
  | @tick esp ebp =>
    -- While the view is open the tick may not change processes.
    by_cases accessible : UserAccessible s
    · exact viewing.ticked esp ebp (met accessible)
    · exact viewing.keptClosed accessible (pitHandler_view s esp ebp)
  | enter entered =>
    -- A program that was entered could be entered, which the condition rules out.
    have shut : ¬ UserAccessible s := fun accessible => met accessible
      ⟨_, (entered.fileName, entered.arg), _, rfl, entered.parsed, entered.found, entered.room⟩
    have executed := entered.executed
    simp only [Views.after, executed]
    exact (viewing.forget shut _).keptClosed shut entered.view
  | finish ended mapped halted =>
    -- Nobody has the view, so whoever runs next does not have it either.
    have view := halted.view
    simp only [Views.after, ended]
    cases halted with
    | child | stranded => exact viewing.keptClosed met view
    | restarted => exact (viewing.forget met _).keptClosed met view

/-- At boot the region is absent, and no process has asked for it. -/
theorem booted {start : Kernel} (booted : boot env = some start) :
    Viewing env start fun _ => false := by
  obtain ⟨_, ⟨entered⟩⟩ := boot_entered booted
  have before : (initialKernel env).pageDirectory vidPde = nopresentRw := rfl
  exact .closed ((congrArg Prod.fst entered.view).trans before) fun _ => rfl

end Viewing

/--
The page at 132 megabytes is the running process's own view in every state of an admitted run.

It is accessible exactly when that process has called `vidmap` with success since it was started,
and then it shows the backing page of that process's terminal.
-/
theorem view_isolated {env : Env} {start s : Kernel} {viewed : Views} {events : List Event}
    (booted : boot env = some start)
    (run : Run (observed (step env) (Views.after env)) (KeepsView env) (start, fun _ => false)
      events (s, viewed)) : ViewIsolated env s viewed :=
  Viewing.isolated (run.observed_invariant (Viewing env) (Viewing.booted booted)
    fun _ _ _ _ viewing met taken => viewing.step met taken)

/-- What the first call of the sample's shell does. -/
def sampleView : CallResult :=
  ⟨.returned vidAddr, wordBytes vidAddr,
    mapToVid sampleBooted sampleEnv.tableAddr (videoPtr sampleBooted.currentId)⟩

theorem sampleView_done : vidmap sampleEnv sampleBooted 0x8000000 = some sampleView :=
  vidmap_accepted (by decide) (by decide +kernel)

/-- The sample's first shell after it has asked for its view at the start of its page. -/
def sampleViewed : Kernel :=
  sampleView.stored sampleBooted 0x8000000

theorem sampleViewed_step :
    step sampleEnv sampleBooted (.call sampleFrame (.vidmap 0x8000000)) = some sampleViewed :=
  step_stored sampleView_done rfl (by decide)

/-- The call of the first shell, as its observer sees it. -/
theorem sampleViewed_observed :
    observed (step sampleEnv) (Views.after sampleEnv) (sampleBooted, fun _ => false)
      (.call sampleFrame (.vidmap 0x8000000)) =
        some (sampleViewed, Function.update (fun _ => false) 0 true) := by
  have accepted : InUserPage 0x8000000 := by decide
  have number : sampleBooted.scheduled.currentPid = 0 := by decide +kernel
  simp only [observed, sampleViewed_step, Views.after, if_pos accepted, Option.map_some, number]

/-- The sample's first shell asks for its view and is given it. -/
theorem view_isolated_sample :
    ViewIsolated sampleEnv sampleViewed (Function.update (fun _ => false) 0 true) := by
  have met : KeepsView sampleEnv (sampleBooted, fun _ => false)
      (.call sampleFrame (.vidmap 0x8000000)) := fun _ => by decide +kernel
  exact view_isolated sample_boot (.snoc (.nil _) met sampleViewed_observed)

/-- A child that never asked for a view inherits that of its parent. -/
theorem view_inherited_by_child :
    Run (observed (step sampleEnv) (Views.after sampleEnv)) Always (sampleBooted, fun _ => false)
      [.call sampleFrame (.vidmap 0x8000000),
        .call sampleFrame (.execute (some (sampleArguments 0x78)))]
      (sampleStarted sampleViewed 3 0x78,
        Function.update (Function.update (fun _ => false) 0 true) 3 false) ∧
    ¬ ViewIsolated sampleEnv (sampleStarted sampleViewed 3 0x78)
      (Function.update (Function.update (fun _ => false) 0 true) 3 false) := by
  have picked : pickProcess sampleViewed = some 3 := by decide +kernel
  have entered := sampleStarted_entered 0x78 (by decide +kernel) picked
  have number : (sampleStarted sampleViewed 3 0x78).scheduled.currentPid = 3 := by decide +kernel
  have started : observed (step sampleEnv) (Views.after sampleEnv)
      (sampleViewed, Function.update (fun _ => false) 0 true)
      (.call sampleFrame (.execute (some (sampleArguments 0x78)))) =
        some (sampleStarted sampleViewed 3 0x78,
          Function.update (Function.update (fun _ => false) 0 true) 3 false) := by
    simp only [observed, step_execute entered, Views.after, entered, Option.map_some, number]
  refine ⟨.snoc (.snoc (.nil _) trivial sampleViewed_observed) trivial started, fun isolated => ?_⟩
  -- The child may access the page, and is not the process that asked.
  have accessible : UserAccessible (sampleStarted sampleViewed 3 0x78) := by decide +kernel
  have asked := (isolated.accessible.mp accessible).2
  rw [number] at asked
  simp at asked

end SmallOs
