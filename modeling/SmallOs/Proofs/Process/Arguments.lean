import SmallOs.Proofs.Process.Accounting

/-! Whose arguments `getargs` tests, and whose it copies. -/

namespace SmallOs

open Foundation

/-- The part of a command after its first space. -/
def argumentsOf (command : Option (List Byte)) : List Byte :=
  ((command.getD []).dropWhile (· ≠ 0x20)).drop 1

/-- What an observer remembers of the processes started so far. -/
structure Starts where
  /-- The arguments of the process last started in each slot. -/
  arguments : Nat → List Byte
  /-- The slot of the process last started or ended. -/
  last : Nat

namespace Starts

/-- At boot the first shell was started without arguments. -/
def initial : Starts :=
  ⟨fun _ => [], 0⟩

/-- A process is started. -/
def start (h : Starts) (pid : Nat) (arguments : List Byte) : Starts :=
  ⟨Function.update h.arguments pid arguments, pid⟩

/-- What the observer remembers after a step. -/
def after (env : Env) (h : Starts) (s : Kernel) (event : Event) (next : Kernel) : Starts :=
  match event with
  | .call frame (.execute command) =>
    match execute env s frame command with
    | some (.entered _, _) => h.start next.scheduled.currentPid (argumentsOf command)
    | _ => h
  | .call frame (.halt _) =>
    match halt env s frame with
    -- A base shell that ends is started again, without arguments.
    | some (.entered _, _) => h.start next.scheduled.currentPid []
    | _ => { h with last := s.curPcb.pid }
  | _ => h

end Starts

/-- The control block of a slot still holds what its last process was started with. -/
structure Recorded (given : Nat → List Byte) (ps : Processes) (p : Nat) : Prop where
  slot : p < maxProcesses
  pid : (ps.blocks (pcbAddr p)).pid = p
  pcbArg : (ps.blocks (pcbAddr p)).pcbArg = given p
  argSize : (ps.blocks (pcbAddr p)).argSize = (given p).length

/-- A record is read from the control blocks alone. -/
theorem Recorded.congr {given : Nat → List Byte} {ps ps' : Processes} {p : Nat}
    (recorded : Recorded given ps p) (blocks : ps'.blocks = ps.blocks) : Recorded given ps' p := by
  obtain ⟨slot, pid, pcbArg, argSize⟩ := recorded
  rw [← blocks] at pid pcbArg argSize
  exact ⟨slot, pid, pcbArg, argSize⟩

/-- Every live process, and every control block a terminal can still point at, is recorded. -/
structure Remembered (given : Nat → List Byte) (ps : Processes) : Prop where
  live : ∀ p, ps.Live p → Recorded given ps p
  pointed : ∀ t, Mapped (ps.slots t).curPcb →
    ∃ p, Recorded given ps p ∧ (ps.slots t).curPcb = pcbAddr p

namespace Remembered

variable {given : Nat → List Byte} {ps ps' : Processes}

/-- A new process is recorded, and its slot is the only one that is overwritten. -/
theorem spawn (kept : Remembered given ps) {t : Terminal} {pid : Nat} (slot : pid < maxProcesses)
    (frame : CallFrame) (arg : List Byte) :
    Remembered (Function.update given pid arg) (ps.spawn t pid frame arg) ∧
      Recorded (Function.update given pid arg) (ps.spawn t pid frame arg) pid := by
  -- `execute` itself fills the control block of the slot, so this record needs no premise.
  have fresh : Recorded (Function.update given pid arg) (ps.spawn t pid frame arg) pid := by
    refine ⟨slot, ?_, ?_, ?_⟩ <;> simp [Processes.spawn_block]
  -- Any other recorded slot keeps its control block and its memory.
  have others : ∀ p, Recorded given ps p →
      Recorded (Function.update given pid arg) (ps.spawn t pid frame arg) p := by
    intro p old
    by_cases same : p = pid
    · exact same ▸ fresh
    · have apart : pcbAddr p ≠ pcbAddr pid := fun equal => same (pcbAddr_inj old.slot slot equal)
      have block := ps.spawn_block_other t pid frame arg apart
      have memory : Function.update given pid arg p = given p := Function.update_of_ne same _ _
      exact ⟨old.slot, by rw [block, old.pid], by rw [block, memory, old.pcbArg],
        by rw [block, memory, old.argSize]⟩
  refine ⟨⟨fun p alive => ?_, fun u mapped => ?_⟩, fresh⟩
  · by_cases same : p = pid
    · exact same ▸ fresh
    · exact others p (kept.live p (Processes.live_of_spawn same alive))
  · -- The running terminal is the only one whose pointer moves, and it moves to the new block.
    by_cases here : u = t
    · subst here
      exact ⟨pid, fresh, by rw [Processes.spawn_slot]⟩
    · rw [ps.spawn_slot_other t pid frame arg here] at mapped ⊢
      obtain ⟨p, old, pointer⟩ := kept.pointed u mapped
      exact ⟨p, others p old, pointer⟩

/-- Changes that start nothing, and point terminals at recorded blocks only, keep the memory. -/
theorem congr (kept : Remembered given ps) (blocks : ps'.blocks = ps.blocks)
    (live : ∀ p, ps'.Live p → ps.Live p)
    (slots : ∀ t, (ps'.slots t).curPcb = (ps.slots t).curPcb ∨ (Mapped (ps'.slots t).curPcb →
      ∃ p, Recorded given ps p ∧ (ps'.slots t).curPcb = pcbAddr p)) : Remembered given ps' := by
  refine ⟨fun p alive => (kept.live p (live p alive)).congr blocks, fun t mapped => ?_⟩
  rcases slots t with pointer | moved
  · rw [pointer] at mapped ⊢
    obtain ⟨p, old, home⟩ := kept.pointed t mapped
    exact ⟨p, old.congr blocks, home⟩
  · obtain ⟨p, old, home⟩ := moved mapped
    exact ⟨p, old.congr blocks, home⟩

/-- A tick moves no pointer to a control block. -/
theorem tick (kept : Remembered given ps) (next : Terminal) (esp ebp : Nat) :
    Remembered given (ps.tick next esp ebp) := by
  refine kept.congr rfl (fun _ alive => alive) fun t => .inl ?_
  exact ps.tick_curPcb t next esp ebp

/-- Taking a process out of the table overwrites nothing. -/
theorem release (kept : Remembered given ps) : Remembered given ps.release :=
  kept.congr rfl (fun p alive => ((Accounting.release_live ps p).mp alive).2) fun _ => .inl rfl

/-- Leaving a terminal without a process moves no pointer. -/
theorem vacate (kept : Remembered given ps) : Remembered given ps.vacate := by
  refine kept.congr rfl (fun _ alive => alive) fun t => .inl ?_
  exact ps.vacate_curPcb t

/-- A terminal that goes back to a recorded process, or to none, points at no other block. -/
theorem resume (kept : Remembered given ps) {pid : Nat}
    (parent : Mapped (pcbAddr pid) → Recorded given ps pid) : Remembered given (ps.resume pid) := by
  refine kept.congr rfl (fun _ alive => alive) fun t => ?_
  by_cases same : t = ps.running
  · subst same
    -- A base shell has no parent: the pointer it leaves is no address, and `mapped` rules it out.
    refine .inr fun mapped => ?_
    simp only [Processes.resume, Function.update_self] at mapped ⊢
    exact ⟨pid, parent mapped, rfl⟩
  · exact .inl (by simp [Processes.resume, same])

end Remembered

/-- What ties a state to the observer's memory of its processes. -/
structure Told (s : Kernel) (h : Starts) : Prop where
  accounted : Accounted s
  remembered : Remembered h.arguments s.processes
  /-- `current_pcb` is the block of the process last started or ended. -/
  last : Recorded h.arguments s.processes h.last ∧ s.currentPcb = pcbAddr h.last

/-- A started process is told of. -/
theorem Told.started {env : Env} {s next : Kernel} {h : Starts} {frame : CallFrame}
    {command : List Byte} {entryPoint : Nat} {path : Terminal → List Nat}
    (acc : Accounting s.processes path) (kept : Remembered h.arguments s.processes)
    (entered : Entered env s frame command entryPoint next) :
    Told next (h.start next.scheduled.currentPid (argumentsOf (some command))) := by
  -- The slot was free, so no live process loses its record to the new one.
  obtain ⟨fresh, spawned⟩ := entered.processes
  obtain ⟨all, new⟩ := kept.spawn (t := s.currentId) (Accounting.fresh_lt fresh) frame entered.arg
  have arg : argumentsOf (some command) = entered.arg := entered.arg_eq.symm
  rw [entered.scheduled.2.2, arg]
  refine ⟨⟨_, spawned ▸ acc.spawn fresh frame entered.arg⟩, spawned ▸ all, spawned ▸ new, ?_⟩
  exact congrArg Kernel.currentPcb entered.started

/-- Nothing is remembered of an event that neither starts nor ends a process. -/
theorem Starts.after_uneventful {env : Env} {s next : Kernel} {h : Starts} {event : Event}
    (uneventful : Uneventful env s event) : h.after env s event next = h := by
  cases event with
  | keyboard | rtc | pit => rfl
  | call frame request =>
    cases request with
    | halt status => exact uneventful.elim
    | execute command =>
      simp only [Starts.after]
      split
      · rename_i entered
        exact absurd entered (uneventful _ _)
      · rfl
    | read | write | «open» | close | getargs | vidmap => rfl

/-- The process that a `halt` in the running terminal ends is recorded. -/
theorem Told.ending {s : Kernel} {h : Starts} (told : Told s h)
    (mapped : Mapped s.scheduled.curPcb) :
    Recorded h.arguments s.processes s.curPcb.pid ∧ s.scheduled.curPcb = pcbAddr s.curPcb.pid := by
  -- `halt` reads the number from the block, and the record says it is the slot's own.
  obtain ⟨p, recorded, pointer⟩ := told.remembered.pointed s.currTerminal mapped
  have home : s.scheduled.curPcb = pcbAddr p := pointer
  have number : s.curPcb.pid = p := by
    unfold Kernel.curPcb
    rw [home]
    exact recorded.pid
  rw [number]
  exact ⟨recorded, home⟩

/-- Every step of the machine is told truly. -/
theorem Told.step {env : Env} {s next : Kernel} {h : Starts} {event : Event} (told : Told s h)
    (taken : step env s event = some next) : Told next (h.after env s event next) := by
  obtain ⟨path, acc⟩ := told.accounted
  -- A step starts a process, ends one, changes terminals, or leaves the table alone.
  cases step_cases taken with
  | quiet kept uneventful =>
    rw [Starts.after_uneventful uneventful]
    have same := kept.processes
    refine ⟨⟨path, same ▸ acc⟩, same ▸ told.remembered, same ▸ told.last.1, ?_⟩
    rw [kept.currentPcb]
    exact told.last.2
  | @tick esp ebp =>
    have same := pitHandler_processes s esp ebp
    have blocks := congrArg Processes.blocks same
    exact ⟨⟨path, same ▸ acc.tick _ esp ebp⟩, same ▸ told.remembered.tick _ esp ebp,
      told.last.1.congr blocks,
      (pitHandler_currentPcb s esp ebp).trans told.last.2⟩
  | enter entered =>
    simp only [Starts.after, entered.executed]
    exact Told.started acc told.remembered entered
  | finish ended mapped halted =>
    obtain ⟨recorded, home⟩ := told.ending mapped
    cases halted with
    | child above =>
      have same := child_processes s
      have blocks := congrArg Processes.blocks same
      simp only [Starts.after, ended]
      -- The parent is on the chain of the ended process, so it is live.
      have running := acc.running_of_child mapped above
      obtain ⟨rest, shape, chain⟩ := acc.path_child running above
      have parent : s.curPcb.parentPid ∈ path s.processes.running := by
        rw [shape]
        exact List.mem_cons_of_mem _ chain.top_mem
      have kept := told.remembered.release.resume fun _ =>
        (told.remembered.live _ (acc.live parent)).congr rfl
      exact ⟨⟨_, same ▸ acc.finish running above⟩, same ▸ kept,
        recorded.congr blocks, (endProcess_currentPcb s).trans home⟩
    | stranded base refused =>
      have same := stranded_processes base refused
      have blocks := congrArg Processes.blocks same
      simp only [Starts.after, ended]
      have kept := told.remembered.release.vacate.resume fun mapped =>
        absurd mapped pcbAddr_noParent
      -- The restart was refused, so the terminal stays without a process.
      exact ⟨⟨_, same ▸ acc.strand mapped base⟩, same ▸ kept,
        recorded.congr blocks,
        (refused.quiet.currentPcb.trans (endBaseShell_currentPcb s)).trans home⟩
    | restarted base entered =>
      simp only [Starts.after, ended]
      -- The end of a base shell and the start of its successor are one step of the machine.
      have kept : Remembered h.arguments (endBaseShell s).processes := by
        rw [endBaseShell_processes]
        exact told.remembered.release.vacate
      exact Told.started (acc.endBaseShell mapped base) kept entered

/-- The first shell is told of as it was started. -/
theorem Told.booted {env : Env} {start : Kernel} (booted : boot env = some start) :
    Told start Starts.initial := by
  obtain ⟨_, ⟨entered⟩⟩ := boot_entered booted
  -- Before the first process no slot is taken and no pointer can be followed.
  have empty : Remembered Starts.initial.arguments (initialKernel env).processes := by
    refine ⟨fun p alive => absurd alive.2 (by simp [Kernel.processes, initialKernel]),
      fun t mapped => absurd mapped ?_⟩
    simp [Mapped, Kernel.processes, initialKernel, initialTerminal, InitTerminal.slot]
  have told := Told.started (accounting_initial env) empty entered
  have first : entered.pid = 0 := (Option.some.inj entered.picked).symm
  have none : argumentsOf (some shell) = [] := by decide
  rw [entered.scheduled.2.2, first, none] at told
  have same : Starts.initial.start 0 [] = Starts.initial := by
    simp [Starts.initial, Starts.start]
  exact same ▸ told

/-- What the caller of `getargs` is promised. -/
def Delivered (given : List Byte) (nbytes : Int) (result : CallResult) : Prop :=
  if given = [] then result.outcome = .returned (-1) ∧ result.stores = []
  else result.outcome = .returned 0 ∧ result.stores = given ++ [0] ∧
    (result.stores.length : Int) ≤ nbytes

/-- The number of the process whose control block the displayed terminal points at. -/
def shownPid (s : Kernel) : Nat :=
  (s.pcbs s.displayed.curPcb).pid

/--
The processes `getargs` looks at have the arguments its caller has.

The test is made on the displayed terminal's process, and the copy from the last one started or ended.
-/
def LooksAtOwn (h : Starts) (s : Kernel) (buf : Nat) (nbytes : Int) : Prop :=
  if h.arguments s.scheduled.currentPid = [] then
    -- A caller without arguments is refused by the null test or by the size test.
    buf = 0 ∨ Mapped s.displayed.curPcb ∧ h.arguments (shownPid s) = []
  else
    -- The copy has no bound of its own, so the text and its NUL have to fit.
    buf ≠ 0 ∧ (Mapped s.displayed.curPcb ∧ h.arguments (shownPid s) ≠ []) ∧
      h.arguments h.last = h.arguments s.scheduled.currentPid ∧
      ((h.arguments s.scheduled.currentPid).length : Int) + 1 ≤ nbytes

/-- What a call of `getargs` does, in terms of the arguments the processes were started with. -/
theorem Told.getargs {s : Kernel} {h : Starts} (told : Told s h) (buf : Nat) :
    getargs s buf =
      if buf = 0 then some (plainReturn (-1) s)
      else if Mapped s.displayed.curPcb then
        if h.arguments (shownPid s) = [] then some (plainReturn (-1) s)
        else some ⟨.returned 0, h.arguments h.last ++ [0], s⟩
      else none := by
  obtain ⟨recorded, last⟩ := told.last
  have current : Mapped s.currentPcb := last ▸ mapped_pcbAddr recorded.slot
  have copied : (s.pcbs s.currentPcb).pcbArg = h.arguments h.last := by
    rw [last]
    exact recorded.pcbArg
  unfold SmallOs.getargs
  rw [copied]
  split
  · rfl
  by_cases mapped : Mapped s.displayed.curPcb
  · -- The displayed terminal may hold the block of an ended process, which is recorded too.
    obtain ⟨p, shown, pointer⟩ := told.remembered.pointed s.currentId mapped
    have home : s.displayed.curPcb = pcbAddr p := pointer
    have number : shownPid s = p := by
      unfold shownPid
      rw [home]
      exact shown.pid
    have size : (s.pcbs s.displayed.curPcb).argSize = (h.arguments (shownPid s)).length := by
      rw [number, home]
      exact shown.argSize
    simp only [mapped, current, size, List.length_eq_zero_iff, and_self, if_true]
  · simp [mapped]

/--
A call of `getargs` delivers its caller's arguments exactly when the processes it looks at have the same ones.

The observer's memory of the run says which arguments each process was started with.
-/
theorem getargs_delivers_iff {env : Env} {start s : Kernel} {h : Starts} {events : List Event}
    (booted : boot env = some start)
    (run : Run (observed (step env) (Starts.after env)) Always (start, Starts.initial) events (s, h))
    (frame : CallFrame) (buf : Nat) (nbytes : Int) :
    (∃ result, syscall env s frame (.getargs buf nbytes) = some result ∧
      Delivered (h.arguments s.scheduled.currentPid) nbytes result) ↔
        LooksAtOwn h s buf nbytes := by
  -- The observer is a function of the run, so the memory it ends with is determined.
  have told := run.observed_invariant Told (Told.booted booted)
    fun _ _ _ _ held _ taken => held.step taken
  simp only [syscall, told.getargs, LooksAtOwn, Delivered]
  by_cases none : h.arguments s.scheduled.currentPid = []
  · -- Without arguments the call has to be refused, by one of its two tests.
    simp only [none, if_true]
    by_cases zero : buf = 0
    · simp [zero, plainReturn]
    · by_cases mapped : Mapped s.displayed.curPcb
      · by_cases empty : h.arguments (shownPid s) = []
        · simp [zero, mapped, empty, plainReturn]
        · simp [zero, mapped, empty]
      · simp [zero, mapped]
  · -- With arguments it has to pass both tests, and copy them in full.
    simp only [if_neg none]
    by_cases zero : buf = 0
    · simp [zero, plainReturn]
    · by_cases mapped : Mapped s.displayed.curPcb
      · by_cases empty : h.arguments (shownPid s) = []
        · simp [zero, mapped, empty, plainReturn]
        · simp only [zero, mapped, empty, if_false, if_true, Option.some.injEq, exists_eq_left',
            List.append_cancel_right_eq, List.length_append, List.length_cons, List.length_nil,
            true_and, not_false_eq_true, ne_eq, and_true]
          constructor
          · rintro ⟨same, fits⟩
            rw [same] at fits
            exact ⟨same, by omega⟩
          · rintro ⟨same, fits⟩
            rw [same]
            exact ⟨rfl, by omega⟩
      · simp [zero, mapped]

/-- The sample's first shell starts a second one with an argument, and that one a third with another. -/
def sampleArguments (c : Byte) : List Byte :=
  shell ++ [0x20, c]

/-- The sample after the shell in a slot was started with a one-letter argument. -/
def sampleStarted (s : Kernel) (pid : Nat) (c : Byte) : Kernel :=
  startProcess sampleEnv s sampleFrame sampleShell [c] pid

theorem sampleStarted_entered {s : Kernel} {pid : Nat} (c : Byte)
    (room : ¬ (s.displayed.firstProcess ∧ TableFull s)) (picked : pickProcess s = some pid) :
    execute sampleEnv s sampleFrame (some (sampleArguments c)) =
      some (.entered 0x8048018, sampleStarted s pid c) := by
  have parsed : parseCommand (sampleArguments c) = some (shell, [c]) := rfl
  have plain : markFish s shell = s := if_neg (by decide)
  have found : findProgram sampleEnv.image sampleFrame shell = some (sampleShell, 0x8048018) :=
    sample_found sampleFrame
  have entered := execute_of_found parsed found room picked sample_fits
  rw [plain] at entered
  exact entered

/-- The sample after the third shell has ended, so that the second one runs again. -/
def sampleResumed : Kernel :=
  resumeParent (endProcess (sampleStarted (sampleStarted sampleBooted 3 0x78) 4 0x79)) 3

/-- Starting the second shell, as its observer sees it. -/
theorem sampleStarted_observed (s : Kernel) (h : Starts) (pid : Nat) (c : Byte)
    (room : ¬ (s.displayed.firstProcess ∧ TableFull s)) (picked : pickProcess s = some pid)
    (number : (sampleStarted s pid c).scheduled.currentPid = pid) :
    observed (step sampleEnv) (Starts.after sampleEnv) (s, h)
      (.call sampleFrame (.execute (some (sampleArguments c)))) =
        some (sampleStarted s pid c, h.start pid [c]) := by
  have entered := sampleStarted_entered c room picked
  simp only [observed, step_execute entered, Starts.after, entered, Option.map_some, number]
  rfl

/-- The second shell is given its own argument while it is the last one started. -/
theorem getargs_delivers_iff_sample : ∃ result,
    syscall sampleEnv (sampleStarted sampleBooted 3 0x78) sampleFrame (.getargs 0x8000000 8) =
      some result ∧ Delivered [0x78] 8 result := by
  have started := sampleStarted_observed sampleBooted Starts.initial 3 0x78
    (by decide +kernel) (by decide +kernel) (by decide +kernel)
  have own : LooksAtOwn (Starts.initial.start 3 [0x78]) (sampleStarted sampleBooted 3 0x78)
      0x8000000 8 := by
    unfold LooksAtOwn
    decide +kernel
  exact (getargs_delivers_iff sample_boot (.snoc (.nil _) trivial started) sampleFrame
    0x8000000 8).mpr own

/-- After its child has ended, the second shell is given the child's argument in place of its own. -/
theorem getargs_gives_argument_of_child : ∃ h : Starts,
    Run (observed (step sampleEnv) (Starts.after sampleEnv)) Always (sampleBooted, Starts.initial)
      [.call sampleFrame (.execute (some (sampleArguments 0x78))),
        .call sampleFrame (.execute (some (sampleArguments 0x79))),
        .call sampleFrame (.halt 0)] (sampleResumed, h) ∧
    sampleResumed.scheduled.currentPid = 3 ∧ h.arguments 3 = [0x78] ∧
    syscall sampleEnv sampleResumed sampleFrame (.getargs 0x8000000 8) =
      some ⟨.returned 0, [0x79, 0], sampleResumed⟩ ∧
    ¬ Delivered [0x78] 8 ⟨.returned 0, [0x79, 0], sampleResumed⟩ := by
  have second := sampleStarted_observed sampleBooted Starts.initial 3 0x78
    (by decide +kernel) (by decide +kernel) (by decide +kernel)
  have third := sampleStarted_observed (sampleStarted sampleBooted 3 0x78)
    (Starts.initial.start 3 [0x78]) 4 0x79
    (by decide +kernel) (by decide +kernel) (by decide +kernel)
  -- The third shell's parent is the second one, which goes on in its place.
  have mapped : Mapped (sampleStarted (sampleStarted sampleBooted 3 0x78) 4
      0x79).scheduled.curPcb := by decide +kernel
  have above : (sampleStarted (sampleStarted sampleBooted 3 0x78) 4 0x79).curPcb.parentPid = 3 := by
    decide +kernel
  have child : (sampleStarted (sampleStarted sampleBooted 3 0x78) 4 0x79).curPcb.parentPid ≠
      noParent := by
    rw [above]
    decide
  have ended : halt sampleEnv (sampleStarted (sampleStarted sampleBooted 3 0x78) 4 0x79)
      sampleFrame = _ := halt_of_child mapped child
  rw [above] at ended
  have halted : observed (step sampleEnv) (Starts.after sampleEnv)
      (sampleStarted (sampleStarted sampleBooted 3 0x78) 4 0x79,
        (Starts.initial.start 3 [0x78]).start 4 [0x79]) (.call sampleFrame (.halt 0)) =
          some (sampleResumed,
            { (Starts.initial.start 3 [0x78]).start 4 [0x79] with
              last := (sampleStarted (sampleStarted sampleBooted 3 0x78) 4 0x79).curPcb.pid }) := by
    simp only [observed, step_halt 0 ended, Starts.after, Option.map_some]
    rfl
  refine ⟨_, .snoc (.snoc (.snoc (.nil _) trivial second) trivial third) trivial halted,
    by decide +kernel, by decide +kernel, ?_, by simp [Delivered]⟩
  have current : (sampleResumed.pcbs sampleResumed.currentPcb).pcbArg = [0x79] := by
    decide +kernel
  have shown : Mapped sampleResumed.displayed.curPcb ∧ Mapped sampleResumed.currentPcb := by
    decide +kernel
  have some : (sampleResumed.pcbs sampleResumed.displayed.curPcb).argSize ≠ 0 := by decide +kernel
  rw [syscall, getargs, if_neg (by decide), if_pos shown, if_neg some, current]
  rfl

end SmallOs
