import SmallOs.Proofs.Process.Arguments

/-! What a process returns to the call of `execute` that started it, when it halts. -/

namespace SmallOs

open Foundation

/-- A call of `execute` that has not returned: the registers it was made with, and who made it. -/
structure PendingCall where
  frame : CallFrame
  caller : Nat

/-- What an observer remembers of a run: the call that last started a process in each slot. -/
abbrev PendingCalls := Nat → PendingCall

namespace PendingCalls

/-- At boot the first shell was started by no process. -/
def initial : PendingCalls :=
  fun _ => ⟨bootFrame, noParent⟩

/-- A process is started by a call of the one that runs. -/
def start (calls : PendingCalls) (s : Kernel) (frame : CallFrame) (next : Kernel) : PendingCalls :=
  Function.update calls next.scheduled.currentPid ⟨frame, s.scheduled.currentPid⟩

/-- What the observer remembers after a step. -/
def after (env : Env) (calls : PendingCalls) (s : Kernel) (event : Event) (next : Kernel) :
    PendingCalls :=
  match event with
  | .call frame (.execute command) =>
    match execute env s frame command with
    | some (.entered _, _) => calls.start s frame next
    | _ => calls
  | .call frame (.halt _) =>
    match halt env s frame with
    -- A base shell that ends is started again by a call of `halt` itself.
    | some (.entered _, _) => calls.start s frame next
    | _ => calls
  | _ => calls

/-- Nothing is remembered of an event that neither starts nor ends a process. -/
theorem after_uneventful {env : Env} {s next : Kernel} {calls : PendingCalls} {event : Event}
    (uneventful : Uneventful env s event) : calls.after env s event next = calls := by
  cases event with
  | keyboard | rtc | pit => rfl
  | call frame request =>
    cases request with
    | halt status => exact uneventful.elim
    | execute command =>
      simp only [after]
      split
      · rename_i entered
        exact absurd entered (uneventful _ _)
      · rfl
    | read | write | «open» | close | getargs | vidmap => rfl

end PendingCalls

/-- The control block of every live process holds the stack of the call that started it. -/
def StacksKept (calls : PendingCalls) (ps : Processes) : Prop :=
  ∀ p, ps.Live p → (ps.blocks (pcbAddr p)).oldEsp = (calls p).frame.esp ∧
    (ps.blocks (pcbAddr p)).oldEbp = (calls p).frame.ebp

namespace StacksKept

variable {calls : PendingCalls} {ps ps' : Processes}

/-- Changes that start nothing and overwrite no control block keep the stacks. -/
theorem congr (kept : StacksKept calls ps) (blocks : ps'.blocks = ps.blocks)
    (live : ∀ p, ps'.Live p → ps.Live p) : StacksKept calls ps' := by
  intro p alive
  rw [blocks]
  exact kept p (live p alive)

/-- A new process is remembered with its call, and overwrites its own control block only. -/
theorem spawn (kept : StacksKept calls ps) {t : Terminal} {pid : Nat} (slot : pid < maxProcesses)
    (frame : CallFrame) (arg : List Byte) (caller : Nat) :
    StacksKept (Function.update calls pid ⟨frame, caller⟩) (ps.spawn t pid frame arg) := by
  intro p alive
  -- The slot was free, so the block it overwrites is that of no waiting process.
  by_cases same : p = pid
  · subst same
    simp [Processes.spawn_block]
  · have apart : pcbAddr p ≠ pcbAddr pid := fun equal => same (pcbAddr_inj alive.1 slot equal)
    rw [ps.spawn_block_other t pid frame arg apart, Function.update_of_ne same]
    exact kept p (Processes.live_of_spawn same alive)

end StacksKept

/-- What ties a state to the observer's memory of the calls. -/
structure Awaited (s : Kernel) (calls : PendingCalls) : Prop where
  accounted : Accounted s
  saved : StacksKept calls s.processes

namespace Awaited

variable {env : Env} {s next : Kernel} {calls : PendingCalls} {frame : CallFrame}

/-- A process that was started is awaited by its call. -/
theorem started {home : Kernel} {command : List Byte} {entryPoint : Nat}
    {path : Terminal → List Nat} (acc : Accounting home.processes path)
    (kept : StacksKept calls home.processes)
    (entered : Entered env home frame command entryPoint next) :
    Awaited next (calls.start s frame next) := by
  obtain ⟨fresh, spawned⟩ := entered.processes
  -- The caller is whoever ran, not whose parent the new process becomes.
  have saved := kept.spawn (t := home.currentId) (Accounting.fresh_lt fresh) frame entered.arg
    s.scheduled.currentPid
  refine ⟨⟨_, spawned ▸ acc.spawn fresh frame entered.arg⟩, ?_⟩
  unfold PendingCalls.start
  rw [entered.scheduled.2.2, spawned]
  exact saved

/-- Every step keeps the processes awaited. -/
theorem step {event : Event} (awaited : Awaited s calls) (taken : step env s event = some next) :
    Awaited next (calls.after env s event next) := by
  obtain ⟨path, acc⟩ := awaited.accounted
  have kept := awaited.saved
  cases step_cases taken with
  | quiet still uneventful =>
    rw [PendingCalls.after_uneventful uneventful]
    have same := still.processes
    exact ⟨⟨path, same ▸ acc⟩, same ▸ kept⟩
  -- A tick saves the registers of a terminal, which are not those of a call.
  | @tick esp ebp =>
    have same := pitHandler_processes s esp ebp
    have saved : StacksKept calls (s.processes.tick (pickTerminal s) esp ebp) :=
      kept.congr rfl fun _ alive => alive
    exact ⟨⟨path, same ▸ acc.tick _ esp ebp⟩, same ▸ saved⟩
  | enter entered =>
    simp only [PendingCalls.after, entered.executed]
    exact started acc kept entered
  | finish ended mapped halted =>
    -- The table is released before anything else happens, and no block is overwritten by that.
    have released : StacksKept calls s.processes.release :=
      kept.congr rfl fun p alive => ((Accounting.release_live s.processes p).mp alive).2
    cases halted with
    | child above =>
      have same := child_processes s
      have running := acc.running_of_child mapped above
      have resumed : StacksKept calls (s.processes.release.resume s.curPcb.parentPid) :=
        released.congr rfl fun _ alive => alive
      simp only [PendingCalls.after, ended]
      exact ⟨⟨_, same ▸ acc.finish running above⟩, same ▸ resumed⟩
    | stranded base refused =>
      have same := stranded_processes base refused
      have resumed : StacksKept calls (s.processes.release.vacate.resume noParent) :=
        released.congr rfl fun _ alive => alive
      simp only [PendingCalls.after, ended]
      exact ⟨⟨_, same ▸ acc.strand mapped base⟩, same ▸ resumed⟩
    | restarted base entered =>
      have vacated : StacksKept calls (endBaseShell s).processes := by
        rw [endBaseShell_processes]
        exact released.congr rfl fun _ alive => alive
      simp only [PendingCalls.after, ended]
      exact started (acc.endBaseShell mapped base) vacated entered

/-- The first shell is awaited by the boot code. -/
theorem booted {start : Kernel} (booted : boot env = some start) :
    Awaited start PendingCalls.initial := by
  obtain ⟨_, ⟨entered⟩⟩ := boot_entered booted
  obtain ⟨fresh, spawned⟩ := entered.processes
  have empty : StacksKept PendingCalls.initial (initialKernel env).processes := fun p alive =>
    absurd alive.2 (by simp [Kernel.processes, initialKernel])
  have saved := empty.spawn (t := (initialKernel env).currentId) (Accounting.fresh_lt fresh)
    bootFrame entered.arg noParent
  refine ⟨⟨_, spawned ▸ (accounting_initial env).spawn fresh bootFrame entered.arg⟩, ?_⟩
  rw [spawned]
  -- The boot code calls from one frame, whichever slot its shell was given.
  have same : Function.update PendingCalls.initial entered.pid ⟨bootFrame, noParent⟩ =
      PendingCalls.initial := Function.update_eq_self _ _
  exact same ▸ saved

end Awaited

/-- A call of `halt` returns a status from the call that waits for it, to the process that made that call. -/
def StatusReturned (call : PendingCall) (status : Byte) : Option CallResult → Prop
  | some result => result.outcome = .resumed call.frame.esp call.frame.ebp status.toNat ∧
      result.kernel.scheduled.currentPid = call.caller
  | none => False

/--
A process returns its status to the call that started it exactly when the status is zero.

It must also have the process that made the call as its parent: the parent on record is the process
of the terminal that was displayed when the call was made. The observer's memory of the run says which
call that was, at any depth of processes.
-/
theorem status_returned_iff {env : Env} {start s : Kernel} {calls : PendingCalls}
    {events : List Event} (booted : boot env = some start)
    (run : Run (observed (step env) (PendingCalls.after env)) Always (start, PendingCalls.initial)
      events (s, calls))
    (first : s.scheduled.firstProcess = true) (above : s.curPcb.parentPid ≠ noParent)
    (frame : CallFrame) (status : Byte) :
    StatusReturned (calls s.scheduled.currentPid) status (syscall env s frame (.halt status)) ↔
      status = 0 ∧ s.curPcb.parentPid = (calls s.scheduled.currentPid).caller := by
  have awaited := run.observed_invariant Awaited (Awaited.booted booted)
    fun _ _ _ _ held _ taken => held.step taken
  obtain ⟨path, acc⟩ := awaited.accounted
  obtain ⟨pointer, member⟩ := acc.pointed s.currTerminal first
  have alive := acc.live member
  have mapped : Mapped s.scheduled.curPcb := by
    have home : s.scheduled.curPcb = pcbAddr s.scheduled.currentPid := pointer
    exact home ▸ mapped_pcbAddr alive.1
  -- The process that halts is live, so its control block holds the stack of its call.
  have stack : s.curPcb.oldEsp = (calls s.scheduled.currentPid).frame.esp ∧
      s.curPcb.oldEbp = (calls s.scheduled.currentPid).frame.ebp := by
    have kept := awaited.saved _ alive
    rw [← pointer] at kept
    exact kept
  -- The parent on record is the one that runs next.
  have parent : (resumeParent (endProcess s) s.curPcb.parentPid).scheduled.currentPid =
      s.curPcb.parentPid := by
    have slots := congrArg (fun ps => (ps.slots ps.running).currentPid) (child_processes s)
    simp only [Processes.resume, Processes.release, Function.update_self] at slots
    exact slots
  simp only [syscall, halt_of_child mapped above, Option.map_some, StatusReturned]
  rw [stack.1, stack.2, parent, Outcome.resumed.injEq, and_iff_right rfl, and_iff_right rfl]
  -- The value that is returned is zero, whatever the status was.
  have zero : (0 : Int) = (status.toNat : Int) ↔ status = 0 := by
    rw [← UInt8.toNat_inj]
    exact ⟨fun same => (Int.ofNat.inj same).symm, fun same => by rw [same]; rfl⟩
  rw [zero]

/-- The sample's second shell, started by the first one from the sample's stack. -/
def sampleSecond : Kernel :=
  sampleStarted sampleBooted 3 0x78

/-- What the observer remembers of its start. -/
def sampleCalls : PendingCalls :=
  PendingCalls.initial.start sampleBooted sampleFrame sampleSecond

/-- Starting the second shell, as the observer of the calls sees it. -/
theorem sampleSecond_run : Run (observed (step sampleEnv) (PendingCalls.after sampleEnv)) Always
    (sampleBooted, PendingCalls.initial)
    [.call sampleFrame (.execute (some (sampleArguments 0x78)))] (sampleSecond, sampleCalls) := by
  have picked : pickProcess sampleBooted = some 3 := by decide +kernel
  have entered := sampleStarted_entered 0x78 (by decide +kernel) picked
  refine .snoc (.nil _) trivial ?_
  simp only [observed, step_execute entered, PendingCalls.after, entered, Option.map_some]
  rfl

/-- The second shell returns zero to the first one. -/
theorem status_returned_iff_sample : StatusReturned (sampleCalls sampleSecond.scheduled.currentPid) 0
    (syscall sampleEnv sampleSecond bootFrame (.halt 0)) :=
  (status_returned_iff sample_boot sampleSecond_run (by decide +kernel) (by decide +kernel)
    bootFrame 0).mpr ⟨rfl, by decide +kernel⟩

/-- The second shell halts with status one, and the first one is told zero. -/
theorem status_lost : Run (observed (step sampleEnv) (PendingCalls.after sampleEnv)) Always
      (sampleBooted, PendingCalls.initial)
      [.call sampleFrame (.execute (some (sampleArguments 0x78)))] (sampleSecond, sampleCalls) ∧
    sampleSecond.curPcb.parentPid = 0 ∧
    (∃ next, syscall sampleEnv sampleSecond bootFrame (.halt 1) =
      some ⟨.resumed 100 200 0, [], next⟩) ∧
    ¬ StatusReturned (sampleCalls sampleSecond.scheduled.currentPid) 1
      (syscall sampleEnv sampleSecond bootFrame (.halt 1)) := by
  have mapped : Mapped sampleSecond.scheduled.curPcb := by decide +kernel
  have parent : sampleSecond.curPcb.parentPid = 0 := by decide +kernel
  -- The second shell has a parent, so it is not started again.
  have above : sampleSecond.curPcb.parentPid ≠ noParent := by
    rw [parent]
    decide
  have esp : sampleSecond.curPcb.oldEsp = 100 := by decide +kernel
  have ebp : sampleSecond.curPcb.oldEbp = 200 := by decide +kernel
  have ended : syscall sampleEnv sampleSecond bootFrame (.halt 1) =
      some ⟨.resumed 100 200 0, [], resumeParent (endProcess sampleSecond)
        sampleSecond.curPcb.parentPid⟩ := by
    simp only [syscall, halt_of_child mapped above, Option.map_some, esp, ebp]
  refine ⟨sampleSecond_run, parent, ⟨_, ended⟩, ?_⟩
  rw [ended]
  rintro ⟨outcome, -⟩
  rw [Outcome.resumed.injEq] at outcome
  exact absurd outcome.2.2 (by decide)

end SmallOs
