import SmallOs.Proofs.Process.Descriptors

/-! What a program can have open above standard output, in every control block the kernel follows. -/

namespace SmallOs

open Foundation

/-- An open descriptor above standard output belongs to something a program can name. -/
def FileDescriptor.Named (descriptor : FileDescriptor) : Prop :=
  descriptor.flags ≠ 0 → ∃ table, descriptor.opTable = some table ∧ table.Named

/-- A control block whose descriptors above standard output are all of that kind. -/
def Pcb.Named (pcb : Pcb) : Prop :=
  ∀ fd, 2 ≤ fd → (pcb.fd fd).Named

/-- Opening gives a descriptor one of the three tables, whatever it was before. -/
theorem named_openDescriptor (d : Dentry) (descriptor : FileDescriptor) :
    (openDescriptor d descriptor).Named := by
  -- The table follows the file type, and each branch stores the table it was chosen for.
  intro _
  unfold openDescriptor tableFor
  by_cases clock : d.fileType = 0
  · exact ⟨.rtc, by simp [clock], .inl rfl⟩
  · by_cases directory : d.fileType = 1
    · exact ⟨.dir, by simp [directory], .inr (.inl rfl)⟩
    · exact ⟨.file, by simp [clock, directory], .inr (.inr rfl)⟩

/-- A change of one descriptor keeps every control block named if it keeps that descriptor so. -/
theorem named_setDescriptor {s : Kernel} {i : Nat} {change : FileDescriptor → FileDescriptor}
    (keeps : ∀ descriptor : FileDescriptor, descriptor.Named → (change descriptor).Named)
    {address : Nat} (named : (s.pcbs address).Named) :
    ((setDescriptor s i change).pcbs address).Named := by
  intro fd above
  have before := named fd above
  -- Only the running terminal's control block is written, and of it only one descriptor.
  by_cases here : address = s.scheduled.curPcb
  · subst here
    by_cases same : fd = i
    · -- This is the descriptor that changes.
      subst same
      simpa [setDescriptor, Kernel.setPcb] using keeps _ before
    · simpa [setDescriptor, Kernel.setPcb, same] using before
  · simpa [setDescriptor, Kernel.setPcb, here] using before

/-- A call that neither starts nor ends a process keeps every control block named. -/
theorem named_plain {env : Env} {s : Kernel} {frame : CallFrame} {request : Call}
    {result : CallResult} (plain : request.Plain)
    (done : syscall env s frame request = some result) {address : Nat}
    (named : (s.pcbs address).Named) : (result.kernel.pcbs address).Named := by
  have step := plain_cases plain done
  generalize result.kernel = next at step ⊢
  -- Three calls store into a control block, each of them into one descriptor.
  cases step with
  | kept | line | listing | awaited | rate | view => exact named
  | written => rwa [(screenOnly_terminalWrite s _ _).agree Kernel.pcbs fun _ => rfl]
  | position reads position =>
    refine named_setDescriptor (fun descriptor before => ?_) named
    exact before
  | opened i d => exact named_setDescriptor (fun descriptor _ => named_openDescriptor d descriptor) named
  | closed =>
    -- A closed descriptor is not in use, so nothing is asked of it.
    refine named_setDescriptor (fun descriptor _ => ?_) named
    exact fun used => absurd rfl used

/-- A new process has nothing open above standard output. -/
theorem named_initialFd : ∀ fd, 2 ≤ fd → (initialFd fd).Named := by
  intro fd above used
  unfold initialFd at used
  -- Only the first two numbers are in use at the start.
  rw [if_neg (by omega), if_neg (by omega)] at used
  exact absurd rfl used

/-- Ending a process closes all of its descriptors. -/
theorem named_endProcess {s : Kernel} {address : Nat} (named : (s.pcbs address).Named) :
    ((endProcess s).pcbs address).Named := by
  by_cases here : address = s.scheduled.curPcb
  · subst here
    intro fd above
    have before := named fd above
    simp only [endProcess, Kernel.setPcb, Kernel.setTerminal, Kernel.scheduled,
      Function.update_self]
    -- The loop of `halt` clears the flags of the numbers it runs over.
    split
    · exact fun used => absurd rfl used
    · exact before
  · rw [endProcess_pcbs s here]
    exact named

/-- Entering a program keeps every control block named. -/
theorem Entered.named {env : Env} {s next : Kernel} {frame : CallFrame} {command : List Byte}
    {entryPoint : Nat} (entered : Entered env s frame command entryPoint next) {address : Nat}
    (named : address ≠ pcbAddr entered.pid → (s.pcbs address).Named) :
    (next.pcbs address).Named := by
  -- The new control block replaces what stood there, whatever it was.
  by_cases here : address = pcbAddr entered.pid
  · subst here
    intro fd above
    rw [entered.fd]
    exact named_initialFd fd above
  · rw [entered.pcbs here]
    exact named here

/-- No step gives a named control block a descriptor of another kind. -/
theorem named_step {env : Env} {s next : Kernel} {event : Event}
    (taken : step env s event = some next) {address : Nat} (named : (s.pcbs address).Named) :
    (next.pcbs address).Named := by
  cases step_cases taken with
  | quiet kept uneventful =>
    cases event with
    | keyboard scancode =>
      obtain ⟨-, rfl⟩ := key_taken taken
      rwa [(screenOnly_printKeyboard s scancode).agree Kernel.pcbs fun _ => rfl]
    | pit => exact uneventful.elim
    | rtc =>
      cases taken
      exact named
    | call frame request =>
      -- Of the calls only `execute` can fail and be quiet without being plain.
      by_cases plain : request.Plain
      · obtain ⟨result, frames, done, -, rfl⟩ := call_taken taken
        exact named_plain plain done named
      · cases request with
        | halt => exact uneventful.elim
        | execute command =>
          obtain ⟨outcome, executed⟩ := execute_taken taken
          rcases execute_cases executed with ⟨rfl, failed⟩ | ⟨text, point, rfl, rfl, ⟨entered⟩⟩
          · rwa [failed.screens.agree Kernel.pcbs fun _ => rfl]
          · exact absurd executed (uneventful _ _)
        | read | write | «open» | close | getargs | vidmap => exact absurd trivial plain
  | tick => rwa [pitHandler_pcbs]
  | enter entered => exact entered.named fun _ => named
  | finish ended mapped halted =>
    -- The process that ends closes everything, and a restarted shell has nothing open yet.
    have closed := named_endProcess named
    cases halted with
    | child => exact closed
    | @stranded failed base refused =>
      have printed : failed.pcbs = (endBaseShell s).pcbs :=
        refused.screens.agree Kernel.pcbs fun _ => rfl
      change (failed.pcbs address).Named
      rw [printed]
      exact closed
    | restarted base entered => exact entered.named fun _ => closed

/-- A process that lives after a step lived before it, or was entered by it. -/
theorem live_before {env : Env} {s next : Kernel} {event : Event} {p : Nat}
    (taken : step env s event = some next) (alive : next.processes.Live p) :
    s.processes.Live p ∨ (next.pcbs (pcbAddr p)).Named := by
  cases step_cases taken with
  | quiet kept => exact .inl (kept.processes ▸ alive)
  | @tick esp ebp =>
    rw [pitHandler_processes] at alive
    exact .inl alive
  | enter entered =>
    by_cases new : p = entered.pid
    · subst new
      exact .inr (entered.named fun other => absurd rfl other)
    · rw [entered.processes.2] at alive
      exact .inl (Processes.live_of_spawn new alive)
  | finish _ _ halted =>
    -- What lives once a process was taken out of the table lived before.
    have released : s.processes.release.Live p → s.processes.Live p := fun later =>
      ((Accounting.release_live s.processes p).mp later).2
    cases halted with
    | child =>
      rw [child_processes] at alive
      exact .inl (released alive)
    | stranded base refused =>
      rw [stranded_processes base refused] at alive
      exact .inl (released alive)
    | restarted base entered =>
      by_cases new : p = entered.pid
      · subst new
        exact .inr (entered.named fun other => absurd rfl other)
      · rw [(restarted_processes entered).2] at alive
        have vacated : s.processes.release.vacate.Live p := Processes.live_of_spawn new alive
        exact .inl (released vacated)

/-- A terminal without a process keeps the pointer it had before the step, if it is one to follow. -/
theorem idle_pointer_kept {env : Env} {s next : Kernel} {event : Event} {path : Terminal → List Nat}
    {t : Terminal} (acc : Accounting s.processes path) (taken : step env s event = some next)
    (idle : (next.terminals t).firstProcess = false) (mapped : Mapped (next.terminals t).curPcb) :
    (next.terminals t).curPcb = (s.terminals t).curPcb := by
  -- The pointers are compared through the slots of the processes before and after.
  have through : ∀ ps : Processes, next.processes = ps → ((ps.slots t).firstProcess = false →
      Mapped (ps.slots t).curPcb → (ps.slots t).curPcb = (s.terminals t).curPcb) →
      (next.terminals t).curPcb = (s.terminals t).curPcb := by
    intro ps same kept
    subst same
    exact kept idle mapped
  have spawned : ∀ (ps : Processes) u pid frame arg,
      (ps.slots t).curPcb = (s.terminals t).curPcb →
      ((ps.spawn u pid frame arg).slots t).firstProcess = false →
      ((ps.spawn u pid frame arg).slots t).curPcb = (s.terminals t).curPcb := by
    intro ps u pid frame arg before idle
    by_cases here : t = u
    · subst here
      simp [Processes.spawn] at idle
    · simpa [Processes.spawn, here] using before
  -- Only a spawn and a resume move a pointer, and neither leaves an idle terminal with one to
  -- follow.
  cases step_cases taken with
  | quiet kept => exact through _ kept.processes fun _ _ => rfl
  | @tick esp ebp =>
    refine through _ (pitHandler_processes s esp ebp) fun _ _ => ?_
    exact s.processes.tick_curPcb t (pickTerminal s) esp ebp
  | enter entered =>
    exact through _ entered.processes.2 fun idle _ => spawned _ _ _ _ _ rfl idle
  | finish _ running halted =>
    cases halted with
    | child above =>
      refine through _ (child_processes s) fun idle _ => ?_
      have busy := acc.running_of_child running above
      by_cases here : t = s.processes.running
      · -- The parent runs on, so its terminal has a process.
        subst here
        simp only [Processes.resume, Processes.release, Function.update_self, busy] at idle
        cases idle
      · simp only [Processes.resume, Processes.release, Function.update_of_ne here]
        rfl
    | stranded base refused =>
      refine through _ (stranded_processes base refused) fun _ mapped => ?_
      by_cases here : t = s.processes.running
      · -- The pointer of a stranded terminal cannot be followed.
        subst here
        simp only [Processes.resume, Processes.vacate, Processes.release,
          Function.update_self] at mapped
        exact absurd mapped pcbAddr_noParent
      · simp only [Processes.resume, Processes.vacate, Processes.release,
          Function.update_of_ne here]
        rfl
    | restarted base entered =>
      refine through _ (restarted_processes entered).2 fun idle _ => spawned _ _ _ _ _ ?_ idle
      exact s.processes.release.vacate_curPcb t

/-- Every control block that a process has, or that a terminal points at, is named. -/
structure AllNamed (s : Kernel) : Prop where
  accounted : Accounted s
  live : ∀ p, s.processes.Live p → (s.pcbs (pcbAddr p)).Named
  pointed : ∀ t, Mapped (s.terminals t).curPcb → (s.pcbs (s.terminals t).curPcb).Named

/-- What the running processes have is enough, if every pointer of an idle terminal is accounted for. -/
theorem AllNamed.of_live {s : Kernel} {path : Terminal → List Nat}
    (acc : Accounting s.processes path)
    (live : ∀ p, s.processes.Live p → (s.pcbs (pcbAddr p)).Named)
    (idle : ∀ t, (s.terminals t).firstProcess = false → Mapped (s.terminals t).curPcb →
      (s.pcbs (s.terminals t).curPcb).Named) : AllNamed s := by
  refine ⟨⟨path, acc⟩, live, fun t mapped => ?_⟩
  cases busy : (s.terminals t).firstProcess with
  | true =>
    -- The pointer of a terminal with a process leads to the block of a live one.
    obtain ⟨pointer, member⟩ := acc.pointed t busy
    rw [show (s.terminals t).curPcb = _ from pointer]
    exact live _ (acc.live member)
  | false => exact idle t busy mapped

/-- Every step of the machine keeps the control blocks named. -/
theorem AllNamed.step {env : Env} {s next : Kernel} {event : Event} (all : AllNamed s)
    (taken : step env s event = some next) : AllNamed next := by
  obtain ⟨path, acc⟩ := all.accounted
  obtain ⟨path', acc'⟩ := acc.step taken
  refine .of_live acc' (fun p alive => ?_) fun t idle mapped => ?_
  · -- A process that was there is followed through the step, and a new one is named from the start.
    rcases live_before taken alive with before | entered
    · exact named_step taken (all.live p before)
    · exact entered
  · have kept := idle_pointer_kept acc taken idle mapped
    rw [kept] at mapped ⊢
    exact named_step taken (all.pointed t mapped)

/-- Every reachable state has named control blocks. -/
theorem Reachable.allNamed {env : Env} {s : Kernel} (reach : Reachable env s) : AllNamed s := by
  refine reach.invariant AllNamed (fun start booted => ?_) fun _ _ _ holds taken => holds.step taken
  -- At boot the first shell is the only process, and the other terminals point nowhere.
  obtain ⟨_, ⟨entered⟩⟩ := boot_entered booted
  obtain ⟨fresh, started⟩ := entered.processes
  have acc := (accounting_initial env).spawn fresh bootFrame entered.arg
  rw [← started] at acc
  refine .of_live acc (fun p alive => ?_) fun t idle mapped => ?_
  · by_cases new : p = entered.pid
    · subst new
      exact entered.named fun other => absurd rfl other
    · rw [started] at alive
      -- The table was empty before the shell was entered.
      have taken := alive.2
      simp [Processes.spawn, new, Kernel.processes, initialKernel] at taken
  · have slot := congrArg (fun ps => ps.slots t) started
    by_cases here : t = (initialKernel env).currentId
    · have busy := congrArg Slot.firstProcess slot
      simp only [Processes.spawn, here, Function.update_self] at busy
      rw [← here] at busy
      exact absurd (busy.symm.trans idle) (by decide)
    · have pointer := congrArg Slot.curPcb slot
      simp only [Processes.spawn, Function.update_of_ne here] at pointer
      rw [show (start.terminals t).curPcb = 0 from pointer] at mapped
      exact absurd mapped (by decide)

end SmallOs
