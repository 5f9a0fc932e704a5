import SmallOs.Proofs.Kernel.Calls
import SmallOs.Proofs.Process.Lifecycle

/-! One inversion lemma for the whole machine: what each step does to the processes. -/

namespace SmallOs

open Foundation

/-- The processes after a timer interrupt. -/
theorem pitHandler_processes (s : Kernel) (esp ebp : Nat) :
    (pitHandler s esp ebp).processes = s.processes.tick (pickTerminal s) esp ebp := by
  -- The refresh in between only copies a page to the screen.
  have refreshed : ∀ m : Kernel, (refreshFish m).processes = m.processes := fun m =>
    (screenOnly_refreshFish m).processes
  have next : ∀ m : Kernel, (refreshFish m).nextTerminal = m.nextTerminal := fun m =>
    (screenOnly_refreshFish m).agree Kernel.nextTerminal fun _ => rfl
  have saved : (saveContext { s with nextTerminal := pickTerminal s } esp ebp).processes =
      { s.processes.tick s.currTerminal esp ebp with userEntry := s.pageDirectory userPde } := by
    have slots : ∀ u, ((saveContext { s with nextTerminal := pickTerminal s } esp ebp).terminals
        u).slot = (s.processes.tick s.currTerminal esp ebp).slots u := by
      intro u
      by_cases same : u = s.currTerminal
      · subst same
        simp [saveContext, Kernel.setTerminal, Processes.tick, Kernel.processes,
          InitTerminal.slot]
      · simp [saveContext, Kernel.setTerminal, Processes.tick, Kernel.processes, same]
    simp only [Kernel.processes, slots]
    rfl
  -- The last stores of `do_switch`: the user page, the kernel stack, and the terminal.
  have mapped : ∀ m : Kernel, ∀ phy : Nat, ∀ tss : Tss, ∀ t : Terminal,
      ({ vurPhy m phy with tss := tss, currTerminal := t } : Kernel).processes =
        { m.processes with running := t, userEntry := u32 phy ||| allO } := by
    intro m phy tss t
    simp [Kernel.processes, vurPhy, userPde]
  unfold pitHandler doSwitch
  simp only
  rw [mapped, refreshed, saved]
  have turn : (vurPhy (refreshFish (saveContext { s with nextTerminal := pickTerminal s } esp
      ebp)) (0x800000 + 0x400000 * (s.terminals (pickTerminal s)).currentPid)).nextTerminal =
      pickTerminal s := next _
  rw [turn]
  rfl

/-- A timer interrupt leaves the pointer to the current control block alone. -/
theorem pitHandler_currentPcb (s : Kernel) (esp ebp : Nat) :
    (pitHandler s esp ebp).currentPcb = s.currentPcb :=
  (screenOnly_refreshFish _).agree Kernel.currentPcb fun _ => rfl

/-- A timer interrupt leaves every control block alone. -/
theorem pitHandler_pcbs (s : Kernel) (esp ebp : Nat) : (pitHandler s esp ebp).pcbs = s.pcbs :=
  (screenOnly_refreshFish _).agree Kernel.pcbs fun _ => rfl

/-- An event that lets no other terminal run, and neither starts nor ends a process. -/
def Uneventful (env : Env) (s : Kernel) : Event → Prop
  | .pit _ _ => False
  | .call _ (.halt _) => False
  | .call frame (.execute command) =>
    ∀ entryPoint next, execute env s frame command ≠ some (.entered entryPoint, next)
  | _ => True

/-- What one step of the kernel does to the processes. -/
inductive ProcessStep (env : Env) (s : Kernel) : Event → Kernel → Prop where
  /-- Every other interrupt or call leaves the processes as they are. -/
  | quiet {event : Event} {next : Kernel} (kept : Quiet s next)
      (uneventful : Uneventful env s event) : ProcessStep env s event next
  /-- The timer lets another terminal run. -/
  | tick {esp ebp : Nat} : ProcessStep env s (.pit esp ebp) (pitHandler s esp ebp)
  /-- A program is entered. -/
  | enter {frame : CallFrame} {command : List Byte} {entryPoint : Nat} {next : Kernel}
      (entered : Entered env s frame command entryPoint next) :
      ProcessStep env s (.call frame (.execute (some command))) next
  /-- A process ends. -/
  | finish {frame : CallFrame} {status : Byte} {outcome : Outcome} {next : Kernel}
      (ended : halt env s frame = some (outcome, next)) (mapped : Mapped s.scheduled.curPcb)
      (halted : Halted env s frame outcome next) :
      ProcessStep env s (.call frame (.halt status)) next

/-- Every step of the machine is one of the four kinds. -/
theorem step_cases {env : Env} {s next : Kernel} {event : Event}
    (taken : step env s event = some next) : ProcessStep env s event next := by
  cases event with
  | keyboard scancode =>
    obtain ⟨-, rfl⟩ := key_taken taken
    exact .quiet (.screens (screenOnly_printKeyboard s scancode)) trivial
  | pit esp ebp =>
    cases taken
    exact .tick
  | rtc =>
    cases taken
    exact .quiet (.clock false s.rtcRegisterA) trivial
  | call frame request =>
    -- The plain calls are quiet by one lemma, and the other two are taken apart.
    by_cases plain : request.Plain
    · obtain ⟨result, frames, done, agree, rfl⟩ := call_taken taken
      refine .quiet (.stored (plain_quiet plain done) agree) ?_
      cases request with
      | halt | execute => exact plain.elim
      | read | write | «open» | close | getargs | vidmap => trivial
    · cases request with
      | halt status =>
        obtain ⟨outcome, ended⟩ := halt_taken taken
        obtain ⟨mapped, halted⟩ := halt_cases ended
        exact .finish ended mapped halted
      | execute command =>
        obtain ⟨outcome, executed⟩ := execute_taken taken
        -- A failed call is quiet, and any other one enters its program.
        rcases execute_cases executed with ⟨returned, failed⟩ | ⟨text, entryPoint, rfl, -, ⟨entered⟩⟩
        · refine .quiet failed.quiet fun entryPoint other entered => ?_
          -- A call has one outcome, and this one returned.
          rw [executed, returned] at entered
          cases entered
        · exact .enter entered
      | read | write | «open» | close | getargs | vidmap => exact absurd trivial plain

/-- The parts of the kernel that neither the screens nor the processes own. -/
structure Apart where
  dirReadLoc : Nat
  rtcInterruptFlag : Bool
  rtcRegisterA : Nat
  firstPageTable : Nat → Nat
  /-- The page directory, less the entry of the user page. -/
  pageDirectory : Nat → Nat

/-- Those parts of a state. -/
def Kernel.apart (s : Kernel) : Apart :=
  { dirReadLoc := s.dirReadLoc
    rtcInterruptFlag := s.rtcInterruptFlag
    rtcRegisterA := s.rtcRegisterA
    firstPageTable := s.firstPageTable
    pageDirectory := fun i => if i = userPde then 0 else s.pageDirectory i }

/-- Mapping a user page changes no other entry. -/
theorem apart_userPage (s : Kernel) (entry : Nat) :
    ({ s with pageDirectory := Function.update s.pageDirectory userPde entry } : Kernel).apart =
      s.apart := by
  -- The entry that changes is the one that is left out.
  have entries : (fun i => if i = userPde then 0 else
      Function.update s.pageDirectory userPde entry i) =
        fun i => if i = userPde then 0 else s.pageDirectory i := by
    funext i
    by_cases user : i = userPde
    · rw [if_pos user, if_pos user]
    · rw [if_neg user, if_neg user, Function.update_of_ne user]
  exact congrArg (fun directory => { s.apart with pageDirectory := directory }) entries

theorem ScreenOnly.apart {s next : Kernel} (same : ScreenOnly s next) : next.apart = s.apart :=
  same.agree Kernel.apart fun _ => rfl

theorem Entered.apart {env : Env} {s next : Kernel} {frame : CallFrame} {command : List Byte}
    {entryPoint : Nat} (entered : Entered env s frame command entryPoint next) :
    next.apart = s.apart := by
  -- Of these parts, starting a process writes the entry of the user page only.
  have named : (markFish s entered.fileName).apart = s.apart := (screenOnly_markFish s _).apart
  exact ((congrArg Kernel.apart entered.started).trans
    (apart_userPage (markFish s entered.fileName) _)).trans named

theorem Halted.apart {env : Env} {s next : Kernel} {frame : CallFrame} {outcome : Outcome}
    (halted : Halted env s frame outcome next) : next.apart = s.apart := by
  -- Resuming the parent maps its user page.
  have resumed : ∀ (m : Kernel) (parentId : Nat), (resumeParent m parentId).apart = m.apart :=
    fun m parentId => apart_userPage m _
  cases halted with
  | child => exact resumed _ _
  | stranded base refused => exact (resumed _ _).trans refused.screens.apart
  | restarted base entered => exact entered.apart

theorem pitHandler_apart (s : Kernel) (esp ebp : Nat) : (pitHandler s esp ebp).apart = s.apart := by
  -- The refresh draws on the screen, and the rest maps another user page.
  have refreshed := (screenOnly_refreshFish
    (saveContext { s with nextTerminal := pickTerminal s } esp ebp)).apart
  exact (apart_userPage _ _).trans refreshed

/-- Only the clock and the plain calls change what the screens and the processes do not own. -/
theorem apart_cases {env : Env} {s next : Kernel} {event : Event}
    (taken : step env s event = some next) : next.apart = s.apart ∨ event = .rtc ∨
      ∃ frame request result, event = .call frame request ∧
        syscall env s frame request = some result ∧ PlainStep s request result.kernel ∧
        next.apart = result.kernel.apart := by
  cases event with
  | keyboard scancode =>
    obtain ⟨-, rfl⟩ := key_taken taken
    exact .inl (screenOnly_printKeyboard s scancode).apart
  | pit esp ebp =>
    cases taken
    exact .inl (pitHandler_apart s esp ebp)
  | rtc => exact .inr (.inl rfl)
  | call frame request =>
    by_cases plain : request.Plain
    · obtain ⟨result, frames, done, -, rfl⟩ := call_taken taken
      exact .inr (.inr ⟨frame, request, result, rfl, done, plain_cases plain done, rfl⟩)
    · -- What is not plain starts or ends a process.
      left
      cases request with
      | halt status =>
        obtain ⟨outcome, ended⟩ := halt_taken taken
        exact (halt_cases ended).2.apart
      | execute command =>
        obtain ⟨outcome, executed⟩ := execute_taken taken
        rcases execute_cases executed with ⟨-, failed⟩ | ⟨text, point, -, -, ⟨entered⟩⟩
        · exact failed.screens.apart
        · exact entered.apart
      | read | write | «open» | close | getargs | vidmap => exact absurd trivial plain

end SmallOs
