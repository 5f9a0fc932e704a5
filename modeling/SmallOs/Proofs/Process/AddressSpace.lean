import SmallOs.Proofs.Process.Accounting

/-! Which frame the user page maps: the conditions on ticks and restarts under which it is the right one. -/

namespace SmallOs

open Foundation

/-- The user page maps the frame of the running terminal's own, live, current process. -/
structure UserPageMapped (s : Kernel) : Prop where
  /-- The directory entry holds the frame of the current process, with user rights. -/
  entry : s.pageDirectory userPde = (0x800000 + 0x400000 * s.scheduled.currentPid) ||| allO
  /-- The current process has a slot of the process table. -/
  slot : s.scheduled.currentPid ≤ 5
  live : s.processArray s.scheduled.currentPid = 1
  /-- It is on the chain of the running terminal. -/
  own : s.scheduled.firstProcess = true ∧
    ∃ path, Chain s.processes.parent s.curPcb.pid path ∧ s.scheduled.currentPid ∈ path
  /-- It is on the chain of no other terminal. -/
  apart : ∀ t, t ≠ s.currTerminal → (s.terminals t).firstProcess = true → ∀ path,
    Chain s.processes.parent (s.pcbs (s.terminals t).curPcb).pid path →
      s.scheduled.currentPid ∉ path
  /-- The entry is neither the kernel's own page nor the frame of another slot. -/
  frame : s.pageDirectory userPde ≠ 0x400000 ||| allO ∧
    ∀ p < maxProcesses, p ≠ s.scheduled.currentPid →
      s.pageDirectory userPde ≠ (0x800000 + 0x400000 * p) ||| allO

/-- A base shell that ends can be started again on the displayed terminal. -/
def CanRestart (env : Env) (s : Kernel) (frame : CallFrame) : Prop :=
  (findProgram env.image frame shell).isSome = true ∧
    -- A shell that would become a child of another terminal's process needs a free slot.
    (s.currentId = s.currTerminal ∨ s.displayed.firstProcess = false ∨ ¬ TableFull s)

/-- Ticks pick a terminal that runs a process, and base shells end only where they can be started again. -/
def KeepsUserPage (env : Env) (s : Kernel) : Event → Prop
  | .pit _ _ => (s.terminals (pickTerminal s)).firstProcess = true
  | .call frame (.halt _) => s.curPcb.parentPid = noParent → CanRestart env s frame
  | _ => True

instance (env : Env) (s : Kernel) (frame : CallFrame) : Decidable (CanRestart env s frame) :=
  inferInstanceAs (Decidable (_ ∧ (_ ∨ _ ∨ _)))

instance (env : Env) (s : Kernel) : (event : Event) → Decidable (KeepsUserPage env s event)
  | .pit _ _ => inferInstanceAs (Decidable ((s.terminals (pickTerminal s)).firstProcess = true))
  | .call frame (.halt _) =>
    inferInstanceAs (Decidable (s.curPcb.parentPid = noParent → CanRestart env s frame))
  | .keyboard _ | .rtc | .call _ (.execute _) | .call _ (.read _ _ _) | .call _ (.write _ _ _)
  | .call _ (.open _) | .call _ (.close _) | .call _ (.getargs _ _) | .call _ (.vidmap _) =>
    inferInstanceAs (Decidable True)

/-- The two ways the kernel computes a process's entry agree on the table. -/
theorem frameEntry_eq {p : Nat} (slot : p < maxProcesses) :
    frameEntry p = (0x800000 + 0x400000 * p) ||| allO ∧
      u32 (0x800000 + 0x400000 * p) ||| allO = frameEntry p := by
  have all : ∀ p < maxProcesses, frameEntry p = (0x800000 + 0x400000 * p) ||| allO ∧
      u32 (0x800000 + 0x400000 * p) ||| allO = frameEntry p := by decide
  exact all p slot

/-- The invariant behind the mapping: the running terminal runs a process, whose frame is mapped. -/
structure Serving (ps : Processes) : Prop where
  accounted : ∃ path, Accounting ps path
  running : (ps.slots ps.running).firstProcess = true
  mapped : ps.userEntry = frameEntry (ps.slots ps.running).currentPid

/-- A new process is served as soon as it is entered. -/
theorem Serving.spawned {ps : Processes} {path : Terminal → List Nat} (acc : Accounting ps path)
    {t : Terminal} {pid : Nat} (fresh : ps.Fresh t pid) (frame : CallFrame) (arg : List Byte) :
    Serving (ps.spawn t pid frame arg) :=
  ⟨⟨_, acc.spawn fresh frame arg⟩, by simp [Processes.spawn], by simp [Processes.spawn]⟩

/-- A terminal that runs a process is served after a tick. -/
theorem Serving.ticked {ps : Processes} {path : Terminal → List Nat} (acc : Accounting ps path)
    {next : Terminal} (runs : (ps.slots next).firstProcess = true) (esp ebp : Nat) :
    Serving (ps.tick next esp ebp) := by
  -- The tick saves the registers, and leaves which process a terminal runs.
  have first := ps.tick_firstProcess next next esp ebp
  have current := ps.tick_currentPid next next esp ebp
  have slot := (acc.live (acc.pointed next runs).2).1
  refine ⟨⟨_, acc.tick next esp ebp⟩, first.trans runs, ?_⟩
  change u32 (0x800000 + 0x400000 * (ps.slots next).currentPid) ||| allO = _
  rw [(frameEntry_eq slot).2]
  exact (congrArg frameEntry current).symm

/-- After a base shell ended, only another terminal's process can be the parent of a new one. -/
theorem endBaseShell_child {s : Kernel}
    (child : (endBaseShell s).displayed.firstProcess = true) :
    s.currentId ≠ s.currTerminal ∧ s.displayed.firstProcess = true := by
  have record : ((endBaseShell s).processes.slots s.currentId).firstProcess = true := child
  rw [endBaseShell_processes] at record
  -- The terminal of the ended shell runs nothing, so the displayed one is another.
  by_cases shown : s.currentId = s.processes.release.running
  · simp [Processes.vacate, shown] at record
  · simp only [Processes.vacate, Function.update_of_ne shown] at record
    exact ⟨shown, record⟩

/-- A restart that can be made does not fail. -/
theorem CanRestart.not_failed {env : Env} {s failed : Kernel} {frame : CallFrame}
    {path : Terminal → List Nat} (acc : Accounting s.processes path)
    (mapped : Mapped s.scheduled.curPcb) (base : s.curPcb.parentPid = noParent)
    (able : CanRestart env s frame) :
    ¬ Failed env (endBaseShell s) frame (some shell) failed := by
  -- The shell is found, and the slots of children are as they were before the shell ended.
  have parsed : parseCommand shell = some (shell, []) := by decide
  intro refused
  cases refused with
  | missing words absent =>
    rw [parsed] at words
    cases words
    exact absurd able.1 (by simp [absent])
  | full words found child full =>
    obtain ⟨-, shown | idle | room⟩ := able
    · exact (endBaseShell_child child).1 shown
    · rw [(endBaseShell_child child).2] at idle
      cases idle
    · -- Ending a base shell frees no slot of a child.
      apply room
      have array : (endBaseShell s).processArray =
          Function.update s.processArray s.curPcb.pid 0 :=
        congrArg Processes.processArray (endBaseShell_processes s)
      -- A process without a parent is the base of its chain, whose slot is its terminal.
      have small : s.curPcb.pid < 3 := by
        have retired := acc.retire mapped base
        cases running : (s.processes.slots s.processes.running).firstProcess with
        | true =>
          have own : s.curPcb.pid = s.currTerminal.val := (acc.path_base running base).2
          omega
        | false =>
          rcases acc.idle s.currTerminal running with lost | ⟨pointer, number, -⟩
          · exact absurd mapped lost
          · have same : s.scheduled.curPcb = pcbAddr s.currTerminal.val := pointer
            have own : s.curPcb.pid = s.currTerminal.val := by
              unfold Kernel.curPcb
              rw [same]
              exact number
            omega
      unfold TableFull at full ⊢
      rw [array] at full
      simpa [Function.update, show (3 : Nat) ≠ s.curPcb.pid by omega,
        show (4 : Nat) ≠ s.curPcb.pid by omega, show (5 : Nat) ≠ s.curPcb.pid by omega] using full

/-- Every admitted step serves the process that runs after it. -/
theorem Serving.step {env : Env} {s next : Kernel} {event : Event} (serving : Serving s.processes)
    (met : KeepsUserPage env s event) (taken : step env s event = some next) :
    Serving next.processes := by
  obtain ⟨⟨path, acc⟩, running, mapping⟩ := serving
  -- Each step either leaves the mapping, or maps the process it lets run.
  cases step_cases taken with
  | quiet kept _ => exact kept.processes ▸ ⟨⟨path, acc⟩, running, mapping⟩
  | @tick esp ebp =>
    rw [pitHandler_processes]
    exact Serving.ticked acc met esp ebp
  | enter entered =>
    obtain ⟨fresh, started⟩ := entered.processes
    rw [started]
    exact Serving.spawned acc fresh _ _
  | finish _ mapped halted =>
    cases halted with
    | child above =>
      rw [child_processes]
      refine ⟨⟨_, acc.finish running above⟩, ?_, ?_⟩
      · simpa [Processes.resume, Processes.release] using running
      · simp [Processes.resume, Processes.release]
    -- This is the end that would leave the terminal without a process.
    | stranded base refused =>
      exact absurd refused ((met base).not_failed acc mapped base)
    | restarted base entered =>
      obtain ⟨fresh, started⟩ := restarted_processes entered
      rw [started]
      exact Serving.spawned (acc.retire mapped base) fresh _ _

/-- A served process is the one the property speaks of. -/
theorem Serving.userPageMapped {s : Kernel} (serving : Serving s.processes) :
    UserPageMapped s := by
  obtain ⟨⟨path, acc⟩, running, mapping⟩ := serving
  obtain ⟨pointer, member⟩ := acc.pointed s.currTerminal running
  have alive := acc.live member
  have slot : s.scheduled.currentPid < maxProcesses := alive.1
  have entry : s.pageDirectory userPde = frameEntry s.scheduled.currentPid := mapping
  have number : s.curPcb.pid = s.scheduled.currentPid := (acc.current_eq running).2
  refine ⟨entry.trans (frameEntry_eq slot).1, ?_, alive.2, ⟨running, path s.currTerminal, ?_,
    member⟩, ?_, ?_, ?_⟩
  · simp only [maxProcesses] at slot
    omega
  · rw [number]
    exact acc.chain running
  · intro t differ runs other chain inside
    have same : (s.pcbs (s.terminals t).curPcb).pid = (s.terminals t).currentPid := by
      obtain ⟨there, within⟩ := acc.pointed t runs
      have named := acc.named t _ within
      rw [← there] at named
      exact named
    rw [same] at chain
    -- A chain is determined by its start, and the chains of two terminals are disjoint.
    rw [chain.unique (acc.chain runs)] at inside
    exact acc.forest.disjoint t s.currTerminal differ inside member
  · rw [entry]
    have all : ∀ p < maxProcesses, frameEntry p ≠ 0x400000 ||| allO := by decide
    exact all _ slot
  · intro p inside differ same
    rw [entry, ← (frameEntry_eq inside).1] at same
    exact differ (frameEntry_inj slot inside same).symm

/-- The first shell is served. -/
theorem Serving.booted {env : Env} {start : Kernel} (booted : boot env = some start) :
    Serving start.processes := by
  obtain ⟨_, ⟨entered⟩⟩ := boot_entered booted
  obtain ⟨fresh, started⟩ := entered.processes
  rw [started]
  exact Serving.spawned (accounting_initial env) fresh _ _

/--
The user page maps the right frame in every state of a run whose ticks pick terminals with a process.

Base shells may end only where they can be started again.
-/
theorem user_page_mapped {env : Env} {start s : Kernel} {events : List Event}
    (booted : boot env = some start)
    (run : Run (step env) (KeepsUserPage env) start events s) : UserPageMapped s :=
  Serving.userPageMapped (run.invariant (fun s => Serving s.processes) (Serving.booted booted)
    fun _ _ _ serving met taken => serving.step met taken)

/-- Two terminals take turns, a child comes and goes on the second, and its base shell is restarted. -/
def restartSecond : List Event :=
  startSecond ++ [.pit 300 400, .call sampleFrame (.execute (some shell)),
    .call sampleFrame (.halt 0), .call sampleFrame (.halt 0), .pit 8 12, .pit 300 400]

/-- The restarted shell of the second terminal runs in the frame of its own process. -/
theorem user_page_mapped_sample : ∃ s,
    Run (step sampleEnv) (KeepsUserPage sampleEnv) sampleBooted restartSecond s ∧
      s.currTerminal = 1 ∧ UserPageMapped s := by
  have given : (replay (step sampleEnv) (KeepsUserPage sampleEnv) sampleBooted
      restartSecond).map (fun s => decide (s.currTerminal = 1)) = some true := by decide +kernel
  obtain ⟨s, reached, second⟩ := Option.map_eq_some_iff.mp given
  have run := replay_run reached
  exact ⟨s, run, of_decide_eq_true second, user_page_mapped sample_boot run⟩

/-- The sample after Alt and F2 opened the second terminal, before the shell is started there. -/
def sampleSecondOpen : Kernel :=
  printKeyboard (printKeyboard
    (startProcess sampleEnv (initialKernel sampleEnv) bootFrame sampleShell [] 0) 0x38) 0x3C

theorem sampleSecondOpen_reachable : Reachable sampleEnv sampleSecondOpen := by
  -- The two key presses are two steps of the machine.
  have alt : step sampleEnv (startProcess sampleEnv (initialKernel sampleEnv) bootFrame
      sampleShell [] 0) (.keyboard 0x38) = some (printKeyboard (startProcess sampleEnv
        (initialKernel sampleEnv) bootFrame sampleShell [] 0) 0x38) := rfl
  have function : step sampleEnv (printKeyboard (startProcess sampleEnv (initialKernel sampleEnv)
      bootFrame sampleShell [] 0) 0x38) (.keyboard 0x3C) = some sampleSecondOpen := rfl
  exact (sample_reachable.step alt).step function

/-- A tick before the second terminal's shell is started runs that terminal with the first one's frame. -/
theorem user_page_of_other_terminal :
    Reachable sampleEnv (pitHandler sampleSecondOpen 8 12) ∧
      ¬ UserPageMapped (pitHandler sampleSecondOpen 8 12) := by
  have tick : step sampleEnv sampleSecondOpen (.pit 8 12) =
      some (pitHandler sampleSecondOpen 8 12) := rfl
  refine ⟨sampleSecondOpen_reachable.step tick, fun mapped => ?_⟩
  -- The second terminal runs, but no process was started on it.
  have running := mapped.own.1
  revert running
  decide +kernel

end SmallOs
