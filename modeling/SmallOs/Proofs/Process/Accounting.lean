import SmallOs.Abstract.Accounting
import SmallOs.Proofs.Process.Boot
import SmallOs.Proofs.Process.Step

/-! Every reachable state has a consistent process table, and hands out only free slots. -/

namespace SmallOs

open Foundation

/-- The process table of a state is consistent, for some choice of chains. -/
def Accounted (s : Kernel) : Prop :=
  ∃ path, Accounting s.processes path

/-- Before the first process, every account is empty. -/
theorem accounting_initial (env : Env) :
    Accounting (initialKernel env).processes fun _ => [] := by
  -- No terminal runs a process, and no control block pointer can be followed.
  have stopped : ∀ t, ((initialKernel env).processes.slots t).firstProcess = false := fun _ => rfl
  refine ⟨⟨?_, fun _ _ => rfl, fun _ _ _ => List.disjoint_nil_left _, ?_⟩, ?_, ?_, ?_, ?_, ?_⟩
  · intro t node starts
    simp [Processes.top, stopped] at starts
  · intro p
    simp [Processes.Live, Kernel.processes, initialKernel]
  · intro t p member
    cases member
  · intro t running
    simp [stopped] at running
  · intro t running
    simp [stopped] at running
  · intro t p member
    cases member
  · intro t _
    exact .inl (by simp [Mapped, Kernel.processes, initialKernel, initialTerminal,
      InitTerminal.slot])

/-- A process that can end has a terminal that runs it, unless it is an ended base shell. -/
theorem Accounting.running_of_child {s : Kernel} {path : Terminal → List Nat}
    (acc : Accounting s.processes path) (mapped : Mapped s.scheduled.curPcb)
    (above : s.curPcb.parentPid ≠ noParent) :
    (s.processes.slots s.processes.running).firstProcess = true := by
  cases running : (s.processes.slots s.processes.running).firstProcess with
  | true => rfl
  | false =>
    -- An idle terminal points nowhere, or at the base shell that ended on it.
    rcases acc.idle s.currTerminal running with lost | ⟨pointer, -, base⟩
    · exact absurd mapped lost
    · have same : s.scheduled.curPcb = pcbAddr s.currTerminal.val := pointer
      have ended : s.curPcb.parentPid = noParent := by
        unfold Kernel.curPcb
        rw [same]
        exact base
      exact absurd ended above

/-- A pointer the running thread can follow leads to the control block of its own number. -/
theorem Accounting.scheduled_pcb {s : Kernel} {path : Terminal → List Nat}
    (acc : Accounting s.processes path) (mapped : Mapped s.scheduled.curPcb) :
    s.curPcb.pid < maxProcesses ∧ s.scheduled.curPcb = pcbAddr s.curPcb.pid := by
  -- A terminal with a process points at its current one, and an idle one at its base shell.
  cases running : (s.processes.slots s.processes.running).firstProcess with
  | true =>
    obtain ⟨pointer, member⟩ := acc.pointed s.currTerminal running
    have number : s.curPcb.pid = s.scheduled.currentPid := (acc.current_eq running).2
    rw [number]
    exact ⟨(acc.live member).1, pointer⟩
  | false =>
    rcases acc.idle s.currTerminal running with lost | ⟨pointer, number, -⟩
    · exact absurd mapped lost
    · have home : s.scheduled.curPcb = pcbAddr s.currTerminal.val := pointer
      have own : s.curPcb.pid = s.currTerminal.val := by
        unfold Kernel.curPcb
        rw [home]
        exact number
      rw [own]
      exact ⟨s.currTerminal.val_lt_maxProcesses, home⟩

/-- The running thread's pointer leads to the control block of no other live process. -/
theorem Accounting.other_pcb {s : Kernel} {path : Terminal → List Nat}
    (acc : Accounting s.processes path) {p : Nat} (alive : s.processes.Live p)
    (other : s.scheduled.firstProcess = true → p ≠ s.scheduled.currentPid) :
    pcbAddr p ≠ s.scheduled.curPcb := by
  intro same
  have mapped : Mapped s.scheduled.curPcb := same ▸ mapped_pcbAddr alive.1
  obtain ⟨slot, home⟩ := acc.scheduled_pcb mapped
  have number : p = s.curPcb.pid := pcbAddr_inj alive.1 slot (same.trans home)
  cases running : (s.processes.slots s.processes.running).firstProcess with
  | true => exact other running (number.trans (acc.current_eq running).2)
  | false =>
    -- A thread without a process still points at the slot of its terminal, which is free.
    rcases acc.idle s.currTerminal running with lost | ⟨pointer, -, -⟩
    · exact lost mapped
    · have own : p = s.currTerminal.val :=
        pcbAddr_inj alive.1 s.currTerminal.val_lt_maxProcesses (same.trans pointer)
      refine acc.fresh_not_live (t := s.currTerminal) ?_ alive
      unfold Processes.Fresh
      rw [if_neg (by rw [show s.processes.slots s.currTerminal = s.processes.slots
        s.processes.running from rfl, running]; decide)]
      exact own

/-- The process that ends is the only one whose control block the running thread points at. -/
theorem Accounting.released {s : Kernel} {path : Terminal → List Nat}
    (acc : Accounting s.processes path) (mapped : Mapped s.scheduled.curPcb) {p : Nat}
    (alive : s.processes.release.Live p) :
    s.processes.Live p ∧ pcbAddr p ≠ s.scheduled.curPcb := by
  obtain ⟨other, before⟩ := (Accounting.release_live s.processes p).mp alive
  obtain ⟨slot, home⟩ := acc.scheduled_pcb mapped
  refine ⟨before, fun same => other ?_⟩
  exact pcbAddr_inj before.1 slot (same.trans home)

/-- A base shell that ended is on no account. -/
theorem Accounting.endBaseShell {s : Kernel} {path : Terminal → List Nat}
    (acc : Accounting s.processes path) (mapped : Mapped s.scheduled.curPcb)
    (base : s.curPcb.parentPid = noParent) :
    Accounting (endBaseShell s).processes (Function.update path s.processes.running []) := by
  rw [endBaseShell_processes]
  exact acc.retire mapped base

/-- Ending a process keeps the accounts. -/
theorem Accounting.halted {env : Env} {s next : Kernel} {frame : CallFrame} {outcome : Outcome}
    {path : Terminal → List Nat} (acc : Accounting s.processes path)
    (mapped : Mapped s.scheduled.curPcb) (halted : Halted env s frame outcome next) :
    Accounted next := by
  unfold Accounted
  -- A child goes back to the rest of its chain, and a base shell leaves none.
  cases halted with
  | child above =>
    rw [child_processes]
    exact ⟨_, acc.finish (acc.running_of_child mapped above) above⟩
  | stranded base refused =>
    rw [stranded_processes base refused]
    exact ⟨_, acc.strand mapped base⟩
  | restarted base entered =>
    obtain ⟨fresh, started⟩ := restarted_processes entered
    rw [started]
    exact ⟨_, (acc.retire mapped base).spawn fresh frame _⟩

/-- Every step of the machine keeps the accounts. -/
theorem Accounting.step {env : Env} {s next : Kernel} {event : Event}
    {path : Terminal → List Nat} (acc : Accounting s.processes path)
    (taken : step env s event = some next) : Accounted next := by
  -- Each kind of step is one step of the abstract processes.
  cases step_cases taken with
  | quiet kept _ => exact ⟨path, kept.processes ▸ acc⟩
  | @tick esp ebp => exact ⟨path, pitHandler_processes s esp ebp ▸ acc.tick _ esp ebp⟩
  | enter entered =>
    obtain ⟨fresh, started⟩ := entered.processes
    exact ⟨_, started ▸ acc.spawn fresh _ _⟩
  | finish _ mapped halted => exact acc.halted mapped halted

/-- The accounts are consistent in every reachable state. -/
theorem Reachable.accounting {env : Env} {s : Kernel} (reach : Reachable env s) :
    Accounted s := by
  -- The first shell is the first spawn, and every later step keeps the accounts.
  refine reach.invariant Accounted (fun start booted => ?_) fun _ _ _ holds taken => ?_
  · obtain ⟨_, ⟨entered⟩⟩ := boot_entered booted
    obtain ⟨fresh, started⟩ := entered.processes
    exact ⟨_, started ▸ (accounting_initial env).spawn fresh _ _⟩
  · obtain ⟨path, acc⟩ := holds
    exact acc.step taken

/-- The resources a new process was given, and the live processes they were not taken from. -/
structure HandedOut (before : Processes) (next : Kernel) (ending : Nat → Prop) : Prop where
  /-- The number of the new process is in the table. -/
  slot : next.displayed.currentPid < maxProcesses
  /-- It was given the control block of its number. -/
  block : next.displayed.curPcb = pcbAddr next.displayed.currentPid
  /-- Its kernel stack starts at that control block. -/
  stack : next.tss.esp0 = pcbAddr next.displayed.currentPid
  /-- It was given the frame of its number. -/
  mapped : next.pageDirectory userPde = frameEntry next.displayed.currentPid
  /-- No process that goes on living has the same number, control block, or frame. -/
  apart : ∀ p, before.Live p → ¬ ending p → next.displayed.currentPid ≠ p ∧
    pcbAddr next.displayed.currentPid ≠ pcbAddr p ∧
    frameEntry next.displayed.currentPid ≠ frameEntry p

/-- Distinct processes have distinct frames. -/
theorem frameEntry_inj {p q : Nat} (left : p < maxProcesses) (right : q < maxProcesses)
    (same : frameEntry p = frameEntry q) : p = q := by
  -- The table is small enough to compare all of its frames.
  have distinct : ∀ p < maxProcesses, ∀ q < maxProcesses, frameEntry p = frameEntry q → p = q := by
    decide
  exact distinct p left q right same

/-- The kernel stack of a process starts at its control block. -/
theorem stackTop_eq (p : Nat) : sub32 size8MB (size8KB * (p + 1)) = pcbAddr p := by
  simp only [pcbAddr, sub32, u32, size8MB, size8KB]
  omega

/-- Entering a program hands out a slot that was not live. -/
theorem Entered.handedOut {env : Env} {s next : Kernel} {frame : CallFrame} {command : List Byte}
    {entryPoint : Nat} {path : Terminal → List Nat} (acc : Accounting s.processes path)
    (entered : Entered env s frame command entryPoint next) :
    HandedOut s.processes next fun _ => False := by
  obtain ⟨fresh, started⟩ := entered.processes
  have slot := Accounting.fresh_lt fresh
  have dead := acc.fresh_not_live fresh
  have shown := entered.currentId
  -- The new record and the new mapping are read off the spawned processes.
  have record : next.displayed.slot = { s.processes.slots s.currentId with
      curPcb := pcbAddr entered.pid, firstProcess := true, currentPid := entered.pid } := by
    have slots := congrArg (fun ps => ps.slots s.currentId) started
    simp only [Processes.spawn, Function.update_self] at slots
    rw [← slots]
    unfold Kernel.displayed
    rw [shown]
    rfl
  have number : next.displayed.currentPid = entered.pid := congrArg Slot.currentPid record
  refine ⟨?_, ?_, ?_, ?_, ?_⟩
  · rw [number]
    exact slot
  · rw [number]
    exact congrArg Slot.curPcb record
  · -- The stack top is a store of its own, and comes out at the same address.
    have top := congrArg (fun k => k.tss.esp0) entered.started
    rw [number, top]
    exact stackTop_eq _
  · rw [number]
    exact congrArg Processes.userEntry started
  · intro p alive _
    rw [number]
    have differ : entered.pid ≠ p := fun same => dead (same ▸ alive)
    exact ⟨differ, fun same => differ (pcbAddr_inj slot alive.1 same),
      fun same => differ (frameEntry_inj slot alive.1 same)⟩

/-- A restarted base shell is given a slot that is its own or was not live. -/
theorem restarted_handedOut {env : Env} {s next : Kernel} {frame : CallFrame} {entryPoint : Nat}
    {path : Terminal → List Nat} (acc : Accounting s.processes path)
    (mapped : Mapped s.scheduled.curPcb) (base : s.curPcb.parentPid = noParent)
    (entered : Entered env (endBaseShell s) frame shell entryPoint next) :
    HandedOut s.processes next fun p => p = s.curPcb.pid := by
  -- Only the ended shell stopped being live before the new one was started.
  have handed := entered.handedOut (acc.endBaseShell mapped base)
  refine ⟨handed.slot, handed.block, handed.stack, handed.mapped, fun p alive other => ?_⟩
  refine handed.apart p ?_ id
  rw [endBaseShell_processes]
  exact (Accounting.release_live s.processes p).mpr ⟨other, alive⟩

/--
The process table of every reachable state accounts for exactly the processes on the terminals' chains.

A call that enters a program hands out resources that no process that goes on living has.
-/
theorem process_table_accounts {env : Env} {s : Kernel} (reach : Reachable env s) :
    ∃ path : Terminal → List Nat,
      (∀ t, (s.terminals t).firstProcess = true →
        Chain s.processes.parent (s.pcbs (s.terminals t).curPcb).pid (path t) ∧
        (path t).Nodup ∧ (path t).getLast? = some t.val ∧
        (s.terminals t).currentPid = (s.pcbs (s.terminals t).curPcb).pid ∧
        (s.terminals t).curPcb = pcbAddr (s.terminals t).currentPid) ∧
      (∀ t u, t ≠ u → (path t).Disjoint (path u)) ∧
      (∀ p < maxProcesses, s.processArray p = 1 ↔
        ∃ t, (s.terminals t).firstProcess = true ∧ p ∈ path t) ∧
      (∀ t, ∀ p ∈ path t, p < maxProcesses ∧ (s.pcbs (pcbAddr p)).pid = p) ∧
      ∀ frame request result entryPoint, syscall env s frame request = some result →
        result.outcome = .entered entryPoint →
        HandedOut s.processes result.kernel fun p =>
          (∃ status, request = .halt status) ∧ p = s.curPcb.pid := by
  obtain ⟨path, acc⟩ := reach.accounting
  refine ⟨path, fun t running => ?_, acc.forest.disjoint, fun p slot => ?_,
    fun t p member => ⟨(acc.live member).1, acc.named t p member⟩, ?_⟩
  · obtain ⟨pointer, member⟩ := acc.pointed t running
    have number : (s.pcbs (s.terminals t).curPcb).pid = (s.terminals t).currentPid := by
      have named := acc.named t _ member
      rw [← pointer] at named
      exact named
    refine ⟨?_, (acc.chain running).nodup, acc.based t running, number.symm, pointer⟩
    rw [number]
    exact acc.chain running
  · -- A slot is taken exactly when it is on some running terminal's chain.
    constructor
    · intro taken
      obtain ⟨t, member⟩ := (acc.forest.live_iff p).mp ⟨slot, taken⟩
      exact ⟨t, acc.running_of_mem member, member⟩
    · rintro ⟨t, -, member⟩
      exact (acc.live member).2
  · intro frame request result entryPoint done entered
    -- Only a successful execute and a restarted base shell enter a program.
    cases request with
    | execute command =>
      simp only [syscall, Option.map_eq_some_iff] at done
      obtain ⟨⟨outcome, next⟩, executed, rfl⟩ := done
      rcases execute_cases executed with ⟨returned, -⟩ | ⟨text, point, -, -, ⟨started⟩⟩
      · exact absurd (returned.symm.trans entered) (by simp)
      · -- `execute` ends no process, so the slot is apart from every live one.
        have handed := started.handedOut acc
        exact ⟨handed.slot, handed.block, handed.stack, handed.mapped,
          fun p alive _ => handed.apart p alive id⟩
    | halt status =>
      simp only [syscall, Option.map_eq_some_iff] at done
      obtain ⟨⟨outcome, next⟩, ended, rfl⟩ := done
      obtain ⟨mapped, halted⟩ := halt_cases ended
      cases halted with
      | child => simp at entered
      | stranded => simp at entered
      | restarted base started =>
        have handed := restarted_handedOut acc mapped base started
        exact ⟨handed.slot, handed.block, handed.stack, handed.mapped,
          fun p alive other => handed.apart p alive fun same => other ⟨⟨status, rfl⟩, same⟩⟩
    | read | write | «open» | close | getargs | vidmap =>
      exact absurd entered (plain_not_entered (by trivial) done)

/-- A child on the first terminal, and then a shell with a child of its own on the second. -/
def nestedShells : List Event :=
  [.call sampleFrame (.execute (some shell))] ++ startSecond ++
    [.pit 300 400, .call sampleFrame (.execute (some shell))]

/-- Two terminals with two processes each, and the slot that is handed out next. -/
theorem process_table_accounts_sample : ∃ (s : Kernel) (path : Terminal → List Nat)
    (result : CallResult), Run (step sampleEnv) Always sampleBooted nestedShells s ∧
      Chain s.processes.parent 3 (path 0) ∧ Chain s.processes.parent 4 (path 1) ∧
      (path 0).Disjoint (path 1) ∧
      syscall sampleEnv s sampleFrame (.execute (some shell)) = some result ∧
      HandedOut s.processes result.kernel fun _ => False := by
  -- The run and the call after it are executed, and the theorem is read at their end.
  have given : ((replay (step sampleEnv) Always sampleBooted nestedShells).bind fun s =>
      (syscall sampleEnv s sampleFrame (.execute (some shell))).map fun result =>
        (s, result)).map (fun pair => decide (
          ((pair.1.terminals 0).firstProcess = true ∧ (pair.1.terminals 1).firstProcess = true) ∧
          (pair.1.pcbs (pair.1.terminals 0).curPcb).pid = 3 ∧
          (pair.1.pcbs (pair.1.terminals 1).curPcb).pid = 4 ∧
          pair.2.outcome = .entered 0x8048018)) = some true := by decide +kernel
  obtain ⟨pair, both, facts⟩ := Option.map_eq_some_iff.mp given
  obtain ⟨s, reached, called⟩ := Option.bind_eq_some_iff.mp both
  obtain ⟨result, done, rfl⟩ := Option.map_eq_some_iff.mp called
  obtain ⟨⟨first, second⟩, three, four, entered⟩ := of_decide_eq_true facts
  have run := replay_run reached
  obtain ⟨path, chains, apart, -, -, handed⟩ :=
    process_table_accounts ⟨sampleBooted, nestedShells, sample_boot, run⟩
  have slot := handed _ _ _ _ done entered
  have front := (chains 0 first).1
  have back := (chains 1 second).1
  rw [show (s.pcbs (s.terminals 0).curPcb).pid = 3 from three] at front
  rw [show (s.pcbs (s.terminals 1).curPcb).pid = 4 from four] at back
  refine ⟨s, path, result, run, front, back, apart 0 1 (by decide), done, ?_⟩
  simpa using slot

end SmallOs
