import SmallOs.Proofs.Process.Accounting

/-! Starting a process and ending it again undo each other, whatever the process did in between. -/

namespace SmallOs

open Foundation

/-- Any action but a timer interrupt. -/
def TickFree (_ : Kernel) : Action → Prop
  -- Every other interrupt, call or store is allowed.
  | .event (.pit _ _) => False
  | _ => True

/-- The states the booted machine reaches without a timer interrupt. -/
def TickFreeReachable (env : Env) (s : Kernel) : Prop :=
  ∃ start actions, boot env = some start ∧ Run (act env) TickFree start actions s

/-- Any action but a timer interrupt, the end of a process, and the start of one. -/
def Inside (env : Env) (s : Kernel) : Action → Prop
  -- What starts or ends a process is no work of the process itself.
  | .event event => Uneventful env s event
  | .store _ _ => True

/--
Part of the life of the process that runs, with every child it starts ended in between.

A child is a process whose `parent_pid` is the number of the process that started it.
-/
inductive Lifetime (env : Env) : Kernel → Kernel → Prop where
  | nil (s : Kernel) : Lifetime env s s
  /-- Interrupts, calls of its own, and stores into its page. -/
  | work {s before after : Kernel} {action : Action} (life : Lifetime env s before)
      (inside : Inside env before action) (taken : act env before action = some after) :
      Lifetime env s after
  /-- A child is started, lives, and halts. -/
  | child {s before started finished after : Kernel} {frame haltFrame : CallFrame}
      {command : List Byte} {entryPoint : Nat} {outcome : Outcome} (life : Lifetime env s before)
      (entered : execute env before frame (some command) = some (.entered entryPoint, started))
      (own : started.curPcb.parentPid = before.scheduled.currentPid)
      (inner : Lifetime env started finished)
      (ended : halt env finished haltFrame = some (outcome, after)) : Lifetime env s after

/-- The processor is set up for the process of the scheduled terminal, if that terminal runs one. -/
structure Settled (s : Kernel) : Prop where
  -- Every process is accounted for by the terminal it runs on.
  accounted : Accounted s
  -- The page at 128 megabytes is the running process's.
  entry : s.scheduled.firstProcess = true →
    s.pageDirectory userPde = frameEntry s.scheduled.currentPid
  -- An interrupt from user mode arrives on the running process's kernel stack.
  stack : s.scheduled.firstProcess = true → s.tss = ⟨pcbAddr s.scheduled.currentPid, kernelDs⟩

/-- What a process that goes on finds as it left it, after work of its own or of its children. -/
structure Kept (s next : Kernel) : Prop where
  running : next.currTerminal = s.currTerminal
  slot : next.scheduled.curPcb = s.scheduled.curPcb ∧
    next.scheduled.firstProcess = s.scheduled.firstProcess ∧
    next.scheduled.currentPid = s.scheduled.currentPid
  processArray : next.processArray = s.processArray
  entry : next.pageDirectory userPde = s.pageDirectory userPde
  tss : next.tss = s.tss
  /-- The process may open and close files, but its identity is fixed. -/
  block : next.curPcb.block = s.curPcb.block
  /-- The control block of every other live process is as it was. -/
  pcbs : ∀ p, s.processes.Live p → p ≠ s.scheduled.currentPid →
    next.pcbs (pcbAddr p) = s.pcbs (pcbAddr p)
  /-- The frame of every other live process is as it was. -/
  memory : ∀ p, s.processes.Live p → p ≠ s.scheduled.currentPid → ∀ offset < 0x400000,
    next.frames (0x800000 + 0x400000 * p + offset) = s.frames (0x800000 + 0x400000 * p + offset)

/-- A state in which the parent goes on exactly as it was before it started a child. -/
structure Restored (before after : Kernel) : Prop where
  processArray : after.processArray = before.processArray
  curPcb : (after.terminals before.currTerminal).curPcb = before.scheduled.curPcb
  currentPid : (after.terminals before.currTerminal).currentPid = before.scheduled.currentPid
  firstProcess : (after.terminals before.currTerminal).firstProcess = true
  running : after.currTerminal = before.currTerminal
  entry : after.pageDirectory userPde = before.pageDirectory userPde
  tss : after.tss = before.tss
  /-- The parent's descriptors, arguments, and identity. -/
  pcb : after.pcbs before.scheduled.curPcb = before.pcbs before.scheduled.curPcb
  /-- The parent's four megabytes. -/
  memory : ∀ offset < 0x400000,
    after.frames (0x800000 + 0x400000 * before.scheduled.currentPid + offset) =
      before.frames (0x800000 + 0x400000 * before.scheduled.currentPid + offset)
  /-- Every other live process has its control block and its frame as well. -/
  others : ∀ p, before.processes.Live p → after.pcbs (pcbAddr p) = before.pcbs (pcbAddr p) ∧
    ∀ offset < 0x400000, after.frames (0x800000 + 0x400000 * p + offset) =
      before.frames (0x800000 + 0x400000 * p + offset)

namespace Kept

variable {s middle next : Kernel}

theorem refl (s : Kernel) : Kept s s :=
  -- Nothing happened.
  ⟨rfl, ⟨rfl, rfl, rfl⟩, rfl, rfl, rfl, rfl, fun _ _ _ => rfl, fun _ _ _ _ _ => rfl⟩

theorem trans (first : Kept s middle) (second : Kept middle next) : Kept s next := by
  -- The same processes are live throughout, and the same one of them runs.
  have live : ∀ p, s.processes.Live p → middle.processes.Live p := fun p alive =>
    ⟨alive.1, (congrFun first.processArray p).trans alive.2⟩
  have other : ∀ p, p ≠ s.scheduled.currentPid → p ≠ middle.scheduled.currentPid :=
    fun p differ => first.slot.2.2 ▸ differ
  exact
    { running := second.running.trans first.running
      slot := ⟨second.slot.1.trans first.slot.1, second.slot.2.1.trans first.slot.2.1,
        second.slot.2.2.trans first.slot.2.2⟩
      processArray := second.processArray.trans first.processArray
      entry := second.entry.trans first.entry
      tss := second.tss.trans first.tss
      block := second.block.trans first.block
      pcbs := fun p alive differ =>
        (second.pcbs p (live p alive) (other p differ)).trans (first.pcbs p alive differ)
      memory := fun p alive differ offset inside =>
        (second.memory p (live p alive) (other p differ) offset inside).trans
          (first.memory p alive differ offset inside) }

/-- A quiet step of a running process is work of its own. -/
theorem quiet {path : Terminal → List Nat} (acc : Accounting s.processes path)
    (first : s.scheduled.firstProcess = true)
    (entry : s.pageDirectory userPde = frameEntry s.scheduled.currentPid)
    (still : Quiet s next) : Kept s next := by
  have same := still.processes
  have running : next.currTerminal = s.currTerminal := congrArg Processes.running same
  have slot := scheduled_slot same
  have pointer : next.scheduled.curPcb = s.scheduled.curPcb := congrArg Slot.curPcb slot
  obtain ⟨pointed, -⟩ := acc.pointed s.currTerminal first
  have home : s.scheduled.curPcb = pcbAddr s.scheduled.currentPid := pointed
  have mine := userFrame_of_entry entry (acc.live (acc.pointed s.currTerminal first).2).1
  -- What a call stores goes into the page of the process itself.
  refine ⟨running, ⟨pointer, congrArg Slot.firstProcess slot, congrArg Slot.currentPid slot⟩,
    congrArg Processes.processArray same, congrArg Processes.userEntry same, still.tss, ?_,
    fun p alive differ => still.pcbs ?_, fun p _ differ offset _ => still.frames _ (by omega)⟩
  · unfold Kernel.curPcb
    rw [pointer]
    exact congrFun (congrArg Processes.blocks same) s.scheduled.curPcb
  · -- Distinct processes have distinct control blocks.
    rw [home]
    exact fun equal => differ (pcbAddr_inj alive.1
      (acc.live (acc.pointed s.currTerminal first).2).1 equal)

/-- A process whose child has ended finds everything as it left it. -/
theorem restored (first : s.scheduled.firstProcess = true) (back : Restored s next) :
    Kept s next := by
  -- The terminal is the same, so its record is looked up in the same place.
  have place : next.scheduled = next.terminals s.currTerminal := by
    unfold Kernel.scheduled
    rw [back.running]
  have pointer : next.scheduled.curPcb = s.scheduled.curPcb := by
    rw [place]
    exact back.curPcb
  refine ⟨back.running, ⟨pointer, ?_, ?_⟩, back.processArray, back.entry, back.tss, ?_,
    fun p alive _ => (back.others p alive).1, fun p alive _ => (back.others p alive).2⟩
  · rw [place, back.firstProcess, first]
  · rw [place]
    exact back.currentPid
  · unfold Kernel.curPcb
    rw [pointer, back.pcb]

end Kept

/-- What the end of a child did. -/
structure ChildEnded (s after : Kernel) : Prop where
  processes : after.processes = s.processes.release.resume s.curPcb.parentPid
  tss : after.tss = ⟨pcbAddr s.curPcb.parentPid, kernelDs⟩
  pcbs : ∀ address ≠ s.scheduled.curPcb, after.pcbs address = s.pcbs address
  frames : after.frames = s.frames

theorem childEnded (s : Kernel) :
    ChildEnded s (resumeParent (endProcess s) s.curPcb.parentPid) := by
  -- The end frees a slot, the return loads the parent, and no frame is written.
  refine ⟨child_processes s, ?_, fun _ other => endProcess_pcbs s other, rfl⟩
  change (⟨pcbAddr ((endProcess s).pcbs (endProcess s).currentPcb).parentPid, kernelDs⟩ : Tss) = _
  rw [endProcess_parentPid]

/-- A process that has a parent ends, and returns on the frame its parent called from. -/
theorem halt_child {env : Env} {s after : Kernel} {frame : CallFrame} {outcome : Outcome}
    (above : s.curPcb.parentPid ≠ noParent) (ended : halt env s frame = some (outcome, after)) :
    outcome = .resumed s.curPcb.oldEsp s.curPcb.oldEbp 0 ∧ ChildEnded s after := by
  obtain ⟨-, halted⟩ := halt_cases ended
  -- The other two ends are those of a base shell.
  cases halted with
  | stranded base => exact absurd base above
  | restarted base => exact absurd base above
  | child => exact ⟨rfl, childEnded s⟩

namespace Settled

variable {env : Env} {s next : Kernel}

/-- A program that was entered is settled. -/
theorem entered {path : Terminal → List Nat} (acc : Accounting s.processes path)
    {frame : CallFrame} {command : List Byte} {entryPoint : Nat}
    (entered : Entered env s frame command entryPoint next) : Settled next := by
  obtain ⟨fresh, started⟩ := entered.processes
  -- The start loads the page and the stack of the number it hands out.
  obtain ⟨-, -, number⟩ := entered.scheduled
  refine ⟨⟨_, started ▸ acc.spawn fresh frame entered.arg⟩, fun _ => ?_, fun _ => ?_⟩
  · rw [number]
    exact congrArg Processes.userEntry started
  · rw [number]
    exact entered.tss

/-- The parent that goes on after the end of a process is settled. -/
theorem resumed {path : Terminal → List Nat} (acc : Accounting s.processes path)
    (mapped : Mapped s.scheduled.curPcb) (above : s.curPcb.parentPid ≠ noParent)
    (ended : ChildEnded s next) : Settled next := by
  -- The terminal keeps the parent's number from now on.
  have number : next.scheduled.currentPid = s.curPcb.parentPid := by
    have slots := congrArg (fun ps => (ps.slots ps.running).currentPid) ended.processes
    simp only [Processes.resume, Processes.release, Function.update_self] at slots
    exact slots
  have accounts := acc.finish (acc.running_of_child mapped above) above
  refine ⟨⟨_, ended.processes ▸ accounts⟩, fun _ => ?_, fun _ => ?_⟩
  · rw [number]
    exact congrArg Processes.userEntry ended.processes
  · rw [number]
    exact ended.tss

/-- Every step but a timer interrupt keeps the processor set up. -/
theorem step (settled : Settled s) {event : Event} (tickless : TickFree s (.event event))
    (taken : step env s event = some next) : Settled next := by
  obtain ⟨path, acc⟩ := settled.accounted
  -- A quiet step leaves slots, page and stack alone; the other kinds set them up anew.
  cases step_cases taken with
  | quiet kept _ =>
    have same := kept.processes
    have slot := scheduled_slot same
    have number : next.scheduled.currentPid = s.scheduled.currentPid :=
      congrArg Slot.currentPid slot
    have runs : next.scheduled.firstProcess = s.scheduled.firstProcess :=
      congrArg Slot.firstProcess slot
    refine ⟨⟨path, same ▸ acc⟩, fun first => ?_, fun first => ?_⟩
    · rw [number]
      exact (congrArg Processes.userEntry same).trans (settled.entry (runs ▸ first))
    · rw [number, kept.tss]
      exact settled.stack (runs ▸ first)
  | tick => exact tickless.elim
  | enter started => exact entered acc started
  | finish _ mapped halted =>
    cases halted with
    | child above => exact resumed acc mapped above (childEnded s)
    | @stranded failed base refused =>
      -- The terminal is left without a process, so nothing has to be set up.
      have after := stranded_processes base refused
      have idle : (resumeParent failed noParent).scheduled.firstProcess = false := by
        have slots := congrArg (fun ps => (ps.slots ps.running).firstProcess) after
        refine slots.trans ?_
        simp [Processes.resume, Processes.vacate, Processes.release]
      have accounts := acc.strand mapped base
      exact ⟨⟨_, after ▸ accounts⟩, fun first => by simp [idle] at first,
        fun first => by simp [idle] at first⟩
    | restarted base started => exact entered (acc.endBaseShell mapped base) started

/-- Every action but a timer interrupt keeps the processor set up. -/
theorem act (settled : Settled s) {action : Action} (tickless : TickFree s action)
    (taken : act env s action = some next) : Settled next := by
  -- An action is a step of the kernel, or a store of the process itself.
  cases action with
  | event event => exact settled.step tickless taken
  | store offset value =>
    -- A store through the user page changes nothing but the page.
    simp only [SmallOs.act] at taken
    split at taken
    · cases taken
      exact ⟨settled.accounted, settled.entry, settled.stack⟩
    · cases taken

end Settled

/-- Every state the booted machine reaches without a timer interrupt is settled. -/
theorem TickFreeReachable.settled {env : Env} {s : Kernel} (reach : TickFreeReachable env s) :
    Settled s := by
  obtain ⟨start, actions, booted, run⟩ := reach
  -- The first shell is settled when it is entered, and no action unsettles it.
  refine run.invariant Settled ?_ fun _ _ _ settled tickless taken => settled.act tickless taken
  obtain ⟨_, ⟨entered⟩⟩ := boot_entered booted
  exact Settled.entered (accounting_initial env) entered

/-- A child of the running process is started on the displayed terminal, which is the scheduled one. -/
theorem Entered.displayed_of_child {env : Env} {s next : Kernel} {frame : CallFrame}
    {command : List Byte} {entryPoint : Nat} {path : Terminal → List Nat}
    (acc : Accounting s.processes path) (first : s.scheduled.firstProcess = true)
    (entered : Entered env s frame command entryPoint next)
    (own : next.curPcb.parentPid = s.scheduled.currentPid) : s.currentId = s.currTerminal := by
  -- The parent of the new process is the displayed terminal's, and this is the caller.
  have member := (acc.pointed s.currTerminal first).2
  have parent := congrArg Block.parentPid entered.block
  change next.curPcb.parentPid = _ at parent
  rw [own] at parent
  by_contra apart
  split at parent
  · -- The process of another terminal has another number.
    rename_i shown
    have there := (acc.pointed s.currentId shown).2
    exact acc.forest.disjoint s.currTerminal s.currentId (Ne.symm apart) member
      (by change s.scheduled.currentPid ∈ _; rw [parent]; exact there)
  · exact ne_noParent (acc.live member).1 parent

/-- The control block of a child that is about to end names its parent and where that one called from. -/
theorem Kept.childBlock {env : Env} {before started finished : Kernel} {frame : CallFrame}
    {command : List Byte} {entryPoint : Nat} (kept : Kept started finished)
    (shown : before.currentId = before.currTerminal)
    (first : before.scheduled.firstProcess = true)
    (entered : Entered env before frame command entryPoint started) :
    finished.curPcb.block = ⟨entered.pid, before.scheduled.currentPid, frame.esp, frame.ebp,
      entered.arg, entered.arg.length⟩ := by
  -- Displayed and scheduled terminal are one, so the parent is the scheduled process.
  have displayed : before.displayed = before.scheduled := by
    unfold Kernel.displayed Kernel.scheduled
    rw [shown]
  rw [kept.block, entered.block, displayed, if_pos first]

/-- The slot a child takes is the one its end gives back, and it was free before. -/
theorem child_array {env : Env} {before started finished after : Kernel} {frame : CallFrame}
    {command : List Byte} {entryPoint : Nat} (shown : before.currentId = before.currTerminal)
    (first : before.scheduled.firstProcess = true)
    (entered : Entered env before frame command entryPoint started)
    (kept : Kept started finished) (ended : ChildEnded finished after) :
    after.processArray = before.processArray := by
  -- The entry that is taken at the start is the one that is given back at the end.
  obtain ⟨fresh, spawned⟩ := entered.processes
  have number : finished.curPcb.pid = entered.pid :=
    congrArg Block.pid (kept.childBlock shown first entered)
  have taken : started.processArray = Function.update before.processArray entered.pid 1 :=
    congrArg Processes.processArray spawned
  have given : after.processArray = Function.update finished.processArray finished.curPcb.pid 0 :=
    congrArg Processes.processArray ended.processes
  rw [given, number, kept.processArray, taken, Function.update_idem]
  refine Function.update_eq_self_iff.mpr ?_
  have runs : (before.processes.slots before.currentId).firstProcess = true := shown ▸ first
  unfold Processes.Fresh at fresh
  rw [if_pos runs] at fresh
  exact fresh.2.symm

/-- No live process has the child's number, so each keeps its control block and its frame. -/
theorem child_others {env : Env} {before started finished after : Kernel} {frame : CallFrame}
    {command : List Byte} {entryPoint : Nat} {path : Terminal → List Nat}
    (acc : Accounting before.processes path)
    (entered : Entered env before frame command entryPoint started)
    (kept : Kept started finished) (ended : ChildEnded finished after) {p : Nat}
    (alive : before.processes.Live p) : after.pcbs (pcbAddr p) = before.pcbs (pcbAddr p) ∧
      ∀ offset < 0x400000, after.frames (0x800000 + 0x400000 * p + offset) =
        before.frames (0x800000 + 0x400000 * p + offset) := by
  -- Neither end of the child touches what belongs to another number.
  obtain ⟨fresh, spawned⟩ := entered.processes
  have slot := Accounting.fresh_lt fresh
  have differ : p ≠ entered.pid := fun same => acc.fresh_not_live fresh (same ▸ alive)
  have still : started.processes.Live p := by
    rw [spawned, Processes.spawn_live _ _ _ _ _ slot]
    exact .inr alive
  have apart : pcbAddr p ≠ pcbAddr entered.pid := fun same =>
    differ (pcbAddr_inj alive.1 slot same)
  have alone : p ≠ started.scheduled.currentPid := by
    rw [entered.scheduled.2.2]
    exact differ
  refine ⟨(ended.pcbs _ ?_).trans ((kept.pcbs p still alone).trans (entered.pcbs apart)), ?_⟩
  · rw [kept.slot.1, entered.scheduled.1]
    exact apart
  · intro offset inside
    rw [ended.frames]
    exact (kept.memory p still alone offset inside).trans (entered.frames slot differ inside)

/--
The end of a child brings back the state in which its parent started it.

What happened in between is known only by what it kept of the child and of every other process.
-/
theorem child_restored {env : Env} {before started finished after : Kernel} {frame : CallFrame}
    {command : List Byte} {entryPoint : Nat} (settled : Settled before)
    (shown : before.currentId = before.currTerminal)
    (first : before.scheduled.firstProcess = true)
    (entered : Entered env before frame command entryPoint started)
    (kept : Kept started finished) (ended : ChildEnded finished after) :
    Restored before after := by
  obtain ⟨path, acc⟩ := settled.accounted
  obtain ⟨-, spawned⟩ := entered.processes
  obtain ⟨pointed, member⟩ := acc.pointed before.currTerminal first
  have home : before.scheduled.curPcb = pcbAddr before.scheduled.currentPid := pointed
  have parentLive : before.processes.Live before.scheduled.currentPid := acc.live member
  have block := kept.childBlock shown first entered
  have parent : finished.curPcb.parentPid = before.scheduled.currentPid :=
    congrArg Block.parentPid block
  have running : finished.currTerminal = before.currTerminal :=
    (kept.running.trans (congrArg Processes.running spawned)).trans shown
  have array := child_array shown first entered kept ended
  have record : (after.terminals before.currTerminal).slot =
      { finished.scheduled.slot with
        curPcb := pcbAddr before.scheduled.currentPid
        currentPid := before.scheduled.currentPid } := by
    have slots := congrArg (fun ps => ps.slots finished.currTerminal) ended.processes
    rw [← running]
    refine slots.trans ?_
    rw [parent]
    simp [Processes.resume, Processes.release, Kernel.processes, Kernel.scheduled]
  have others := fun p alive => child_others acc entered kept ended (p := p) alive
  -- Put together: the slot, the record, the page, the stack, and every other process.
  refine ⟨array, (congrArg Slot.curPcb record).trans home.symm, congrArg Slot.currentPid record,
    (congrArg Slot.firstProcess record).trans (kept.slot.2.1.trans entered.scheduled.2.1),
    (congrArg Processes.running ended.processes).trans running, ?_, ?_, ?_,
    (others _ parentLive).2, others⟩
  · rw [settled.entry first, ← parent]
    exact congrArg Processes.userEntry ended.processes
  · rw [settled.stack first, ← parent]
    exact ended.tss
  · rw [home]
    exact (others _ parentLive).1

/-- The `halt` of a child returns on the frame of the call that started it, in the state before that call. -/
theorem child_round_trip {env : Env} {before started finished after : Kernel}
    {frame haltFrame : CallFrame} {command : List Byte} {entryPoint : Nat} {outcome : Outcome}
    (settled : Settled before) (shown : before.currentId = before.currTerminal)
    (first : before.scheduled.firstProcess = true)
    (entered : Entered env before frame command entryPoint started)
    (kept : Kept started finished)
    (ended : halt env finished haltFrame = some (outcome, after)) :
    outcome = .resumed frame.esp frame.ebp 0 ∧ Restored before after := by
  obtain ⟨path, acc⟩ := settled.accounted
  have block := kept.childBlock shown first entered
  have parent : finished.curPcb.parentPid = before.scheduled.currentPid :=
    congrArg Block.parentPid block
  -- The parent is live, so its number is not the one that marks a base shell.
  have above : finished.curPcb.parentPid ≠ noParent := by
    rw [parent]
    exact ne_noParent (acc.live (acc.pointed before.currTerminal first).2).1
  obtain ⟨resumed, done⟩ := halt_child above ended
  refine ⟨resumed.trans ?_, child_restored settled shown first entered kept done⟩
  rw [show finished.curPcb.oldEsp = frame.esp from congrArg Block.oldEsp block,
    show finished.curPcb.oldEbp = frame.ebp from congrArg Block.oldEbp block]

/-- Work inside a process keeps what the process relies on. -/
theorem Settled.inside {env : Env} {s next : Kernel} {action : Action} (settled : Settled s)
    (first : s.scheduled.firstProcess = true) (inside : Inside env s action)
    (taken : SmallOs.act env s action = some next) : Kept s next ∧ TickFree s action := by
  obtain ⟨path, acc⟩ := settled.accounted
  -- What the kernel does in a quiet step is kept, and a store lands in the process's own frame.
  cases action with
  | event event =>
    cases step_cases taken with
    | quiet still uneventful =>
      refine ⟨Kept.quiet acc first (settled.entry first) still, ?_⟩
      cases event with
      | pit => exact uneventful.elim
      | keyboard | rtc | call => trivial
    | tick => exact inside.elim
    -- A program that is entered is a child, and no work of the process itself.
    | enter started => exact absurd started.executed (inside _ next)
    | finish => exact inside.elim
  | store offset value =>
    refine ⟨?_, trivial⟩
    simp only [SmallOs.act] at taken
    split at taken
    · rename_i within
      cases taken
      refine ⟨rfl, ⟨rfl, rfl, rfl⟩, rfl, rfl, rfl, rfl, fun _ _ _ => rfl,
        fun p alive differ position below => ?_⟩
      -- The page that is mapped is the frame of the running process.
      have slot := (acc.live (acc.pointed s.currTerminal first).2).1
      rw [userFrame_of_entry (settled.entry first) slot]
      exact Function.update_of_ne (by omega) _ _
    · cases taken

/--
A process finds everything as it left it after any part of its life.

The induction follows the nesting: the life of a child is settled first, and its end undoes its start.
-/
theorem Lifetime.kept {env : Env} {s next : Kernel} (life : Lifetime env s next) :
    Settled s → s.scheduled.firstProcess = true → Settled next ∧ Kept s next := by
  -- Both halves of the statement are carried along, so that the child can use them.
  induction life with
  | nil s => exact fun settled _ => ⟨settled, Kept.refl s⟩
  | work _ inside taken ih =>
    intro settled first
    obtain ⟨before, kept⟩ := ih settled first
    obtain ⟨still, tickless⟩ := before.inside (kept.slot.2.1.trans first) inside taken
    exact ⟨before.act tickless taken, kept.trans still⟩
  | @child s before started finished after frame haltFrame command entryPoint outcome _ entered own
      _ ended outer inner =>
    intro settled first
    obtain ⟨ready, kept⟩ := outer settled first
    have runs := kept.slot.2.1.trans first
    obtain ⟨path, acc⟩ := ready.accounted
    rcases execute_cases entered with ⟨refused, -⟩ | ⟨text, point, same, outcome, ⟨program⟩⟩
    · cases refused
    · cases same
      cases outcome
      have shown := program.displayed_of_child acc runs own
      obtain ⟨last, lived⟩ := inner (Settled.entered acc program) program.scheduled.2.1
      have restored := (child_round_trip ready shown runs program lived ended).2
      have tickless : TickFree finished (.event (.call haltFrame (.halt 0))) := trivial
      exact ⟨last.step tickless (step_halt 0 ended), kept.trans (Kept.restored runs restored)⟩

/--
A successful `execute` and the `halt` of the process it created undo each other.

The process may do any work in between, and start and outlive any number of children.
-/
theorem execute_halt_round_trip {env : Env} {before started finished after : Kernel}
    {frame haltFrame : CallFrame} {command : List Byte} {entryPoint : Nat} {outcome : Outcome}
    (reach : TickFreeReachable env before) (shown : before.currentId = before.currTerminal)
    (first : before.scheduled.firstProcess = true)
    (entered : execute env before frame (some command) = some (.entered entryPoint, started))
    (life : Lifetime env started finished)
    (ended : halt env finished haltFrame = some (outcome, after)) :
    outcome = .resumed frame.esp frame.ebp 0 ∧ Restored before after := by
  have settled := reach.settled
  obtain ⟨path, acc⟩ := settled.accounted
  -- A call that returned an entry point has entered a program.
  rcases execute_cases entered with ⟨refused, -⟩ | ⟨text, point, same, left, ⟨program⟩⟩
  · cases refused
  · cases same
    cases left
    obtain ⟨-, lived⟩ := life.kept (Settled.entered acc program) program.scheduled.2.1
    exact child_round_trip settled shown first program lived ended

/-- A shell that outlives a shell it started and then stores a byte leaves its parent as it was. -/
theorem execute_halt_round_trip_sample : ∃ child grandchild back worked after,
    execute sampleEnv sampleBooted sampleFrame (some shell) = some (.entered 0x8048018, child) ∧
      execute sampleEnv child bootFrame (some shell) = some (.entered 0x8048018, grandchild) ∧
      (∃ outcome, halt sampleEnv grandchild bootFrame = some (outcome, back)) ∧
      act sampleEnv back (.store 5 0x61) = some worked ∧
      halt sampleEnv worked bootFrame = some (.resumed 100 200 0, after) ∧
      Restored sampleBooted after := by
  have given : ((execute sampleEnv sampleBooted sampleFrame (some shell)).bind fun child =>
      (execute sampleEnv child.2 bootFrame (some shell)).bind fun grandchild =>
        (halt sampleEnv grandchild.2 bootFrame).bind fun back =>
          (act sampleEnv back.2 (.store 5 0x61)).bind fun worked =>
            (halt sampleEnv worked bootFrame).map fun after => decide (
              child.1 = .entered 0x8048018 ∧ grandchild.1 = .entered 0x8048018 ∧
              grandchild.2.curPcb.parentPid = child.2.scheduled.currentPid)) = some true := by
    decide +kernel
  -- The five steps are taken apart again.
  obtain ⟨⟨outer, child⟩, entered, given⟩ := Option.bind_eq_some_iff.mp given
  obtain ⟨⟨inner, grandchild⟩, nested, given⟩ := Option.bind_eq_some_iff.mp given
  obtain ⟨⟨outcome, back⟩, returned, given⟩ := Option.bind_eq_some_iff.mp given
  obtain ⟨worked, stored, given⟩ := Option.bind_eq_some_iff.mp given
  obtain ⟨⟨last, after⟩, ended, facts⟩ := Option.map_eq_some_iff.mp given
  obtain ⟨rfl, rfl, own⟩ : outer = .entered 0x8048018 ∧ inner = .entered 0x8048018 ∧
    grandchild.curPcb.parentPid = child.scheduled.currentPid := of_decide_eq_true facts
  -- No action comes between boot and the start of the child.
  have reach : TickFreeReachable sampleEnv sampleBooted := ⟨_, [], sample_boot, .nil _⟩
  have inside : Inside sampleEnv back (.store 5 0x61) := trivial
  have life : Lifetime sampleEnv child worked :=
    .work (.child (.nil child) nested own (.nil grandchild) returned) inside stored
  obtain ⟨rfl, restored⟩ := execute_halt_round_trip reach (by decide +kernel) (by decide +kernel)
    entered life ended
  exact ⟨child, grandchild, back, worked, after, entered, nested, ⟨outcome, returned⟩, stored,
    ended, restored⟩

end SmallOs
