import SmallOs.Proofs.Kernel.Frame

/-! What each call and interrupt does to the processes: one inversion lemma for every transition. -/

namespace SmallOs

open Foundation

/-- The picked slot is fresh. -/
theorem fresh_of_pickProcess {s : Kernel} {pid : Nat} (picked : pickProcess s = some pid) :
    s.processes.Fresh s.currentId pid := by
  -- A terminal that already runs a process searches the child slots in order.
  unfold pickProcess at picked
  unfold Processes.Fresh
  change if s.displayed.firstProcess then _ else _
  split at picked
  · rename_i running
    rw [if_pos running]
    have free : s.processArray pid = 0 := by simpa using List.find?_some picked
    exact ⟨List.mem_of_find?_eq_some picked, free⟩
  · -- A terminal without a process has one slot of its own, which the source does not search for.
    rename_i idle
    rw [if_neg idle]
    exact (Option.some.inj picked).symm

section MarkFish

variable (s : Kernel) (fileName : List Byte)

theorem markFish_processes : (markFish s fileName).processes = s.processes :=
  (screenOnly_markFish s fileName).processes

theorem markFish_currentId : (markFish s fileName).currentId = s.currentId := by
  unfold markFish
  split <;> rfl

theorem markFish_processArray : (markFish s fileName).processArray = s.processArray := by
  unfold markFish
  split <;> rfl

theorem markFish_firstProcess :
    (markFish s fileName).displayed.firstProcess = s.displayed.firstProcess := by
  unfold markFish
  split
  · simp [Kernel.displayed, Kernel.setTerminal, Kernel.setConsole]
  · rfl

/-- The name of the program does not change which slot is picked. -/
theorem markFish_pickProcess : pickProcess (markFish s fileName) = pickProcess s := by
  unfold pickProcess
  rw [markFish_firstProcess, markFish_processArray, markFish_currentId]

/-- The name of the program does not change whether the table is full. -/
theorem markFish_tableFull : TableFull (markFish s fileName) ↔ TableFull s := by
  unfold TableFull
  rw [markFish_processArray]

end MarkFish

/-- What `execute` did when it entered a program. -/
structure Entered (env : Env) (s : Kernel) (frame : CallFrame) (command : List Byte)
    (entryPoint : Nat) (next : Kernel) where
  fileName : List Byte
  arg : List Byte
  dentry : Dentry
  pid : Nat
  parsed : parseCommand command = some (fileName, arg)
  found : findProgram env.image frame fileName = some (dentry, entryPoint)
  room : ¬ (s.displayed.firstProcess ∧ TableFull s)
  picked : pickProcess s = some pid
  fits : FitsPage env.image dentry.inode
  started : next = startProcess env (markFish s fileName) frame dentry arg pid

/-- What `execute` did when it failed. -/
inductive Failed (env : Env) (s : Kernel) (frame : CallFrame) : Option (List Byte) → Kernel → Prop
    where
  /-- The command is a null pointer. -/
  | null : Failed env s frame none s
  /-- The name is not that of an executable. -/
  | missing {command fileName arg : List Byte}
      (parsed : parseCommand command = some (fileName, arg))
      (absent : findProgram env.image frame fileName = none) :
      Failed env s frame (some command) (markFish s fileName)
  /-- No slot is left for a child. -/
  | full {command fileName arg : List Byte} {program : Dentry × Nat}
      (parsed : parseCommand command = some (fileName, arg))
      (found : findProgram env.image frame fileName = some program)
      (child : s.displayed.firstProcess) (full : TableFull s) :
      Failed env s frame (some command) (putText (markFish s fileName) maximumProcesses)

/-- A call of `execute` that comes to an end either fails or enters a program. -/
theorem execute_cases {env : Env} {s next : Kernel} {frame : CallFrame}
    {command : Option (List Byte)} {outcome : Outcome}
    (done : execute env s frame command = some (outcome, next)) :
    (outcome = .returned (-1) ∧ Failed env s frame command next) ∨
      ∃ text entryPoint, command = some text ∧ outcome = .entered entryPoint ∧
        Nonempty (Entered env s frame text entryPoint next) := by
  -- The tests of the source are taken in order, and only the last branch starts a process.
  cases command with
  | none =>
    simp only [execute, Option.some.injEq, Prod.mk.injEq] at done
    obtain ⟨rfl, rfl⟩ := done
    exact .inl ⟨rfl, .null⟩
  | some text =>
    -- What is printed for `fish` changes neither the test for a full table nor the search.
    simp only [execute] at done
    cases parsed : parseCommand text with
    | none => simp [parsed] at done
    | some words =>
      obtain ⟨fileName, arg⟩ := words
      simp only [parsed] at done
      cases found : findProgram env.image frame fileName with
      | none =>
        simp only [found, Option.some.injEq, Prod.mk.injEq] at done
        obtain ⟨rfl, rfl⟩ := done
        exact .inl ⟨rfl, .missing parsed found⟩
      | some program =>
        obtain ⟨dentry, entryPoint⟩ := program
        simp only [found, markFish_firstProcess, markFish_tableFull, markFish_pickProcess] at done
        split at done
        · rename_i full
          simp only [Option.some.injEq, Prod.mk.injEq] at done
          obtain ⟨rfl, rfl⟩ := done
          exact .inl ⟨rfl, .full parsed found full.1 full.2⟩
        · rename_i room
          cases picked : pickProcess s with
          | none => simp [picked] at done
          | some pid =>
            simp only [picked] at done
            split at done
            · rename_i fits
              simp only [Option.some.injEq, Prod.mk.injEq] at done
              obtain ⟨rfl, rfl⟩ := done
              exact .inr ⟨text, entryPoint, rfl, rfl,
                ⟨⟨fileName, arg, dentry, pid, parsed, found, room, picked, fits, rfl⟩⟩⟩
            · cases done

/-- A call that passes every test enters its program. -/
theorem execute_of_found {env : Env} {s : Kernel} {frame : CallFrame}
    {command fileName arg : List Byte} {dentry : Dentry} {entryPoint pid : Nat}
    (parsed : parseCommand command = some (fileName, arg))
    (found : findProgram env.image frame fileName = some (dentry, entryPoint))
    (room : ¬ (s.displayed.firstProcess ∧ TableFull s)) (picked : pickProcess s = some pid)
    (fits : FitsPage env.image dentry.inode) :
    execute env s frame (some command) =
      some (.entered entryPoint, startProcess env (markFish s fileName) frame dentry arg pid) := by
  simp only [execute, parsed, found, markFish_firstProcess, markFish_tableFull,
    markFish_pickProcess, picked]
  rw [if_neg room, if_pos fits]

/-- What was entered is what the call did. -/
theorem Entered.executed {env : Env} {s next : Kernel} {frame : CallFrame} {command : List Byte}
    {entryPoint : Nat} (entered : Entered env s frame command entryPoint next) :
    execute env s frame (some command) = some (.entered entryPoint, next) := by
  rw [execute_of_found entered.parsed entered.found entered.room entered.picked entered.fits,
    ← entered.started]

/-- A failed call changes screens at most. -/
theorem Failed.screens {env : Env} {s next : Kernel} {frame : CallFrame}
    {command : Option (List Byte)} (failed : Failed env s frame command next) :
    ScreenOnly s next := by
  cases failed with
  | null => exact ScreenOnly.refl s
  | missing => exact screenOnly_markFish s _
  | full => exact (screenOnly_markFish s _).trans (deviceOnly_putText _ _).screenOnly

/-- A failed call is quiet. -/
theorem Failed.quiet {env : Env} {s next : Kernel} {frame : CallFrame}
    {command : Option (List Byte)} (failed : Failed env s frame command next) : Quiet s next :=
  .screens failed.screens

/-- A failed call touches no process. -/
theorem Failed.processes {env : Env} {s next : Kernel} {frame : CallFrame}
    {command : Option (List Byte)} (failed : Failed env s frame command next) :
    next.processes = s.processes :=
  failed.quiet.processes

/-- A failed call leaves the same terminal displayed. -/
theorem Failed.currentId {env : Env} {s next : Kernel} {frame : CallFrame}
    {command : Option (List Byte)} (failed : Failed env s frame command next) :
    next.currentId = s.currentId := by
  cases failed with
  | null => rfl
  | missing => exact markFish_currentId s _
  | full => exact (deviceOnly_putText _ _).currentId.trans (markFish_currentId s _)

/-- Starting a process spawns it on the displayed terminal. -/
theorem startProcess_processes (env : Env) (s : Kernel) (frame : CallFrame) (dentry : Dentry)
    (arg : List Byte) (pid : Nat) :
    (startProcess env s frame dentry arg pid).processes =
      s.processes.spawn s.currentId pid frame arg := by
  -- Each store is compared with the one the abstract step makes.
  have slots : ∀ u, ((startProcess env s frame dentry arg pid).terminals u).slot =
      (s.processes.spawn s.currentId pid frame arg).slots u := by
    intro u
    -- Only the record of the displayed terminal is written.
    by_cases same : u = s.currentId
    · subst same
      simp [startProcess, Kernel.setTerminal, Kernel.setPcb, loadProgram, mapToUserPhy,
        Processes.spawn, Kernel.processes, InitTerminal.slot]
    · simp [startProcess, Kernel.setTerminal, Kernel.setPcb, loadProgram, mapToUserPhy,
        Processes.spawn, Kernel.processes, same]
  have blocks : ∀ a, ((startProcess env s frame dentry arg pid).pcbs a).block =
      (s.processes.spawn s.currentId pid frame arg).blocks a := by
    intro a
    -- The new control block replaces whatever stood at its address.
    by_cases same : a = pcbAddr pid
    · subst same
      simp [startProcess, Kernel.setTerminal, Kernel.setPcb, loadProgram, mapToUserPhy,
        Processes.spawn, Kernel.processes, newPcb, Pcb.block, Kernel.displayed,
        InitTerminal.slot]
      rfl
    · simp [startProcess, Kernel.setTerminal, Kernel.setPcb, loadProgram, mapToUserPhy,
        Processes.spawn, Kernel.processes, same]
  have mapped : (startProcess env s frame dentry arg pid).pageDirectory userPde =
      frameEntry pid := by
    simp [startProcess, Kernel.setTerminal, Kernel.setPcb, loadProgram, mapToUserPhy, frameEntry]
  have array : (startProcess env s frame dentry arg pid).processArray =
      Function.update s.processArray pid 1 := rfl
  have running : (startProcess env s frame dentry arg pid).currTerminal = s.currentId := rfl
  simp only [Kernel.processes, slots, blocks, mapped, array, running]
  rfl

/-- A process that was entered is fresh, and it was spawned on the displayed terminal. -/
theorem Entered.processes {env : Env} {s next : Kernel} {frame : CallFrame} {command : List Byte}
    {entryPoint : Nat} (entered : Entered env s frame command entryPoint next) :
    s.processes.Fresh s.currentId entered.pid ∧
      next.processes = s.processes.spawn s.currentId entered.pid frame entered.arg := by
  have started := congrArg Kernel.processes entered.started
  rw [startProcess_processes, markFish_processes, markFish_currentId] at started
  exact ⟨fresh_of_pickProcess entered.picked, started⟩

/-- Entering a program leaves the same terminal displayed. -/
theorem Entered.currentId {env : Env} {s next : Kernel} {frame : CallFrame} {command : List Byte}
    {entryPoint : Nat} (entered : Entered env s frame command entryPoint next) :
    next.currentId = s.currentId :=
  (congrArg Kernel.currentId entered.started).trans (markFish_currentId s _)

/-- The record of the terminal on which a program was entered. -/
theorem Entered.scheduled {env : Env} {s next : Kernel} {frame : CallFrame} {command : List Byte}
    {entryPoint : Nat} (entered : Entered env s frame command entryPoint next) :
    next.scheduled.curPcb = pcbAddr entered.pid ∧ next.scheduled.firstProcess = true ∧
      next.scheduled.currentPid = entered.pid := by
  obtain ⟨-, started⟩ := entered.processes
  -- `execute` leaves the scheduler on the terminal that was displayed.
  have running : next.currTerminal = s.currentId := congrArg Processes.running started
  have slots := congrArg (fun ps => ps.slots s.currentId) started
  simp only [Processes.spawn, Function.update_self] at slots
  have record : next.scheduled.slot = { s.processes.slots s.currentId with
      curPcb := pcbAddr entered.pid, firstProcess := true, currentPid := entered.pid } := by
    unfold Kernel.scheduled
    rw [running]
    exact slots
  exact ⟨congrArg Slot.curPcb record, congrArg Slot.firstProcess record,
    congrArg Slot.currentPid record⟩

/-- The control block of a program that was entered. -/
theorem Entered.block {env : Env} {s next : Kernel} {frame : CallFrame} {command : List Byte}
    {entryPoint : Nat} (entered : Entered env s frame command entryPoint next) :
    next.curPcb.block = ⟨entered.pid,
      if s.displayed.firstProcess then s.displayed.currentPid else noParent,
      frame.esp, frame.ebp, entered.arg, entered.arg.length⟩ := by
  have blocks := congrArg (fun ps => ps.blocks (pcbAddr entered.pid)) entered.processes.2
  simp only [Processes.spawn, Function.update_self] at blocks
  unfold Kernel.curPcb
  rw [entered.scheduled.1]
  exact blocks

/-- The arguments of a program that was entered are the part of its command after the first space. -/
theorem Entered.arg_eq {env : Env} {s next : Kernel} {frame : CallFrame} {command : List Byte}
    {entryPoint : Nat} (entered : Entered env s frame command entryPoint next) :
    entered.arg = (command.dropWhile (· ≠ 0x20)).drop 1 := by
  have parsed := entered.parsed
  -- Whatever `execute` accepts it has split at the first space.
  unfold parseCommand at parsed
  simp only at parsed
  split at parsed
  · exact (congrArg Prod.snd (Option.some.inj parsed)).symm
  · cases parsed

/-- A program that was entered has a new control block, and every other one is as it was. -/
theorem Entered.pcbs {env : Env} {s next : Kernel} {frame : CallFrame} {command : List Byte}
    {entryPoint address : Nat} (entered : Entered env s frame command entryPoint next)
    (other : address ≠ pcbAddr entered.pid) : next.pcbs address = s.pcbs address := by
  have kept : (markFish s entered.fileName).pcbs = s.pcbs :=
    (screenOnly_markFish s _).agree Kernel.pcbs fun _ => rfl
  rw [entered.started, ← kept]
  simp [startProcess, Kernel.setTerminal, Kernel.setPcb, loadProgram, mapToUserPhy, other]

/-- A program that was entered has the descriptors of a new process. -/
theorem Entered.fd {env : Env} {s next : Kernel} {frame : CallFrame} {command : List Byte}
    {entryPoint : Nat} (entered : Entered env s frame command entryPoint next) :
    (next.pcbs (pcbAddr entered.pid)).fd = initialFd := by
  refine (congrArg (fun k => (k.pcbs (pcbAddr entered.pid)).fd) entered.started).trans ?_
  simp [startProcess, Kernel.setTerminal, Kernel.setPcb, loadProgram, mapToUserPhy, newPcb]

/-- The kernel stack of a program that was entered starts at its control block. -/
theorem Entered.tss {env : Env} {s next : Kernel} {frame : CallFrame} {command : List Byte}
    {entryPoint : Nat} (entered : Entered env s frame command entryPoint next) :
    next.tss = ⟨pcbAddr entered.pid, kernelDs⟩ := by
  refine (congrArg Kernel.tss entered.started).trans ?_
  -- The stack pointer is computed a second time, and comes out at the same address.
  simp only [startProcess, pcbAddr, sub32, u32, size8MB, size8KB, Tss.mk.injEq, and_true]
  omega

/-- The frame of a process, as its directory entry maps it. -/
theorem frameEntry_frame {p : Nat} (slot : p < maxProcesses) :
    0x400000 * (frameEntry p / 0x400000) = 0x800000 + 0x400000 * p := by
  -- The table is small enough to compute the frame of every process.
  have all : ∀ p < maxProcesses,
      0x400000 * (frameEntry p / 0x400000) = 0x800000 + 0x400000 * p := by decide
  exact all p slot

/-- The user page of a process is its frame. -/
theorem userFrame_of_entry {s : Kernel} {p : Nat} (entry : s.pageDirectory userPde = frameEntry p)
    (slot : p < maxProcesses) : userFrame s = 0x800000 + 0x400000 * p := by
  unfold userFrame
  rw [entry]
  exact frameEntry_frame slot

/-- A program is loaded into its own frame, and every other frame is as it was. -/
theorem Entered.frames {env : Env} {s next : Kernel} {frame : CallFrame} {command : List Byte}
    {entryPoint : Nat} (entered : Entered env s frame command entryPoint next)
    (slot : entered.pid < maxProcesses) {p offset : Nat} (other : p ≠ entered.pid)
    (inside : offset < 0x400000) :
    next.frames (0x800000 + 0x400000 * p + offset) =
      s.frames (0x800000 + 0x400000 * p + offset) := by
  have kept : (markFish s entered.fileName).frames = s.frames :=
    (screenOnly_markFish s _).agree Kernel.frames fun _ => rfl
  have fits := entered.fits
  rw [entered.started, ← kept]
  -- The program ends within the page it was mapped to, which is another one.
  simp only [startProcess, Kernel.setTerminal, Kernel.setPcb, loadProgram, mapToUserPhy, userFrame,
    Function.update_self]
  have home := frameEntry_frame slot
  simp only [frameEntry] at home
  rw [home, if_neg]
  simp only [FitsPage] at fits
  omega

section Halt

variable (s : Kernel)

/-- Only the control block of the ended process is changed. -/
theorem endProcess_pcbs {address : Nat} (other : address ≠ s.scheduled.curPcb) :
    (endProcess s).pcbs address = s.pcbs address := by
  simp only [Kernel.scheduled] at other
  simp [endProcess, Kernel.setTerminal, Kernel.setPcb, Kernel.scheduled, other]

/-- Ending a process takes it out of the table. -/
theorem endProcess_processes : (endProcess s).processes = s.processes.release := by
  -- The pid is read from the control block of the scheduled terminal.
  have slots : ∀ u, ((endProcess s).terminals u).slot = (s.terminals u).slot := by
    intro u
    by_cases same : u = s.currTerminal
    · subst same
      simp [endProcess, Kernel.setTerminal, Kernel.setPcb, InitTerminal.slot]
    · simp [endProcess, Kernel.setTerminal, Kernel.setPcb, same]
  -- Its descriptors are cleared, and an account sees none of them.
  have blocks : ∀ a, ((endProcess s).pcbs a).block = (s.pcbs a).block := by
    intro a
    simp only [endProcess, Kernel.setPcb, Kernel.setTerminal]
    by_cases same : a = (s.setTerminal s.currTerminal fun term =>
        { term with fish := false }).scheduled.curPcb
    · subst same
      simp [Pcb.block, Kernel.setTerminal]
    · simp [Kernel.setTerminal] at same
      simp [same]
  have array : (endProcess s).processArray =
      Function.update s.processArray (s.pcbs s.scheduled.curPcb).pid 0 := by
    simp [endProcess, Kernel.setTerminal, Kernel.setPcb, Kernel.scheduled]
  simp only [Kernel.processes, slots, blocks, array]
  rfl

theorem endProcess_currentPcb : (endProcess s).currentPcb = s.scheduled.curPcb := by
  simp [endProcess, Kernel.setTerminal, Kernel.setPcb, Kernel.scheduled]

theorem endBaseShell_pcbs {address : Nat} (other : address ≠ s.scheduled.curPcb) :
    (endBaseShell s).pcbs address = s.pcbs address :=
  endProcess_pcbs s other

/-- The end of a base shell leaves its terminal without a process. -/
theorem endBaseShell_processes : (endBaseShell s).processes = s.processes.release.vacate := by
  have slots : ∀ u, ((endBaseShell s).terminals u).slot =
      (endProcess s).processes.vacate.slots u := by
    intro u
    by_cases same : u = (endProcess s).currTerminal
    · subst same
      simp [endBaseShell, Kernel.setTerminal, Processes.vacate, Kernel.processes,
        InitTerminal.slot]
    · simp [endBaseShell, Kernel.setTerminal, Processes.vacate, Kernel.processes, same]
  rw [← endProcess_processes]
  simp only [Kernel.processes, slots]
  rfl

theorem endBaseShell_currentId : (endBaseShell s).currentId = s.currentId := rfl

theorem endBaseShell_currentPcb : (endBaseShell s).currentPcb = s.scheduled.curPcb :=
  endProcess_currentPcb s

/-- The end of `halt` resumes the parent it is given, when that is the one on record. -/
theorem resumeParent_processes {parentId : Nat}
    (recorded : (s.pcbs s.currentPcb).parentPid = parentId) :
    (resumeParent s parentId).processes = s.processes.resume parentId := by
  have slots : ∀ u, ((resumeParent s parentId).terminals u).slot =
      (s.processes.resume parentId).slots u := by
    intro u
    by_cases same : u = s.currTerminal
    · subst same
      simp [resumeParent, Kernel.setTerminal, mapToUserPhy, Processes.resume, Kernel.processes,
        InitTerminal.slot]
    · simp [resumeParent, Kernel.setTerminal, mapToUserPhy, Processes.resume, Kernel.processes,
        same]
  -- The page is mapped for the parent recorded in the ended control block.
  have mapped : (resumeParent s parentId).pageDirectory userPde = frameEntry parentId := by
    simp [resumeParent, Kernel.setTerminal, mapToUserPhy, frameEntry, recorded]
  simp only [Kernel.processes, slots, mapped]
  rfl

/-- Ending a process keeps what its control block says about its parent. -/
theorem endProcess_parentPid :
    ((endProcess s).pcbs (endProcess s).currentPcb).parentPid = s.curPcb.parentPid := by
  have kept := congrArg (fun ps => (ps.blocks s.scheduled.curPcb).parentPid)
    (endProcess_processes s)
  rw [endProcess_currentPcb]
  exact kept

end Halt

/-- What `halt` did. -/
inductive Halted (env : Env) (s : Kernel) (frame : CallFrame) : Outcome → Kernel → Prop where
  /-- A child ended, and its parent goes on. -/
  | child (above : s.curPcb.parentPid ≠ noParent) :
      Halted env s frame (.resumed s.curPcb.oldEsp s.curPcb.oldEbp 0)
        (resumeParent (endProcess s) s.curPcb.parentPid)
  /-- A base shell ended, and could not be started again. -/
  | stranded {failed : Kernel} (base : s.curPcb.parentPid = noParent)
      (refused : Failed env (endBaseShell s) frame (some shell) failed) :
      Halted env s frame (.resumed s.curPcb.oldEsp s.curPcb.oldEbp 0)
        (resumeParent failed noParent)
  /-- A base shell ended, and was started again. -/
  | restarted {entryPoint : Nat} {next : Kernel} (base : s.curPcb.parentPid = noParent)
      (entered : Entered env (endBaseShell s) frame shell entryPoint next) :
      Halted env s frame (.entered entryPoint) next

/-- A call of `halt` that comes to an end does one of three things. -/
theorem halt_cases {env : Env} {s next : Kernel} {frame : CallFrame} {outcome : Outcome}
    (done : halt env s frame = some (outcome, next)) :
    Mapped s.scheduled.curPcb ∧ Halted env s frame outcome next := by
  simp only [halt] at done
  -- An address that no pointer of the kernel can hold would fault.
  split at done
  · rename_i mapped
    refine ⟨mapped, ?_⟩
    split at done
    · rename_i base
      cases restart : execute env (endBaseShell s) frame (some shell) with
      | none => simp [restart] at done
      | some result =>
        obtain ⟨left, after⟩ := result
        -- A base shell is replaced, unless `execute` refuses.
        rcases execute_cases restart with ⟨rfl, refused⟩ | ⟨text, entryPoint, same, rfl, ⟨entered⟩⟩
        · simp only [restart, Option.some.injEq, Prod.mk.injEq] at done
          obtain ⟨rfl, rfl⟩ := done
          rw [base]
          exact .stranded base refused
        · simp only [restart, Option.some.injEq, Prod.mk.injEq] at done
          obtain ⟨rfl, rfl⟩ := done
          cases same
          exact .restarted base entered
    · rename_i above
      simp only [Option.some.injEq, Prod.mk.injEq] at done
      obtain ⟨rfl, rfl⟩ := done
      exact .child above
  · cases done

/-- A call of `halt` by a process that has a parent resumes the parent. -/
theorem halt_of_child {env : Env} {s : Kernel} {frame : CallFrame}
    (mapped : Mapped s.scheduled.curPcb) (above : s.curPcb.parentPid ≠ noParent) :
    halt env s frame = some (.resumed s.curPcb.oldEsp s.curPcb.oldEbp 0,
      resumeParent (endProcess s) s.curPcb.parentPid) := by
  rw [halt, if_pos mapped, if_neg above]

/-- The processes after the end of a child. -/
theorem child_processes (s : Kernel) :
    (resumeParent (endProcess s) s.curPcb.parentPid).processes =
      s.processes.release.resume s.curPcb.parentPid := by
  rw [resumeParent_processes _ (endProcess_parentPid s), endProcess_processes]

/-- The processes after a base shell that could not be started again. -/
theorem stranded_processes {env : Env} {s failed : Kernel} {frame : CallFrame}
    (base : s.curPcb.parentPid = noParent)
    (refused : Failed env (endBaseShell s) frame (some shell) failed) :
    (resumeParent failed noParent).processes =
      s.processes.release.vacate.resume noParent := by
  -- The failed restart changed neither the control blocks nor the pointer to the ended one.
  have recorded : (failed.pcbs failed.currentPcb).parentPid = noParent := by
    have pointer : failed.currentPcb = (endBaseShell s).currentPcb := refused.quiet.currentPcb
    -- The base shell that ended is still what `current_pcb` points at.
    have kept := congrArg (fun ps => (ps.blocks (endBaseShell s).currentPcb).parentPid)
      refused.processes
    rw [pointer]
    exact (kept.trans (endProcess_parentPid s)).trans base
  rw [resumeParent_processes _ recorded, refused.processes, endBaseShell_processes]

/-- The processes after a base shell that was started again. -/
theorem restarted_processes {env : Env} {s next : Kernel} {frame : CallFrame} {entryPoint : Nat}
    (entered : Entered env (endBaseShell s) frame shell entryPoint next) :
    s.processes.release.vacate.Fresh s.currentId entered.pid ∧
      next.processes = s.processes.release.vacate.spawn s.currentId entered.pid frame
        entered.arg := by
  have started := entered.processes
  rwa [endBaseShell_processes, endBaseShell_currentId] at started

end SmallOs
