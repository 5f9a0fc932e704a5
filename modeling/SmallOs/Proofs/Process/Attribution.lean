import SmallOs.Proofs.Process.Naming
import SmallOs.Proofs.Terminal.Pristine

/-! Whether a call acts for the terminal that issued it, whichever terminal is displayed. -/

namespace SmallOs

open Foundation

/-- The calls that should act for their caller, whatever the user looks at. -/
def Call.ForCaller (s : Kernel) : Call → Prop
  -- A process ends on its own terminal, so its caller is gone.
  | .halt _ => False
  | .write fd _ _ => 2 ≤ fd
  -- A read of the keyboard waits for its terminal to be displayed, and means to.
  | .read fd _ _ => (s.curPcb.fd fd.toNat).opTable ≠ some .stdin
  | .execute _ | .open _ | .close _ | .getargs _ _ | .vidmap _ => True

/-- Two runs of a call return the same, and leave the same processes to the terminal that issued it. -/
structure CalledAlike (t : Terminal) (result other : CallResult) : Prop where
  outcome : result.outcome = other.outcome
  slot : (result.kernel.terminals t).slot = (other.kernel.terminals t).slot
  /-- The control blocks are the same, with their descriptors. -/
  pcbs : result.kernel.pcbs = other.kernel.pcbs
  processArray : result.kernel.processArray = other.kernel.processArray

/-- A call changes nothing of another terminal's processes, and a process it enters is its caller's child. -/
structure OwnOnly (s : Kernel) (result : CallResult) : Prop where
  slots : ∀ t, t ≠ s.currTerminal → (result.kernel.terminals t).slot = (s.terminals t).slot
  pcbs : ∀ p, s.processes.Live p → p ≠ s.scheduled.currentPid →
    result.kernel.pcbs (pcbAddr p) = s.pcbs (pcbAddr p)
  table : ∀ p, s.processes.Live p → result.kernel.processArray p = s.processArray p
  child : ∀ entryPoint, result.outcome = .entered entryPoint →
    result.kernel.currTerminal = s.currTerminal ∧
      result.kernel.curPcb.parentPid = s.scheduled.currentPid

/-- What is expected of two runs of a call that differ in the displayed terminal only. -/
def Attributed (s : Kernel) : Option CallResult → Option CallResult → Prop
  | some result, some other =>
    CalledAlike s.currTerminal result other ∧ OwnOnly s result ∧ OwnOnly s other
  -- Where one run meets no defined end, so has the other one to.
  | none, none => True
  | _, _ => False

/-- Through its descriptor, the process of a terminal programs the clock with a text. -/
def SetsClock (s : Kernel) (t : Terminal) (fd : Int) (text : List Byte) : Prop :=
  let descriptor := (s.pcbs (s.terminals t).curPcb).fd fd.toNat
  -- A rate the clock does not have is refused like a closed descriptor.
  descriptor.flags ≠ 0 ∧ descriptor.opTable = some .rtc ∧
    (rtcRate (word32 (cstr text) 0)).isSome = true

instance (s : Kernel) (t : Terminal) (fd : Int) (text : List Byte) :
    Decidable (SetsClock s t fd text) :=
  inferInstanceAs (Decidable (_ ∧ _ ∧ _))

/-- A terminal that runs a process gets no further one once the table is full. -/
def Refuses (s : Kernel) (t : Terminal) : Prop :=
  -- A base shell is started without a look at the table.
  (s.terminals t).firstProcess = true ∧ TableFull s

instance (s : Kernel) (t : Terminal) : Decidable (Refuses s t) :=
  inferInstanceAs (Decidable (_ ∧ _))

/-- A program that was found is started, on the displayed terminal. -/
def StartsThere (env : Env) (s : Kernel) (inode : Nat) : Prop :=
  ¬ Refuses s s.currentId ∧ pickProcess s ≠ none ∧ FitsPage env.image inode

/--
What a call looks at is the same for both displayed terminals.

Only three calls look at the displayed terminal's process at all, and a program may be started only
while its caller is displayed.
-/
def SeenAlike (env : Env) (s : Kernel) (frame : CallFrame) (d : Terminal) : Call → Prop
  -- A write looks at the displayed process, its descriptor and what it would do to the clock.
  | .write fd (some text) _ => fd ≤ maxFd →
    (Mapped s.displayed.curPcb ↔ Mapped (s.terminals d).curPcb) ∧
      (Mapped s.displayed.curPcb → (SetsClock s s.currentId fd text ↔ SetsClock s d fd text))
  -- `getargs` looks at whether the displayed process has an argument.
  | .getargs buf _ => buf ≠ 0 → Mapped s.currentPcb →
    (Mapped s.displayed.curPcb ↔ Mapped (s.terminals d).curPcb) ∧
      (Mapped s.displayed.curPcb → ((s.pcbs s.displayed.curPcb).argSize = 0 ↔
        (s.pcbs (s.terminals d).curPcb).argSize = 0))
  -- `execute` looks at the displayed terminal twice: for the refusal, and for the parent.
  | .execute (some text) => ∀ fileName arg dentry entryPoint,
    parseCommand text = some (fileName, arg) →
    findProgram env.image frame fileName = some (dentry, entryPoint) →
      (Refuses s s.currentId ↔ Refuses s d) ∧
        (StartsThere env s dentry.inode ∨ StartsThere env (s.display d) dentry.inode →
          s.currentId = s.currTerminal ∧ d = s.currTerminal)
  | _ => True

/-- What neither touches a process nor another control block acts for its caller. -/
theorem OwnOnly.of_quiet {s : Kernel} {result : CallResult} {path : Terminal → List Nat}
    (acc : Accounting s.processes path) (quiet : Quiet s result.kernel)
    (plain : ∀ entryPoint, result.outcome ≠ .entered entryPoint) : OwnOnly s result := by
  -- A quiet call changes no terminal's slot and no slot of the table.
  have same := quiet.processes
  refine ⟨fun t _ => congrArg (fun ps => ps.slots t) same, fun p alive other => ?_,
    fun p _ => congrArg (fun ps => ps.processArray p) same, fun entryPoint entered => ?_⟩
  · exact quiet.pcbs (acc.other_pcb alive fun _ => other)
  · exact absurd entered (plain entryPoint)

/-- Two runs that touch no process differ in what they return at most. -/
theorem CalledAlike.of_quiet {s : Kernel} {d t : Terminal} {result other : CallResult}
    (left : Quiet s result.kernel) (right : Quiet (s.display d) other.kernel)
    (outcome : result.outcome = other.outcome) (pcbs : result.kernel.pcbs = other.kernel.pcbs) :
    CalledAlike t result other := by
  -- Both runs leave the processes of the state they started from.
  have same := left.processes.trans right.processes.symm
  exact ⟨outcome, congrArg (fun ps => ps.slots t) same, pcbs, congrArg Processes.processArray same⟩

section Plain

variable {env : Env} {s : Kernel} {frame : CallFrame} {d : Terminal} {request : Call}

/-- A plain call acts for its caller exactly when it returns the same. -/
theorem attributed_plain_iff {path : Terminal → List Nat} (acc : Accounting s.processes path)
    (plain : request.Plain)
    (pcbs : ∀ result other, syscall env s frame request = some result →
      syscall env (s.display d) frame request = some other →
        result.kernel.pcbs = other.kernel.pcbs) :
    Attributed s (syscall env s frame request) (syscall env (s.display d) frame request) ↔
      (syscall env s frame request).map CallResult.outcome =
        (syscall env (s.display d) frame request).map CallResult.outcome := by
  -- The two runs end alike, or one of them meets no defined end.
  cases here : syscall env s frame request with
  | none =>
    cases there : syscall env (s.display d) frame request with
    | none => simp [Attributed]
    | some other => simp [Attributed]
  | some result =>
    cases there : syscall env (s.display d) frame request with
    | none => simp [Attributed]
    | some other =>
      have left := plain_quiet plain here
      have right := plain_quiet plain there
      simp only [Attributed, Option.map_some, Option.some.injEq]
      refine ⟨fun alike => alike.1.outcome, fun same => ⟨?_, ?_, ?_⟩⟩
      · exact .of_quiet left right same (pcbs _ _ here there)
      · exact .of_quiet acc left fun _ => plain_not_entered plain here
      · -- The other state has the same processes, so its call is its caller's as well.
        have own : OwnOnly (s.display d) other :=
          .of_quiet acc right fun _ => plain_not_entered plain there
        exact ⟨own.slots, own.pcbs, own.table, own.child⟩

/-- A call that stores into no control block acts for its caller exactly when it returns the same. -/
theorem attributed_kept_iff {path : Terminal → List Nat} (acc : Accounting s.processes path)
    (plain : request.Plain)
    (kept : ∀ k result, syscall env k frame request = some result →
      result.kernel.pcbs = k.pcbs) :
    Attributed s (syscall env s frame request) (syscall env (s.display d) frame request) ↔
      (syscall env s frame request).map CallResult.outcome =
        (syscall env (s.display d) frame request).map CallResult.outcome :=
  attributed_plain_iff acc plain fun _ _ here there => (kept _ _ here).trans (kept _ _ there).symm

/-- A call that looks at no displayed terminal acts for its caller. -/
theorem attributed_blind {path : Terminal → List Nat} (acc : Accounting s.processes path)
    (plain : request.Plain)
    (blind : syscall env (s.display d) frame request =
      (syscall env s frame request).map fun result =>
        { result with kernel := result.kernel.display d }) :
    Attributed s (syscall env s frame request) (syscall env (s.display d) frame request) := by
  -- The second run is the first one with another terminal displayed, so it returns the same.
  rw [attributed_plain_iff acc plain, blind, Option.map_map]
  · rfl
  · intro result other here there
    rw [blind, here, Option.map_some, Option.some.injEq] at there
    rw [← there]
    rfl

end Plain

/-- `open` looks at the scheduled terminal only. -/
theorem openFile_display (img : Image) (s : Kernel) (d : Terminal) (filename : List Byte) :
    openFile img (s.display d) filename = (openFile img s filename).map fun result =>
      { result with kernel := result.kernel.display d } := by
  unfold openFile
  split
  · rfl
  split
  · rfl
  -- The name is looked up first, and then the scheduled terminal's control block is searched.
  have pointer : (s.display d).scheduled.curPcb = s.scheduled.curPcb := rfl
  rw [pointer]
  split
  · have block : (s.display d).curPcb = s.curPcb := rfl
    rw [block]
    split <;> rfl
  · rfl

/-- `close` looks at the scheduled terminal only. -/
theorem closeFile_display (s : Kernel) (d : Terminal) (fd : Int) :
    closeFile (s.display d) fd = (closeFile s fd).map fun result =>
      { result with kernel := result.kernel.display d } := by
  have pointer : (s.display d).scheduled.curPcb = s.scheduled.curPcb := rfl
  have block : (s.display d).curPcb = s.curPcb := rfl
  simp only [closeFile, pointer, block, setDescriptor_curPcb, Function.update_self]
  split
  · rfl
  split
  · split
    · rfl
    · -- The driver is the one of the caller's descriptor.
      cases (s.curPcb.fd fd.toNat).opTable with
      | none => rfl
      | some table => rfl
  · rfl

/-- A driver other than that of the keyboard looks at the scheduled terminal only. -/
theorem readOp_display (img : Image) (s : Kernel) (d : Terminal) (fd : Nat) (nbytes : Int)
    {table : OpTable} (other : table ≠ .stdin) :
    readOp img (s.display d) fd nbytes table = (readOp img s fd nbytes table).map fun read =>
      { read with kernel := read.kernel.display d } := by
  have block : (s.display d).curPcb = s.curPcb := rfl
  -- A directory is read at one place for all, and a file at the position in the descriptor.
  cases table with
  | stdin => exact absurd rfl other
  | rtc | stdout | noOp => rfl
  | dir =>
    have place : (s.display d).dirReadLoc = s.dirReadLoc := rfl
    simp only [readOp, dirRead, place]
    split <;> rfl
  | file =>
    simp only [readOp, fileRead, block, Option.map_some]
    split <;> rfl

/-- A read of anything but the keyboard looks at the scheduled terminal only. -/
theorem readFile_display (img : Image) (s : Kernel) (d : Terminal) {fd : Int} (nbytes : Int)
    (other : (s.curPcb.fd fd.toNat).opTable ≠ some .stdin) :
    readFile img (s.display d) fd nbytes = (readFile img s fd nbytes).map fun result =>
      { result with kernel := result.kernel.display d } := by
  have pointer : (s.display d).scheduled.curPcb = s.scheduled.curPcb := rfl
  have block : (s.display d).curPcb = s.curPcb := rfl
  -- The dispatch reads the caller's descriptor, and then the driver is asked.
  simp only [readFile, pointer, block]
  split
  · rfl
  split
  · split
    · rfl
    · cases points : (s.curPcb.fd fd.toNat).opTable with
      | none => rfl
      | some table =>
        have kind : table ≠ .stdin := fun same => other (by rw [points, same])
        simp only [Option.bind_eq_bind, Option.bind_some, readOp_display img s d fd.toNat nbytes kind]
        cases readOp img s fd.toNat nbytes table with
        | none => rfl
        | some read => rfl
  · rfl

/-- What a write above standard output returns: the clock answers, and everything else refuses. -/
theorem writeFile_outcome {s : Kernel} {fd : Int} (nbytes : Int) (text : List Byte)
    (above : 2 ≤ fd) (inside : fd ≤ maxFd)
    (named : Mapped s.displayed.curPcb → (s.pcbs s.displayed.curPcb).Named) :
    (writeFile s fd (some text) nbytes).map CallResult.outcome =
      if Mapped s.displayed.curPcb then
        some (.returned (if SetsClock s s.currentId fd text then 0 else -1))
      else none := by
  unfold writeFile
  rw [if_neg (by omega)]
  simp only
  -- The process that is asked is the displayed terminal's, whoever called.
  by_cases mapped : Mapped s.displayed.curPcb
  · rw [if_pos mapped, if_pos mapped]
    by_cases closed : ((s.pcbs s.displayed.curPcb).fd fd.toNat).flags = 0
    · have silent : ¬ SetsClock s s.currentId fd text := fun sets => sets.1 closed
      rw [if_pos closed, if_neg silent]
      rfl
    · -- An open descriptor above standard output has one of three tables.
      obtain ⟨table, points, kind⟩ := named mapped fd.toNat (by omega) closed
      have sets : SetsClock s s.currentId fd text ↔
          table = .rtc ∧ (rtcRate (word32 (cstr text) 0)).isSome = true := by
        unfold SetsClock
        simp only
        rw [show (s.pcbs (s.terminals s.currentId).curPcb).fd fd.toNat =
          (s.pcbs s.displayed.curPcb).fd fd.toNat from rfl, points, Option.some.injEq]
        exact ⟨fun all => all.2, fun both => ⟨closed, both⟩⟩
      rw [if_neg closed, points]
      simp only [Option.bind_eq_bind, Option.bind_some, Option.map_some, sets]
      rcases kind with rfl | rfl | rfl
      · simp only [writeOp, rtcWrite, true_and]
        cases rtcRate (word32 (cstr text) 0) with
        | none => rfl
        | some rate => rfl
      · rfl
      · rfl
  · rw [if_neg mapped, if_neg mapped]
    rfl

/-- What `getargs` returns. -/
theorem getargs_outcome (s : Kernel) (buf : Nat) :
    (getargs s buf).map CallResult.outcome =
      if buf = 0 then some (.returned (-1))
      else if Mapped s.displayed.curPcb ∧ Mapped s.currentPcb then
        some (.returned (if (s.pcbs s.displayed.curPcb).argSize = 0 then -1 else 0))
      else none := by
  -- The argument and its length are the displayed process's, and the last one started is tested,
  -- too.
  unfold getargs
  split
  · rfl
  split
  · split <;> rfl
  · rfl

section Displayed

variable {env : Env} {s : Kernel} {frame : CallFrame} {d : Terminal}

/-- A write above standard output acts for its caller exactly when both displayed processes treat it alike. -/
theorem attributed_write_iff (all : AllNamed s) {fd : Int} (nbytes : Int) (text : List Byte)
    (above : 2 ≤ fd) :
    Attributed s (syscall env s frame (.write fd (some text) nbytes))
        (syscall env (s.display d) frame (.write fd (some text) nbytes)) ↔
      SeenAlike env s frame d (.write fd (some text) nbytes) := by
  obtain ⟨path, acc⟩ := all.accounted
  -- A write stores into no control block, so only the values can differ.
  rw [attributed_kept_iff acc (by trivial) fun k result done => by
    have written : writeFile k fd (some text) nbytes = some result := done
    exact Tabled.write_pcbs written]
  unfold SeenAlike syscall
  -- Below the last descriptor both runs are compared by the values they return.
  by_cases inside : fd ≤ maxFd
  · have left := writeFile_outcome (s := s) nbytes text above inside
      fun mapped => all.pointed s.currentId mapped
    have right := writeFile_outcome (s := s.display d) nbytes text above inside
      fun mapped => all.pointed d mapped
    rw [left, right]
    change ((if Mapped s.displayed.curPcb then _ else _) =
      if Mapped (s.terminals d).curPcb then
        some (Outcome.returned (if SetsClock s d fd text then 0 else -1)) else none) ↔ _
    by_cases left : Mapped s.displayed.curPcb
    · by_cases right : Mapped (s.terminals d).curPcb
      · simp only [left, right, inside, if_true, forall_const, iff_self, true_and]
        by_cases one : SetsClock s s.currentId fd text
        · by_cases two : SetsClock s d fd text <;> simp [one, two]
        · by_cases two : SetsClock s d fd text <;> simp [one, two]
      · simp [left, right, inside]
    · by_cases right : Mapped (s.terminals d).curPcb
      · simp [left, right, inside]
      · simp [left, right]
  · -- A number past the last descriptor is refused before anything is looked at.
    have outside : fd < 0 ∨ fd > maxFd := .inr (by omega)
    simp [writeFile, outside, inside, plainReturn]

/-- `getargs` acts for its caller exactly when both displayed processes have arguments, or neither has. -/
theorem attributed_getargs_iff {path : Terminal → List Nat} (acc : Accounting s.processes path)
    (buf : Nat) (nbytes : Int) :
    Attributed s (syscall env s frame (.getargs buf nbytes))
        (syscall env (s.display d) frame (.getargs buf nbytes)) ↔
      SeenAlike env s frame d (.getargs buf nbytes) := by
  -- The call changes nothing, whatever it answers.
  rw [attributed_kept_iff acc (by trivial) fun k result done => by
    have answered : getargs k buf = some result := done
    cases getargs_cases answered with
    | null | empty | copied => rfl]
  unfold SeenAlike syscall
  rw [getargs_outcome, getargs_outcome]
  change (_ = if buf = 0 then some (Outcome.returned (-1))
    else if Mapped (s.terminals d).curPcb ∧ Mapped s.currentPcb then
      some (.returned (if (s.pcbs (s.terminals d).curPcb).argSize = 0 then -1 else 0))
    else none) ↔ _
  -- Five tests decide the two values, and each combination of them is compared.
  by_cases zero : buf = 0
  · simp [zero]
  by_cases last : Mapped s.currentPcb
  · by_cases left : Mapped s.displayed.curPcb
    · by_cases right : Mapped (s.terminals d).curPcb
      · by_cases one : (s.pcbs s.displayed.curPcb).argSize = 0
        · by_cases two : (s.pcbs (s.terminals d).curPcb).argSize = 0 <;>
            simp [zero, last, left, right, one, two]
        · by_cases two : (s.pcbs (s.terminals d).curPcb).argSize = 0 <;>
            simp [zero, last, left, right, one, two]
      · simp [zero, last, left, right]
    · by_cases right : Mapped (s.terminals d).curPcb
      · simp [zero, last, left, right]
      · simp [zero, last, left, right]
  · simp [zero, last]

/-- `vidmap` acts for its caller, although the page it maps is the displayed terminal's. -/
theorem attributed_vidmap {path : Terminal → List Nat} (acc : Accounting s.processes path)
    (screenStart : Nat) :
    Attributed s (syscall env s frame (.vidmap screenStart))
      (syscall env (s.display d) frame (.vidmap screenStart)) := by
  -- Only the value is compared, and the pointer and the page tables decide that.
  rw [attributed_kept_iff acc (by trivial)]
  · have same : ∀ address, (s.display d).Present env.tableAddr address ↔
        s.Present env.tableAddr address := fun _ => Iff.rfl
    simp only [syscall, vidmap, same]
    split
    · rfl
    · split
      · rfl
      · rfl
  · intro k result done
    have mapped : vidmap env k screenStart = some result := done
    cases vidmap_cases mapped with
    | refused | mapped => rfl

end Displayed

/-- A program that was found is refused, started, or meets no defined end. -/
theorem execute_found {env : Env} {frame : CallFrame} {text fileName arg : List Byte}
    {dentry : Dentry} {entryPoint : Nat} (s : Kernel)
    (parsed : parseCommand text = some (fileName, arg))
    (found : findProgram env.image frame fileName = some (dentry, entryPoint)) :
    (Refuses s s.currentId ∧ ∃ next, execute env s frame (some text) = some (.returned (-1), next)) ∨
      (StartsThere env s dentry.inode ∧ ∃ next, Nonempty (Entered env s frame text entryPoint next)) ∨
      (¬ Refuses s s.currentId ∧ ¬ StartsThere env s dentry.inode ∧
        execute env s frame (some text) = none) := by
  have tested : Refuses s s.currentId ↔ s.displayed.firstProcess = true ∧ TableFull s := Iff.rfl
  -- The table is tested first, then a slot is picked, and last the program is loaded.
  by_cases refuses : Refuses s s.currentId
  · refine .inl ⟨refuses, putText (markFish s fileName) maximumProcesses, ?_⟩
    simp only [execute, parsed, found, markFish_firstProcess, markFish_tableFull]
    rw [if_pos (tested.mp refuses)]
  · have room := fun full => refuses (tested.mpr full)
    cases picked : pickProcess s with
    | none =>
      refine .inr (.inr ⟨refuses, fun starts => starts.2.1 picked, ?_⟩)
      simp only [execute, parsed, found, markFish_firstProcess, markFish_tableFull,
        markFish_pickProcess, picked]
      rw [if_neg room]
    | some pid =>
      by_cases fits : FitsPage env.image dentry.inode
      · have entered : Entered env s frame text entryPoint
            (startProcess env (markFish s fileName) frame dentry arg pid) :=
          ⟨fileName, arg, dentry, pid, parsed, found, room, picked, fits, rfl⟩
        exact .inr (.inl ⟨⟨refuses, by simp [picked], fits⟩, _, ⟨entered⟩⟩)
      · refine .inr (.inr ⟨refuses, fun starts => fits starts.2.2, ?_⟩)
        simp only [execute, parsed, found, markFish_firstProcess, markFish_tableFull,
          markFish_pickProcess, picked]
        rw [if_neg room, if_neg fits]

/-- Displaying the terminal that is displayed changes nothing. -/
theorem display_self {s : Kernel} {d : Terminal} (same : d = s.currentId) : s.display d = s := by
  -- The display is set to what it was.
  rw [same]
  rfl

section Executed

variable {env : Env} {s : Kernel} {frame : CallFrame} {d : Terminal}

/-- Two calls that both fail leave every process alone, and return the same. -/
theorem attributed_refused {path : Terminal → List Nat} (acc : Accounting s.processes path)
    {command : Option (List Byte)} {next other : Kernel}
    (here : execute env s frame command = some (.returned (-1), next))
    (there : execute env (s.display d) frame command = some (.returned (-1), other)) :
    Attributed s (syscall env s frame (.execute command))
      (syscall env (s.display d) frame (.execute command)) := by
  -- A failure prints at most.
  have failed : ∀ {k after : Kernel}, execute env k frame command = some (.returned (-1), after) →
      Failed env k frame command after := by
    intro k after done
    rcases execute_cases done with ⟨-, failure⟩ | ⟨_, _, -, entered, -⟩
    · exact failure
    · cases entered
  have left := failed here
  have right := failed there
  have blocks : next.pcbs = other.pcbs :=
    (left.screens.agree Kernel.pcbs fun _ => rfl).trans
      (right.screens.agree Kernel.pcbs fun _ => rfl).symm
  simp only [syscall, here, there, Option.map_some, Attributed]
  refine ⟨.of_quiet left.quiet right.quiet rfl blocks, ?_, ?_⟩
  · exact .of_quiet acc left.quiet fun _ => Outcome.noConfusion
  · have own : OwnOnly (s.display d) ⟨.returned (-1), [], other⟩ :=
      .of_quiet acc right.quiet fun _ => Outcome.noConfusion
    exact ⟨own.slots, own.pcbs, own.table, own.child⟩

/-- A program that is started while its caller is displayed becomes its caller's child. -/
theorem Entered.ownOnly {path : Terminal → List Nat} (acc : Accounting s.processes path)
    (first : s.scheduled.firstProcess = true) (shown : s.currentId = s.currTerminal)
    {command : List Byte} {entryPoint : Nat} {next : Kernel}
    (entered : Entered env s frame command entryPoint next) :
    OwnOnly s ⟨.entered entryPoint, [], next⟩ := by
  -- The new process takes a free number, on the terminal that is displayed.
  obtain ⟨fresh, started⟩ := entered.processes
  have new := acc.fresh_not_live fresh
  refine ⟨fun t other => ?_, fun p alive _ => ?_, fun p alive => ?_, fun _ _ => ⟨?_, ?_⟩⟩
  · have slots := congrArg (fun ps => ps.slots t) started
    rw [← shown] at other
    simp only [Processes.spawn, Function.update_of_ne other] at slots
    exact slots
  · -- The block that is filled in is that of a number no live process has.
    refine entered.pcbs fun same => new ?_
    rwa [← pcbAddr_inj alive.1 (Accounting.fresh_lt fresh) same]
  · have array := congrArg (fun ps => ps.processArray p) started
    have other : p ≠ entered.pid := fun same => new (same ▸ alive)
    simp only [Processes.spawn, Function.update_of_ne other] at array
    exact array
  · exact (congrArg Processes.running started).trans shown
  · have parent := congrArg Block.parentPid entered.block
    have busy : s.displayed.firstProcess = true := by
      unfold Kernel.displayed
      rw [shown]
      exact first
    simp only [busy, if_true] at parent
    refine parent.trans ?_
    unfold Kernel.displayed
    rw [shown]
    rfl

/-- The call of a program that is entered. -/
theorem Entered.syscall {command : List Byte} {entryPoint : Nat} {next : Kernel}
    (entered : Entered env s frame command entryPoint next) :
    syscall env s frame (.execute (some command)) = some ⟨.entered entryPoint, [], next⟩ := by
  simp only [SmallOs.syscall, entered.executed, Option.map_some]

/-- A program that was found acts for its caller exactly when it is refused for both displays, or its caller is displayed. -/
theorem attributed_found_iff {path : Terminal → List Nat} (acc : Accounting s.processes path)
    (first : s.scheduled.firstProcess = true) {text fileName arg : List Byte} {dentry : Dentry}
    {entryPoint : Nat} (parsed : parseCommand text = some (fileName, arg))
    (found : findProgram env.image frame fileName = some (dentry, entryPoint)) :
    Attributed s (syscall env s frame (.execute (some text)))
        (syscall env (s.display d) frame (.execute (some text))) ↔
      (Refuses s s.currentId ↔ Refuses s d) ∧
        (StartsThere env s dentry.inode ∨ StartsThere env (s.display d) dentry.inode →
          s.currentId = s.currTerminal ∧ d = s.currTerminal) := by
  -- Where its caller is displayed both times, both runs are one run.
  have together : ∀ {next : Kernel}, Entered env s frame text entryPoint next →
      s.currentId = s.currTerminal ∧ d = s.currTerminal →
      Attributed s (syscall env s frame (.execute (some text)))
        (syscall env (s.display d) frame (.execute (some text))) := by
    intro next entered shown
    rw [display_self (shown.2.trans shown.1.symm), entered.syscall]
    have own := entered.ownOnly acc first shown.1
    exact ⟨⟨rfl, rfl, rfl, rfl⟩, own, own⟩
  -- Three ends of the one run meet three ends of the other.
  rcases execute_found s parsed found with
    ⟨refused, _, here⟩ | ⟨starts, _, ⟨here⟩⟩ | ⟨room, idle, here⟩
  · rcases execute_found (s.display d) parsed found with
      ⟨refused', _, there⟩ | ⟨starts', _, ⟨there⟩⟩ | ⟨room', -, there⟩
    · refine iff_of_true (attributed_refused acc here there) ⟨iff_of_true refused refused', ?_⟩
      rintro (starts | starts)
      · exact absurd refused starts.1
      · exact absurd refused' starts.1
    · refine iff_of_false ?_ fun both => starts'.1 (both.1.mp refused)
      simp only [syscall, here, there.executed, Option.map_some, Attributed]
      exact fun both => Outcome.noConfusion both.1.outcome
    · refine iff_of_false ?_ fun both => room' (both.1.mp refused)
      simp only [syscall, here, there, Option.map_some, Option.map_none, Attributed, not_false_iff]
  · refine ⟨fun attributed => ?_, fun both => together here (both.2 (.inl starts))⟩
    rcases execute_found (s.display d) parsed found with
      ⟨-, _, there⟩ | ⟨starts', _, ⟨there⟩⟩ | ⟨-, -, there⟩
    · simp only [syscall, here.executed, there, Option.map_some, Attributed] at attributed
      exact Outcome.noConfusion attributed.1.outcome
    · rw [here.syscall, there.syscall] at attributed
      -- Both programs were entered on the displayed terminal, and both are the caller's child.
      have left := (attributed.2.1.child entryPoint rfl).1
      have right := (attributed.2.2.child entryPoint rfl).1
      have shown := congrArg Processes.running here.processes.2
      have other := congrArg Processes.running there.processes.2
      exact ⟨iff_of_false starts.1 starts'.1, fun _ => ⟨shown.symm.trans left,
        other.symm.trans right⟩⟩
    · simp only [syscall, here.executed, there, Option.map_some, Option.map_none,
        Attributed] at attributed
  · rcases execute_found (s.display d) parsed found with
      ⟨refused', _, there⟩ | ⟨starts', _, ⟨there⟩⟩ | ⟨room', idle', there⟩
    · refine iff_of_false ?_ fun both => room (both.1.mpr refused')
      simp only [syscall, here, there, Option.map_some, Option.map_none, Attributed, not_false_iff]
    · refine iff_of_false ?_ fun both => ?_
      · simp only [syscall, here, there.executed, Option.map_some, Option.map_none, Attributed,
          not_false_iff]
      · obtain ⟨shown, same⟩ := both.2 (.inr starts')
        rw [display_self (same.trans shown.symm)] at starts'
        exact idle starts'
    · refine iff_of_true ?_ ⟨iff_of_false room room', ?_⟩
      · simp only [syscall, here, there, Option.map_none, Attributed]
      · rintro (starts | starts)
        · exact absurd starts idle
        · exact absurd starts idle'

/-- `execute` acts for its caller exactly when it starts nothing and says so for both displays, or when its caller is displayed. -/
theorem attributed_execute_iff {path : Terminal → List Nat} (acc : Accounting s.processes path)
    (first : s.scheduled.firstProcess = true) (command : Option (List Byte)) :
    Attributed s (syscall env s frame (.execute command))
        (syscall env (s.display d) frame (.execute command)) ↔
      SeenAlike env s frame d (.execute command) := by
  -- Whatever comes before the program is found is the same for both displays.
  cases command with
  | none => exact iff_of_true (attributed_refused acc rfl rfl) trivial
  | some text =>
    cases parsed : parseCommand text with
    | none =>
      -- The words do not fit, and nothing is said about either run.
      have both : ∀ k, syscall env k frame (.execute (some text)) = none := fun k => by
        simp only [syscall, execute, parsed, Option.map_none]
      rw [both, both]
      exact iff_of_true trivial fun fileName arg _ _ words => by simp [parsed] at words
    | some words =>
      obtain ⟨fileName, arg⟩ := words
      cases found : findProgram env.image frame fileName with
      | none =>
        -- An unknown name is refused by both, before any process is looked at.
        have missing : ∀ k, execute env k frame (some text) =
            some (.returned (-1), markFish k fileName) := fun k => by
          simp only [execute, parsed, found]
        refine iff_of_true (attributed_refused acc (missing _) (missing _)) ?_
        intro fileName' arg' _ _ words program
        rw [parsed, Option.some.injEq, Prod.mk.injEq] at words
        rw [← words.1, found] at program
        cases program
      | some program =>
        obtain ⟨dentry, entryPoint⟩ := program
        -- With the words fixed, what is seen alike is about this program only.
        have seen : SeenAlike env s frame d (.execute (some text)) ↔
            (Refuses s s.currentId ↔ Refuses s d) ∧
              (StartsThere env s dentry.inode ∨ StartsThere env (s.display d) dentry.inode →
                s.currentId = s.currTerminal ∧ d = s.currTerminal) := by
          refine ⟨fun all => all _ _ _ _ parsed found, fun alike fileName' arg' _ _ words there => ?_⟩
          rw [parsed, Option.some.injEq, Prod.mk.injEq] at words
          rw [← words.1, found, Option.some.injEq, Prod.mk.injEq] at there
          rw [← there.1]
          exact alike
        rw [seen]
        exact attributed_found_iff acc first parsed found

end Executed

/--
A call acts for the terminal that issued it exactly when what it looks at is alike for both displays.

The two states are any reachable one and the same state with another terminal displayed. For `open`,
`close`, `vidmap`, and reads of anything but the keyboard there is nothing to look at.
-/
theorem attributed_iff {env : Env} {s : Kernel} {frame : CallFrame} {d : Terminal} {request : Call}
    (reach : Reachable env s) (first : s.scheduled.firstProcess = true)
    (caller : request.ForCaller s) :
    Attributed s (syscall env s frame request) (syscall env (s.display d) frame request) ↔
      SeenAlike env s frame d request := by
  -- In a reachable state every control block holds named descriptors, and the processes are
  -- accounted for.
  have all := reach.allNamed
  obtain ⟨path, acc⟩ := all.accounted
  cases request with
  | halt => exact caller.elim
  | execute command => exact attributed_execute_iff acc first command
  | getargs buf nbytes => exact attributed_getargs_iff acc buf nbytes
  | vidmap screenStart => exact iff_of_true (attributed_vidmap acc screenStart) trivial
  | «open» filename =>
    exact iff_of_true (attributed_blind acc trivial (openFile_display env.image s d filename)) trivial
  | close fd =>
    exact iff_of_true (attributed_blind acc trivial (closeFile_display s d fd)) trivial
  | read fd buf nbytes =>
    exact iff_of_true (attributed_blind acc trivial (readFile_display env.image s d nbytes caller))
      trivial
  | write fd buf nbytes =>
    cases buf with
    | some text => exact attributed_write_iff all nbytes text caller
    | none =>
      -- A null pointer is refused before any descriptor is looked at.
      refine iff_of_true ?_ trivial
      rw [attributed_kept_iff acc (by trivial) fun k result done => by
        have written : writeFile k fd none nbytes = some result := done
        exact Tabled.write_pcbs written]
      simp only [syscall, writeFile]
      split <;> rfl

/-- At the boot of the sample a file is opened in the same way whatever is displayed. -/
theorem attributed_iff_sample : Attributed sampleBooted
    (syscall sampleEnv sampleBooted sampleFrame (.open (ascii ['a'])))
    (syscall sampleEnv (sampleBooted.display 1) sampleFrame (.open (ascii ['a']))) := by
  -- Opening a file asks for nothing to be alike.
  have caller : (Call.open (ascii ['a'])).ForCaller sampleBooted := trivial
  exact (attributed_iff sample_reachable (by decide +kernel) caller).mpr trivial

/-- The sample while Alt is held. -/
def sampleAlt : Kernel :=
  sampleBooted.setKeyboard fun kb => { kb with altFlags := true }

/-- The sample after a visit to its second terminal, which has no shell yet. -/
def sampleReturned : Kernel :=
  displayKey (displayKey sampleAlt 1) 0

theorem sampleAlt_pristine : Pristine sampleAlt :=
  ((pristine_initialKernel sampleEnv).started sampleEnv bootFrame sampleShell [] 0).alt

/-- What the visit left behind. -/
theorem sampleReturned_eq : ∃ video, sampleReturned =
    ((sampleAlt.setTerminal 1 fun term => { term with isOpen := true }).withVideo video).display 0 :=
  ⟨_, displayKey_visit sampleAlt_pristine rfl rfl rfl⟩

/-- The sample is reachable after the visit, and with the second terminal displayed once more. -/
theorem sampleReturned_reachable :
    Reachable sampleEnv sampleReturned ∧ Reachable sampleEnv (sampleReturned.display 1) := by
  -- Alt is held, and the function keys of the second and the first terminal follow.
  have alt : Reachable sampleEnv sampleAlt := by
    have pressed : step sampleEnv sampleBooted (.keyboard 0x38) = some sampleAlt :=
      congrArg some (printKeyboard_alt sampleBooted)
    exact sample_reachable.step pressed
  have there : Reachable sampleEnv (displayKey sampleAlt 1) := by
    have pressed : step sampleEnv sampleAlt (.keyboard 0x3C) = some (displayKey sampleAlt 1) :=
      congrArg some (printKeyboard_function rfl).2
    exact alt.step pressed
  have opens : (displayKey sampleAlt 1).keyboard.altFlags = true := by
    rw [sampleAlt_pristine.displayKey_opens (by decide) rfl]
    rfl
  have back : Reachable sampleEnv sampleReturned := by
    have pressed : step sampleEnv (displayKey sampleAlt 1) (.keyboard 0x3B) = some sampleReturned :=
      congrArg some (printKeyboard_function opens).1
    exact there.step pressed
  have returns : sampleReturned.keyboard.altFlags = true := by
    obtain ⟨video, same⟩ := sampleReturned_eq
    rw [same]
    rfl
  have video : sampleAlt.console = (initialKernel sampleEnv).console := rfl
  have clear : clearScreen sampleAlt.console.video = sampleAlt.console.video := by
    simp only [video, initialKernel, clearScreen_clearScreen]
  have again : step sampleEnv sampleReturned (.keyboard 0x3C) = some (sampleReturned.display 1) := by
    refine congrArg some ((printKeyboard_function returns).2.trans ?_)
    exact displayKey_return sampleAlt_pristine rfl rfl rfl clear
  exact ⟨back, back.step again⟩

/-- The shell a process starts becomes no child of it, but the base shell of the displayed terminal. -/
theorem execute_starts_elsewhere : Reachable sampleEnv sampleReturned ∧
    Reachable sampleEnv (sampleReturned.display 1) ∧
    sampleReturned.scheduled.firstProcess = true ∧ sampleReturned.currTerminal = 0 ∧
    (∃ entryPoint next, syscall sampleEnv (sampleReturned.display 1) sampleFrame
        (.execute (some shell)) = some ⟨.entered entryPoint, [], next⟩ ∧
      next.currTerminal = 1 ∧ next.curPcb.parentPid = noParent) ∧
    ¬ Attributed sampleReturned
      (syscall sampleEnv sampleReturned sampleFrame (.execute (some shell)))
      (syscall sampleEnv (sampleReturned.display 1) sampleFrame (.execute (some shell))) := by
  obtain ⟨video, same⟩ := sampleReturned_eq
  have running : sampleReturned.currTerminal = 0 := by
    rw [same]
    rfl
  have first : sampleReturned.scheduled.firstProcess = true := by
    rw [same]
    rfl
  -- The second terminal has no process yet, so the shell gets its base slot.
  have empty : (sampleReturned.display 1).displayed.firstProcess = false := by
    rw [same]
    rfl
  have parsed : parseCommand shell = some (shell, []) := by decide
  have room : ¬ ((sampleReturned.display 1).displayed.firstProcess ∧
      TableFull (sampleReturned.display 1)) := by simp [empty]
  have picked : pickProcess (sampleReturned.display 1) = some 1 := by
    unfold pickProcess
    rw [empty]
    rfl
  have entered : Entered sampleEnv (sampleReturned.display 1) sampleFrame shell 0x8048018 _ :=
    ⟨shell, [], sampleShell, 1, parsed, sample_found sampleFrame, room, picked, sample_fits, rfl⟩
  have moved := congrArg Processes.running entered.processes.2
  have parent := congrArg Block.parentPid entered.block
  simp only [empty] at parent
  refine ⟨sampleReturned_reachable.1, sampleReturned_reachable.2, first, running,
    ⟨_, _, entered.syscall, moved, parent⟩, fun attributed => ?_⟩
  rw [entered.syscall] at attributed
  -- Had the two runs been alike, the child would run on its parent's terminal.
  cases here : syscall sampleEnv sampleReturned sampleFrame (.execute (some shell)) with
  | none =>
    rw [here] at attributed
    exact attributed
  | some result =>
    rw [here] at attributed
    have child := (attributed.2.2.child _ rfl).1
    have elsewhere : (1 : Terminal) = 0 := (moved.symm.trans child).trans running
    exact absurd elsewhere (by decide)

end SmallOs
