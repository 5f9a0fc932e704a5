import Mathlib.Data.List.Find
import SmallOs.Abstract.Descriptors
import SmallOs.Proofs.Process.Accounting

/-! The descriptors of every process behave as a partial map, whatever is opened, closed, and read. -/

namespace SmallOs

open Foundation

/-- A descriptor holds what its number stands for; a free one may hold anything else. -/
def Holds (descriptor : FileDescriptor) : Option Opened → Prop
  -- A closed descriptor is known by its flag alone.
  | none => descriptor.flags = 0
  | some o => descriptor.flags = 1 ∧ descriptor.opTable = some o.table ∧
      descriptor.filePosition = o.position ∧ (o.table = .file → descriptor.inode = o.inode)

/-- A control block holds a descriptor table. -/
def Represents (pcb : Pcb) (table : DescriptorTable) : Prop :=
  -- Beyond the eight descriptors nothing is said.
  ∀ i : Nat, i ≤ maxFd → Holds (pcb.fd i) (table.entries i)

/-- A descriptor is closed exactly when its number stands for nothing. -/
theorem Holds.flags_eq_zero {descriptor : FileDescriptor} {what : Option Opened}
    (holds : Holds descriptor what) : descriptor.flags = 0 ↔ what = none := by
  -- What is open has its flag set to one.
  cases what with
  | none => exact ⟨fun _ => rfl, fun _ => holds⟩
  | some o => simp [holds.1]

/-- A new process starts with standard input and output. -/
theorem represents_initial : ∀ i : Nat, i ≤ maxFd →
    Holds (initialFd i) (DescriptorTable.initial.entries i) := by
  -- The first two numbers are taken, and the other six are free.
  intro i _
  simp only [DescriptorTable.initial, initialFd, Int.natCast_eq_zero, Nat.cast_eq_one]
  split
  · exact ⟨rfl, rfl, rfl, fun file => by cases file⟩
  · split
    · exact ⟨rfl, rfl, rfl, fun file => by cases file⟩
    · rfl

namespace Represents

variable {pcb : Pcb} {table : DescriptorTable}

/-- The first closed descriptor has the lowest free number. -/
theorem firstClosed (rep : Represents pcb table) : firstClosed pcb = table.lowest := by
  -- Both searches go through the numbers from two to seven, and test the same.
  have agree : ∀ i ∈ [2, 3, 4, 5, 6, 7],
      decide ((pcb.fd i).flags = 0) = (table.entries i).isNone := by
    intro i member
    have inside : i ≤ maxFd := by
      simp only [List.mem_cons, List.not_mem_nil, or_false] at member
      simp only [maxFd]
      omega
    have same := (rep i inside).flags_eq_zero
    rw [Bool.eq_iff_iff, decide_eq_true_iff, Option.isNone_iff_eq_none]
    exact same
  exact List.find?_congr agree

/-- Changing one descriptor changes what one number stands for. -/
theorem update (rep : Represents pcb table) {fd : Nat} {descriptor : FileDescriptor}
    (what : Option Opened) {changed : DescriptorTable} (holds : Holds descriptor what)
    (entries : changed.entries = Function.update table.entries fd what) :
    Represents { pcb with fd := Function.update pcb.fd fd descriptor } changed := by
  intro i inside
  rw [entries]
  -- One number stands for something new, and the other seven are as before.
  by_cases same : i = fd
  · subst same
    simpa using holds
  · have apart : (i : Int) ≠ fd := by omega
    simpa [same, apart] using rep i inside

end Represents

/-- Opening makes the descriptor hold what the name was found to be, whatever it held before. -/
theorem holds_openDescriptor (d : Dentry) (descriptor : FileDescriptor) :
    Holds (openDescriptor d descriptor) (some (DescriptorTable.opened d)) := by
  unfold openDescriptor DescriptorTable.opened
  -- Only a regular file needs its inode later.
  cases table : tableFor d.fileType with
  | file => exact ⟨rfl, rfl, rfl, fun _ => rfl⟩
  | rtc | dir | stdin | stdout | noOp => exact ⟨rfl, rfl, rfl, fun file => by cases file⟩

section Calls

variable {img : Image} {s : Kernel} {table : DescriptorTable}

/-- `open` does what the table says, and a refused call changes nothing at all. -/
theorem openFile_refines (img : Image) (rep : Represents s.curPcb table)
    (mapped : Mapped s.scheduled.curPcb) (filename : List Byte) :
    ∃ after, openFile img s filename =
        some (plainReturn (table.open (lookup img filename)).1 after) ∧
      Represents after.curPcb (table.open (lookup img filename)).2 ∧
      ((table.open (lookup img filename)).1 = -1 → after = s) := by
  have first := rep.firstClosed
  unfold SmallOs.firstClosed at first
  unfold lookup openFile
  -- The tests come in the order of the source: name, directory, free descriptor.
  by_cases nameless : filename = []
  · simp only [if_pos nameless]
    exact ⟨s, rfl, rep, fun _ => rfl⟩
  · simp only [if_neg nameless]
    cases found : readDentryByName img (cstr filename) with
    | none => exact ⟨s, rfl, rep, fun _ => rfl⟩
    | some d =>
      simp only [if_pos mapped, first]
      cases free : table.lowest with
      | none =>
        rw [DescriptorTable.open_full d free]
        exact ⟨s, rfl, rep, fun _ => rfl⟩
      | some fd =>
        -- The lowest free number is handed out, and its old contents are overwritten.
        obtain ⟨number, entries⟩ := DescriptorTable.open_some d free
        rw [number]
        refine ⟨setDescriptor s fd (openDescriptor d), rfl, ?_, fun refused => ?_⟩
        · rw [setDescriptor_curPcb]
          exact rep.update _ (holds_openDescriptor d _) entries
        · omega

/-- `close` does what the table says, and a refused call changes nothing at all. -/
theorem closeFile_refines (rep : Represents s.curPcb table) (mapped : Mapped s.scheduled.curPcb)
    (fd : Int) :
    ∃ after, closeFile s fd = some (plainReturn (table.close fd).1 after) ∧
      Represents after.curPcb (table.close fd).2 ∧ ((table.close fd).1 = -1 → after = s) := by
  unfold closeFile DescriptorTable.close
  -- A number out of range is refused before the control block is looked at.
  by_cases outside : fd < 0 ∨ fd > maxFd
  · rw [if_pos outside, dif_neg (by omega)]
    exact ⟨s, rfl, rep, fun _ => rfl⟩
  · rw [if_neg outside, if_pos mapped]
    have number : ((fd.toNat : Nat) : Int) = fd := Int.toNat_of_nonneg (by omega)
    have inside : fd.toNat ≤ maxFd := by omega
    have holds := rep fd.toNat inside
    rw [number] at holds
    have closed := holds.flags_eq_zero
    by_cases taken : (2 ≤ fd ∧ fd ≤ maxFd) ∧ table.entries fd ≠ none
    · -- The descriptor's table is that of something a program named, so it lets itself be closed.
      obtain ⟨o, present⟩ := Option.ne_none_iff_exists'.mp taken.2
      have used : ¬ ((s.curPcb.fd fd.toNat).flags = 0 ∨ fd = 0 ∨ fd = 1) := by
        rintro (free | zero | one)
        · exact taken.2 (closed.mp free)
        · omega
        · omega
      have kind := table.named fd o taken.1.1 present
      rw [present] at holds
      rw [dif_pos taken, if_neg used]
      refine ⟨setDescriptor s fd.toNat fun descriptor => { descriptor with flags := 0 }, ?_, ?_,
        fun refused => by cases refused⟩
      · have accepts : closeOp o.table = 0 := by
          rcases kind with kind | kind | kind <;> rw [kind] <;> rfl
        simp only [setDescriptor_curPcb, Function.update_self, holds.2.1, Option.map_some, accepts]
      · rw [setDescriptor_curPcb]
        refine rep.update none rfl ?_
        rw [number]
        rfl
    · have refused : (s.curPcb.fd fd.toNat).flags = 0 ∨ fd = 0 ∨ fd = 1 := by
        by_cases above : 2 ≤ fd
        · refine .inl (closed.mpr ?_)
          by_contra present
          exact taken ⟨⟨above, by omega⟩, present⟩
        · omega
      rw [dif_neg taken, if_pos refused]
      exact ⟨s, rfl, rep, fun _ => rfl⟩

/-- `read` is dispatched through the operation table of what the number stands for, and through no other. -/
theorem readFile_refines (rep : Represents s.curPcb table) (mapped : Mapped s.scheduled.curPcb)
    (fd nbytes : Int) :
    readFile img s fd nbytes =
      match table.entries fd with
      | none => some (plainReturn (-1) s)
      | some o => (readOp img s fd.toNat nbytes o.table).map fun read =>
          ⟨.returned read.ret, read.bytes, read.kernel⟩ := by
  unfold readFile
  by_cases outside : fd < 0 ∨ fd > maxFd
  · -- A number out of range stands for nothing.
    have absent : table.entries fd = none := by
      -- A free number is refused, and a taken one names its driver.
      cases present : table.entries fd with
      | none => rfl
      | some o =>
        have := table.range fd o present
        omega
    rw [if_pos outside, absent]
  · rw [if_neg outside, if_pos mapped]
    have number : ((fd.toNat : Nat) : Int) = fd := Int.toNat_of_nonneg (by omega)
    have holds := rep fd.toNat (by omega)
    rw [number] at holds
    cases present : table.entries fd with
    | none =>
      rw [present] at holds
      exact if_pos holds
    | some o =>
      rw [present] at holds
      have used : (s.curPcb.fd fd.toNat).flags ≠ 0 := by
        rw [holds.1]
        decide
      simp only [if_neg used, holds.2.1, Option.bind_eq_bind, Option.bind_some]
      cases readOp img s fd.toNat nbytes o.table with
      | none => rfl
      | some read => rfl

/-- Whatever a read did, the control block holds the table after it. -/
theorem readOp_represents (rep : Represents s.curPcb table) {fd nbytes : Int} {o : Opened}
    {read : DriverRead} (present : table.entries fd = some o)
    (answered : readOp img s fd.toNat nbytes o.table = some read) :
    Represents read.kernel.curPcb (table.read img fd nbytes) := by
  have inside := table.range fd o present
  have number : ((fd.toNat : Nat) : Int) = fd := Int.toNat_of_nonneg inside.1
  -- Every driver but that of regular files leaves the control block alone.
  have same : o.table ≠ .file → read.kernel.curPcb = s.curPcb →
      Represents read.kernel.curPcb (table.read img fd nbytes) := by
    intro other kept
    rw [kept, DescriptorTable.read_other fun found there => by
      rw [present, Option.some.injEq] at there
      exact there ▸ other]
    exact rep
  -- Only the driver of regular files stores a new position.
  cases kind : o.table with
  | rtc =>
    rw [kind] at answered
    obtain rfl := Option.some.inj answered
    exact same (by simp [kind]) rfl
  | dir =>
    rw [kind] at answered
    obtain rfl := Option.some.inj answered
    refine same (by simp [kind]) ?_
    unfold dirRead
    split
    · rfl
    · rfl
  | stdin =>
    rw [kind] at answered
    simp only [readOp, terminalRead] at answered
    split at answered
    · obtain rfl := Option.some.inj answered
      exact same (by simp [kind])
        ((screenOnly_takeLine s).agree Kernel.curPcb fun _ => rfl)
    · cases answered
  | stdout | noOp =>
    rw [kind] at answered
    obtain rfl := Option.some.inj answered
    exact same (by simp [kind]) rfl
  | file =>
    rw [kind] at answered
    obtain rfl := Option.some.inj answered
    have holds := rep fd.toNat (by omega)
    rw [number, present] at holds
    obtain ⟨used, points, position, inode⟩ := holds
    have node := inode kind
    -- The position stored is the one the table computes from the same inode and position.
    have moved : (fileRead img s fd.toNat nbytes).kernel =
        setDescriptor s fd.toNat fun descriptor =>
          { descriptor with filePosition := DescriptorTable.advance img o nbytes } := by
      unfold fileRead DescriptorTable.advance
      simp only [node, position]
      split
      · rfl
      · rfl
    rw [moved, setDescriptor_curPcb]
    refine rep.update (some { o with position := DescriptorTable.advance img o nbytes })
      ⟨used, points, rfl, fun _ => node⟩ ?_
    rw [DescriptorTable.read_file present kind, number]

end Calls

/-- The descriptor tables of all process slots, as an observer of the calls computes them. -/
abbrev Tables := Nat → DescriptorTable

namespace Tables

/-- The running process changes its own table. -/
def ofCaller (tables : Tables) (s : Kernel) (change : DescriptorTable → DescriptorTable) : Tables :=
  if s.scheduled.firstProcess then
    Function.update tables s.scheduled.currentPid (change (tables s.scheduled.currentPid))
  else tables

/-- A process that was entered starts with a table of its own. -/
def ofEntered (tables : Tables) (next : Kernel) : Option (Outcome × Kernel) → Tables
  -- A call that returns or resumes starts no process.
  | some (.entered _, _) => Function.update tables next.scheduled.currentPid .initial
  | _ => tables

/-- What the observer computes of a step: the calls of the running process, and the starts of new ones. -/
def after (env : Env) (tables : Tables) (s : Kernel) (event : Event) (next : Kernel) : Tables :=
  match event with
  -- The start of a process is the one event that is not the running process's own.
  | .call frame (.execute command) => tables.ofEntered next (execute env s frame command)
  | .call frame (.halt _) => tables.ofEntered next (halt env s frame)
  | .call _ (.open filename) =>
    tables.ofCaller s fun table => (table.open (lookup env.image filename)).2
  | .call _ (.close fd) => tables.ofCaller s fun table => (table.close fd).2
  | .call _ (.read fd _ nbytes) => tables.ofCaller s fun table => table.read env.image fd nbytes
  | _ => tables

end Tables

/-- The control block of every live process holds the table its calls add up to. -/
structure Tabled (s : Kernel) (tables : Tables) : Prop where
  accounted : Accounted s
  represented : ∀ p, s.processes.Live p → Represents (s.pcbs (pcbAddr p)) (tables p)

namespace Tabled

variable {env : Env} {s next : Kernel} {tables : Tables}

/-- The running process finds its own table in its control block. -/
theorem own (tabled : Tabled s tables) (first : s.scheduled.firstProcess = true) :
    Mapped s.scheduled.curPcb ∧ Represents s.curPcb (tables s.scheduled.currentPid) := by
  obtain ⟨path, acc⟩ := tabled.accounted
  -- The pointer of the terminal is that of the number it keeps.
  obtain ⟨pointer, member⟩ := acc.pointed s.currTerminal first
  have home : s.scheduled.curPcb = pcbAddr s.scheduled.currentPid := pointer
  have alive := acc.live member
  unfold Kernel.curPcb
  rw [home]
  exact ⟨mapped_pcbAddr alive.1, tabled.represented _ alive⟩

/-- A call that changes no other control block, and its own as its caller's table says, keeps the tables. -/
theorem ofCaller (tabled : Tabled s tables) (quiet : Quiet s next)
    (change : DescriptorTable → DescriptorTable)
    (caller : s.scheduled.firstProcess = true →
      Represents next.curPcb (change (tables s.scheduled.currentPid))) :
    Tabled next (tables.ofCaller s change) := by
  obtain ⟨path, acc⟩ := tabled.accounted
  have same := quiet.processes
  refine ⟨⟨path, same ▸ acc⟩, fun p alive => ?_⟩
  rw [same] at alive
  unfold Tables.ofCaller
  by_cases mine : s.scheduled.firstProcess = true ∧ p = s.scheduled.currentPid
  · -- The caller's own block is the one its terminal points at.
    obtain ⟨first, rfl⟩ := mine
    have home : s.scheduled.curPcb = pcbAddr s.scheduled.currentPid :=
      (acc.pointed s.currTerminal first).1
    have pointer : next.scheduled.curPcb = pcbAddr s.scheduled.currentPid :=
      (congrArg Slot.curPcb (scheduled_slot same)).trans home
    have held := caller first
    unfold Kernel.curPcb at held
    rw [pointer] at held
    rw [if_pos first, Function.update_self]
    exact held
  · -- Every other live process has another block and another table.
    have other : s.scheduled.firstProcess = true → p ≠ s.scheduled.currentPid :=
      fun first here => mine ⟨first, here⟩
    rw [quiet.pcbs (acc.other_pcb alive other)]
    split
    · rename_i first
      rw [Function.update_of_ne (other first)]
      exact tabled.represented p alive
    · exact tabled.represented p alive

/-- A step that leaves every control block of a live process alone keeps the tables. -/
theorem unchanged (tabled : Tabled s tables) (accounted : Accounted next)
    (live : ∀ p, next.processes.Live p →
      s.processes.Live p ∧ next.pcbs (pcbAddr p) = s.pcbs (pcbAddr p)) :
    Tabled next tables := by
  refine ⟨accounted, fun p alive => ?_⟩
  -- Who is live now was live before, with the same control block.
  obtain ⟨before, same⟩ := live p alive
  rw [same]
  exact tabled.represented p before

/-- A process that is entered starts with standard input and output, and leaves every other table alone. -/
theorem entered {path : Terminal → List Nat} (tabled : Tabled s tables)
    (acc : Accounting s.processes path) {frame : CallFrame} {command : List Byte} {entryPoint : Nat}
    (entered : Entered env s frame command entryPoint next) :
    Tabled next (Function.update tables next.scheduled.currentPid .initial) := by
  obtain ⟨fresh, spawned⟩ := entered.processes
  rw [entered.scheduled.2.2]
  refine ⟨⟨_, spawned ▸ acc.spawn fresh frame entered.arg⟩, fun p alive => ?_⟩
  -- The new process has a block of its own, because its number was free.
  by_cases here : p = entered.pid
  · subst here
    rw [Function.update_self]
    intro i inside
    rw [entered.fd]
    exact represents_initial i inside
  · rw [Function.update_of_ne here]
    have before : s.processes.Live p := by
      rw [spawned] at alive
      exact Processes.live_of_spawn here alive
    have apart : pcbAddr p ≠ pcbAddr entered.pid := fun same =>
      here (pcbAddr_inj alive.1 (Accounting.fresh_lt fresh) same)
    rw [entered.pcbs apart]
    exact tabled.represented p before

/-- The quiet calls that are no `open`, `close`, or `read` change no control block. -/
theorem write_pcbs {fd nbytes : Int} {buf : Option (List Byte)} {result : CallResult}
    (done : writeFile s fd buf nbytes = some result) : result.kernel.pcbs = s.pcbs := by
  cases writeFile_cases done with
  | range | null | closed => rfl
  | @driver text table =>
    change (writeOp s text nbytes table).2.pcbs = s.pcbs
    -- The clock and the screen are devices, and the other drivers refuse.
    cases table with
    | rtc =>
      simp only [writeOp, rtcWrite]
      split <;> rfl
    | stdout => exact (screenOnly_terminalWrite s text nbytes).agree Kernel.pcbs fun _ => rfl
    | dir | file | stdin | noOp => rfl

/-- A quiet step changes tables by the calls on descriptors alone. -/
theorem quiet {event : Event} (tabled : Tabled s tables) (kept : Quiet s next)
    (uneventful : Uneventful env s event) (taken : step env s event = some next) :
    Tabled next (tables.after env s event next) := by
  obtain ⟨path, acc⟩ := tabled.accounted
  have same := kept.processes
  -- Where no control block changes, neither does any table.
  have still : next.pcbs = s.pcbs → Tabled next tables := fun pcbs =>
    tabled.unchanged ⟨path, same ▸ acc⟩ fun p alive => ⟨same ▸ alive, by rw [pcbs]⟩
  cases event with
  | keyboard scancode =>
    obtain ⟨-, rfl⟩ := key_taken taken
    exact still ((screenOnly_printKeyboard s scancode).agree Kernel.pcbs fun _ => rfl)
  | pit => exact uneventful.elim
  | rtc =>
    cases taken
    exact still rfl
  | call frame request =>
    -- What the call stores lies outside the control blocks.
    obtain ⟨result, frames, done, -, rfl⟩ := call_taken taken
    cases request with
    | halt => exact uneventful.elim
    | execute command =>
      obtain ⟨⟨outcome, after⟩, executed, rfl⟩ := Option.map_eq_some_iff.mp done
      rcases execute_cases executed with ⟨rfl, failed⟩ | ⟨text, point, rfl, rfl, ⟨entered⟩⟩
      · simp only [Tables.after, executed, Tables.ofEntered]
        exact still (failed.screens.agree Kernel.pcbs fun _ => rfl)
      · exact absurd executed (uneventful _ _)
    | write => exact still (write_pcbs done)
    | getargs =>
      cases getargs_cases done with
      | null | empty | copied => exact still rfl
    | vidmap screenStart =>
      cases vidmap_cases done with
      | refused | mapped => exact still rfl
    | «open» filename =>
      simp only [Tables.after]
      refine tabled.ofCaller kept _ fun first => ?_
      obtain ⟨mapped, rep⟩ := tabled.own first
      obtain ⟨after, done', rep', -⟩ := openFile_refines env.image rep mapped filename
      obtain rfl := Option.some.inj (done.symm.trans done')
      exact rep'
    | close fd =>
      simp only [Tables.after]
      refine tabled.ofCaller kept _ fun first => ?_
      obtain ⟨mapped, rep⟩ := tabled.own first
      obtain ⟨after, done', rep', -⟩ := closeFile_refines rep mapped fd
      obtain rfl := Option.some.inj (done.symm.trans done')
      exact rep'
    | read fd buf nbytes =>
      simp only [Tables.after]
      refine tabled.ofCaller kept _ fun first => ?_
      obtain ⟨mapped, rep⟩ := tabled.own first
      simp only [syscall, readFile_refines rep mapped fd nbytes] at done
      cases present : (tables s.scheduled.currentPid).entries fd with
      | none =>
        simp only [present, Option.some.injEq] at done
        subst done
        rw [DescriptorTable.read_other fun o there => by simp [present] at there]
        exact rep
      | some o =>
        simp only [present, Option.map_eq_some_iff] at done
        obtain ⟨read, answered, rfl⟩ := done
        exact readOp_represents rep present answered

/-- A process that ends leaves the tables of the others alone. -/
theorem finish {path : Terminal → List Nat} {frame : CallFrame} {status : Byte} {outcome : Outcome}
    (tabled : Tabled s tables) (acc : Accounting s.processes path)
    (ended : halt env s frame = some (outcome, next)) (mapped : Mapped s.scheduled.curPcb)
    (halted : Halted env s frame outcome next) :
    Tabled next (tables.after env s (.call frame (.halt status)) next) := by
  cases halted with
  | child above =>
    have same := child_processes s
    simp only [Tables.after, ended, Tables.ofEntered]
    have accounts := acc.finish (acc.running_of_child mapped above) above
    refine tabled.unchanged ⟨_, same ▸ accounts⟩ fun p alive => ?_
    rw [same] at alive
    obtain ⟨before, apart⟩ := acc.released mapped alive
    exact ⟨before, endProcess_pcbs s apart⟩
  | @stranded failed base refused =>
    have same := stranded_processes base refused
    simp only [Tables.after, ended, Tables.ofEntered]
    have accounts := acc.strand mapped base
    refine tabled.unchanged ⟨_, same ▸ accounts⟩ fun p alive => ?_
    rw [same] at alive
    obtain ⟨before, apart⟩ := acc.released mapped alive
    -- The failed restart only printed a line.
    have printed : failed.pcbs = (endBaseShell s).pcbs :=
      refused.screens.agree Kernel.pcbs fun _ => rfl
    exact ⟨before, (congrFun printed _).trans (endBaseShell_pcbs s apart)⟩
  | restarted base started =>
    simp only [Tables.after, ended, Tables.ofEntered]
    have retired : Tabled (endBaseShell s) tables := by
      refine tabled.unchanged ⟨_, acc.endBaseShell mapped base⟩ fun p alive => ?_
      rw [endBaseShell_processes] at alive
      obtain ⟨before, apart⟩ := acc.released mapped alive
      exact ⟨before, endBaseShell_pcbs s apart⟩
    exact entered retired (acc.endBaseShell mapped base) started

/-- Every step of the machine keeps the tables. -/
theorem step {event : Event} (tabled : Tabled s tables) (taken : step env s event = some next) :
    Tabled next (tables.after env s event next) := by
  obtain ⟨path, acc⟩ := tabled.accounted
  cases step_cases taken with
  | quiet kept uneventful => exact tabled.quiet kept uneventful taken
  | @tick esp ebp =>
    have same := pitHandler_processes s esp ebp
    refine tabled.unchanged ⟨path, same ▸ acc.tick _ esp ebp⟩ fun p alive => ?_
    rw [same] at alive
    rw [pitHandler_pcbs]
    exact ⟨alive, rfl⟩
  -- A process that is entered has the initial table, whatever its slot held before.
  | enter started =>
    simp only [Tables.after, started.executed, Tables.ofEntered]
    exact entered tabled acc started
  | finish ended mapped halted => exact tabled.finish acc ended mapped halted

/-- The first shell starts with standard input and output. -/
theorem booted {start : Kernel} (booted : boot env = some start) :
    Tabled start fun _ => .initial := by
  obtain ⟨_, ⟨started⟩⟩ := boot_entered booted
  -- Before boot no process is live, so there is nothing to represent.
  have before : Tabled (initialKernel env) fun _ => .initial :=
    ⟨⟨_, accounting_initial env⟩, fun p alive =>
      absurd alive.2 (by simp [Kernel.processes, initialKernel])⟩
  have after := entered before (accounting_initial env) started
  rwa [Function.update_eq_self_iff.mpr rfl] at after

end Tabled

/-- The descriptors of the process that runs act as a partial map on the numbers from zero to seven. -/
structure ActsAsTable (img : Image) (s : Kernel) (table : DescriptorTable) : Prop where
  represents : Represents s.curPcb table
  /-- Standard input and output are in their places, and cannot be closed. -/
  standard : (s.curPcb.fd 0).opTable = some .stdin ∧ (s.curPcb.fd 1).opTable = some .stdout ∧
    ∀ fd, fd = 0 ∨ fd = 1 → closeFile s fd = some (plainReturn (-1) s)
  /-- `open` never faults: it hands out the lowest free number, or changes nothing. -/
  opens : ∀ filename, ∃ after, openFile img s filename =
      some (plainReturn (table.open (lookup img filename)).1 after) ∧
    Represents after.curPcb (table.open (lookup img filename)).2 ∧
    ((table.open (lookup img filename)).1 = -1 → after = s)
  /-- It refuses exactly the empty name, the names in no directory entry, and any name when all six numbers are taken. -/
  refuses : ∀ filename, (table.open (lookup img filename)).1 = -1 ↔
    filename = [] ∨ readDentryByName img (cstr filename) = none ∨
      ∀ fd : Nat, 2 ≤ fd → fd ≤ maxFd → table.entries fd ≠ none
  /-- `close` never faults: it frees the number it is given, or changes nothing. -/
  closes : ∀ fd, ∃ after, closeFile s fd = some (plainReturn (table.close fd).1 after) ∧
    Represents after.curPcb (table.close fd).2 ∧ ((table.close fd).1 = -1 → after = s)
  /-- It accepts exactly the numbers above standard output that are taken. -/
  accepts : ∀ fd, (table.close fd).1 = 0 ↔ (2 ≤ fd ∧ fd ≤ maxFd) ∧ table.entries fd ≠ none
  /-- `read` refuses every free number, and is dispatched through the table of any other one. -/
  reads : ∀ fd nbytes, readFile img s fd nbytes =
    match table.entries fd with
    | none => some (plainReturn (-1) s)
    | some o => (readOp img s fd.toNat nbytes o.table).map fun read =>
        ⟨.returned read.ret, read.bytes, read.kernel⟩
  /-- What is read moves the position of that number only. -/
  moves : ∀ fd nbytes o read, table.entries fd = some o →
    readOp img s fd.toNat nbytes o.table = some read →
      Represents read.kernel.curPcb (table.read img fd nbytes)

/-- A control block that holds a table acts as one. -/
theorem Represents.actsAsTable {img : Image} {s : Kernel} {table : DescriptorTable}
    (rep : Represents s.curPcb table) (mapped : Mapped s.scheduled.curPcb) :
    ActsAsTable img s table := by
  -- The table has the standard descriptors, so the control block has them, too.
  have input := rep 0 (by decide)
  have output := rep 1 (by decide)
  simp only [Nat.cast_zero, Nat.cast_one, table.input, table.output] at input output
  refine ⟨rep, ⟨input.2.1, output.2.1, fun fd low => ?_⟩, openFile_refines img rep mapped,
    fun filename => ?_, closeFile_refines rep mapped, fun fd => DescriptorTable.close_accepted,
    readFile_refines rep mapped, fun _ _ _ _ => readOp_represents rep⟩
  · -- The two lowest numbers are below those that `close` accepts.
    obtain ⟨after, done, -, kept⟩ := closeFile_refines rep mapped fd
    have refused : (table.close fd).1 = -1 := by
      unfold DescriptorTable.close
      rw [dif_neg (by omega)]
    rw [done, refused, kept refused]
  · rw [DescriptorTable.open_refused]
    unfold lookup
    split
    · rename_i nameless
      simp [nameless]
    · rename_i named
      simp [named]

/--
The descriptors of every live process are the partial map its own calls add up to.

The observer computes that map from the calls of the run alone: what a process opens, closes, and
reads changes its own map, and nothing else in the run changes any.
-/
theorem descriptor_table_refines {env : Env} {start s : Kernel} {tables : Tables}
    {events : List Event} (booted : boot env = some start)
    (run : Run (observed (step env) (Tables.after env)) Always (start, fun _ => .initial) events
      (s, tables)) :
    (∀ p, s.processes.Live p → Represents (s.pcbs (pcbAddr p)) (tables p)) ∧
      (s.scheduled.firstProcess = true →
        ActsAsTable env.image s (tables s.scheduled.currentPid)) := by
  -- The tables are an invariant of the observed run.
  have tabled := run.observed_invariant Tabled (Tabled.booted booted)
    fun _ _ _ _ held _ taken => held.step taken
  refine ⟨tabled.represented, fun first => ?_⟩
  obtain ⟨mapped, rep⟩ := tabled.own first
  exact rep.actsAsTable mapped

/-- A file is opened twice, read a little through the second number, and closed at the first one. -/
def openTwice : List Event :=
  [.call sampleFrame (.open (ascii ['a'])), .call sampleFrame (.open (ascii ['a'])),
    .call sampleFrame (.read 3 0x8000000 3), .call sampleFrame (.close 2)]

/-- The number that was closed is handed out again, and the other one has moved. -/
theorem descriptor_table_refines_sample : ∃ s tables after,
    Run (observed (step sampleEnv) (Tables.after sampleEnv)) Always
      (sampleBooted, fun _ => .initial) openTwice (s, tables) ∧
    (tables 0).entries 2 = none ∧ (tables 0).entries 3 = some ⟨.file, 1, 3⟩ ∧
    Represents (s.pcbs (pcbAddr 0)) (tables 0) ∧
    openFile sampleImage s (ascii ['a']) = some (plainReturn 2 after) := by
  -- The four calls are executed, and the theorem answers the next one.
  have given : (replay (observed (step sampleEnv) (Tables.after sampleEnv)) Always
      (sampleBooted, fun _ => .initial) openTwice).map (fun state => decide (
        (state.1.scheduled.firstProcess = true ∧ state.1.scheduled.currentPid = 0 ∧
          state.1.processArray 0 = 1) ∧
        ((state.2 0).entries 2 = none ∧ (state.2 0).entries 3 = some ⟨.file, 1, 3⟩) ∧
        ((state.2 0).open (lookup sampleEnv.image (ascii ['a']))).1 = 2)) = some true := by
    decide +kernel
  obtain ⟨⟨s, tables⟩, reached, facts⟩ := Option.map_eq_some_iff.mp given
  obtain ⟨⟨first, number, live⟩, ⟨closed, moved⟩, two⟩ := of_decide_eq_true facts
  have run := replay_run reached
  obtain ⟨represented, acts⟩ := descriptor_table_refines sample_boot run
  obtain ⟨after, done, -⟩ := (acts first).opens (ascii ['a'])
  rw [show s.scheduled.currentPid = 0 from number,
    show ((tables 0).open (lookup sampleEnv.image (ascii ['a']))).1 = 2 from two] at done
  exact ⟨s, tables, after, run, closed, moved, represented 0 ⟨by decide, live⟩, done⟩

end SmallOs
