import SmallOs.Proofs.Process.AddressSpace
import SmallOs.Proofs.Process.VidmapFrame

/-! What a program can reach: the frames of processes and the backing pages, and nothing of the kernel. -/

namespace SmallOs

open Foundation Foundation.I386

/-- A physical page for programs: one of the frame of a process, or a terminal's backing page. -/
def ProgramPage (page : Nat) : Prop :=
  (∃ p < maxProcesses, 0x800 + 0x400 * p ≤ page ∧ page < 0x800 + 0x400 * p + 0x400) ∨
    ∃ t : Terminal, page = 0xB9 + t.val

/-- The kernel is protected from programs, and is mapped itself. -/
structure Protected (tableAddr : Nat) (s : Kernel) : Prop where
  /-- Whatever address a program uses, it reaches a page for programs or faults. -/
  closed : ∀ page < 2 ^ 20, ∀ reached, s.translation tableAddr page = some reached →
    reached.user = true → ProgramPage reached.frame
  /-- The kernel's own page is where it was loaded, and programs do not reach it there. -/
  kernel : ∀ page, 0x400 ≤ page → page < 0x800 →
    s.translation tableAddr page = some ⟨page, false, true⟩

/-- Base shells end only where they can be started again. -/
def ShellsRestart (env : Env) (s : Kernel) : Event → Prop
  | .call frame (.halt _) => s.curPcb.parentPid = noParent → CanRestart env s frame
  | _ => True

instance (env : Env) (s : Kernel) : (event : Event) → Decidable (ShellsRestart env s event)
  | .call frame (.halt _) =>
    inferInstanceAs (Decidable (s.curPcb.parentPid = noParent → CanRestart env s frame))
  | .keyboard _ | .pit _ _ | .rtc | .call _ (.execute _) | .call _ (.read _ _ _)
  | .call _ (.write _ _ _) | .call _ (.open _) | .call _ (.close _) | .call _ (.getargs _ _)
  | .call _ (.vidmap _) => inferInstanceAs (Decidable True)

/-- The directory entries that nothing writes after boot. -/
def UnwrittenEntries (tableAddr : Nat) (parts : Apart) : Prop :=
  ∀ i, i ≠ userPde → i ≠ vidPde → parts.pageDirectory i = initialDirectory tableAddr i

section Unwritten

variable {env : Env} {s next : Kernel} {event : Event}

/-- Apart from the entry of the user page, a step writes at most the one at 132 megabytes. -/
theorem directory_kept (taken : step env s event = some next) {i : Nat} (other : i ≠ vidPde) :
    next.apart.pageDirectory i = s.apart.pageDirectory i := by
  rcases apart_cases taken with same | clock |
    ⟨frame, request, result, called, done, plain, parts⟩
  · rw [same]
  · subst clock
    cases taken
    rfl
  · subst called
    by_cases vidmaps : ∃ address, request = .vidmap address
    · obtain ⟨address, rfl⟩ := vidmaps
      rw [parts]
      -- An accepted call writes that entry, and a refused one nothing.
      cases vidmap_cases done with
      | mapped => simp only [Kernel.apart, mapToVid, Function.update_of_ne other]
      | refused => rfl
    · rw [parts]
      exact congrFun (plain.keepsTables fun address same => vidmaps ⟨address, same⟩).1 i

/-- The other entries are those of boot in every reachable state. -/
theorem UnwrittenEntries.reachable (reach : Reachable env s) :
    UnwrittenEntries env.tableAddr s.apart := by
  refine reach.invariant (fun s => UnwrittenEntries env.tableAddr s.apart)
    (fun start booted => ?_) fun before event after entries taken i user view => ?_
  · obtain ⟨_, ⟨entered⟩⟩ := boot_entered booted
    rw [entered.apart]
    intro i user _
    exact if_neg user
  · rw [directory_kept taken view]
    exact entries i user view

end Unwritten

section Translations

variable {tableAddr : Nat} {s : Kernel}

/-- A page of a large directory entry is translated by the entry alone. -/
theorem translation_large {page entry : Nat} (here : s.pageDirectory (page / 1024) = entry)
    (mapped : present entry = true) (four : large entry = true) :
    s.translation tableAddr page =
      some ⟨1024 * (entry / 0x400000) + page % 1024, userLevel entry, writable entry⟩ := by
  simp [Kernel.translation, Foundation.I386.translate, here, mapped, four]

/-- No entry that `paging_initialize` makes for low memory lets programs in. -/
theorem initialTable_closed (i : Nat) : userLevel (initialTable i) = false := by
  have aligned : 0x1000 ∣ 0x1000 * i := Nat.dvd_mul_right _ _
  unfold userLevel initialTable
  -- Both kinds of entries have the user bit clear, whatever page they name.
  split
  · rw [testBit_entry aligned (by decide)]
    decide
  · rw [testBit_entry aligned (by decide)]
    decide

/-- The directory entry of a process, as the processor reads it. -/
theorem frameEntry_bits {p : Nat} (slot : p < maxProcesses) :
    present (frameEntry p) = true ∧ large (frameEntry p) = true ∧
      frameEntry p / 0x400000 = 2 + p := by
  have all : ∀ p < maxProcesses, present (frameEntry p) = true ∧ large (frameEntry p) = true ∧
      frameEntry p / 0x400000 = 2 + p := by decide
  exact all p slot

/-- Through the region at 132 megabytes a program reaches at most the backing page. -/
theorem region_closed (tables : LowTables tableAddr s.apart) (aligned : 0x1000 ∣ tableAddr)
    {page : Nat} (inside : page / 1024 = vidPde) {reached : Translation}
    (found : s.translation tableAddr page = some reached) (user : reached.user = true) :
    ProgramPage reached.frame := by
  rcases tables.view with ⟨absent, -⟩ | ⟨t, directory, table⟩
  · -- An entry that is not present translates nothing.
    have entry : s.pageDirectory (page / 1024) = nopresentRw := inside ▸ absent
    have shut : present nopresentRw = false := by decide
    simp [Kernel.translation, Foundation.I386.translate, entry, shut] at found
  · have entry : s.pageDirectory (page / 1024) = tableAddr ||| readWrite := inside ▸ directory
    rw [translation_low aligned (by decide) (by decide) (by decide) entry] at found
    by_cases first : page % 1024 = 0
    · have cell : s.firstPageTable (page % 1024) = videoPtr t ||| readWrite := first ▸ table
      obtain ⟨here, frame⟩ := videoEntry t
      rw [cell, if_pos here, Option.some.injEq] at found
      exact .inr ⟨t, by rw [← found]; exact frame⟩
    · -- Any other page of the region is one of low memory, which is the kernel's.
      have cell : s.firstPageTable (page % 1024) = initialTable (page % 1024) :=
        tables.pages _ first
      rw [cell] at found
      split at found
      · cases found
        simp [initialTable_closed] at user
      · cases found

/-- Where the user page is the frame of a process, the kernel is protected. -/
theorem protected_of_frame (tables : LowTables tableAddr s.apart)
    (rest : UnwrittenEntries tableAddr s.apart) (aligned : 0x1000 ∣ tableAddr) {p : Nat}
    (slot : p < maxProcesses) (entry : s.pageDirectory userPde = frameEntry p) :
    Protected tableAddr s := by
  have others : ∀ i, i ≠ userPde → i ≠ vidPde →
      s.pageDirectory i = initialDirectory tableAddr i := by
    intro i user view
    rw [← rest i user view]
    exact (if_neg user).symm
  have kernel : ∀ page, page / 1024 = 1 →
      s.translation tableAddr page = some ⟨page, false, true⟩ := by
    intro page inKernel
    have directory : s.pageDirectory (page / 1024) = 0x400000 ||| 0x83 :=
      (congrArg s.pageDirectory inKernel).trans (others 1 (by decide) (by decide))
    have frame : 1024 * ((0x400000 ||| 0x83) / 0x400000) + page % 1024 = page := by
      have one : (0x400000 ||| 0x83) / 0x400000 = 1 := by decide
      rw [one]
      omega
    rw [translation_large directory (by decide) (by decide), frame]
    rfl
  refine ⟨fun page _ reached found user => ?_, fun page low high => kernel page (by omega)⟩
  -- The first level decides: low memory, the kernel, the user page, the region, or nothing.
  by_cases inUser : page / 1024 = userPde
  · obtain ⟨here, four, frame⟩ := frameEntry_bits slot
    rw [translation_large ((congrArg s.pageDirectory inUser).trans entry) here four,
      Option.some.injEq] at found
    refine .inl ⟨p, slot, ?_⟩
    rw [← found]
    simp only [frame]
    omega
  by_cases inRegion : page / 1024 = vidPde
  · exact region_closed tables aligned inRegion found user
  have directory := others _ inUser inRegion
  by_cases inLow : page / 1024 = 0
  · rw [inLow] at directory
    rw [translation_low aligned (by decide) (by decide) (by decide)
      ((congrArg s.pageDirectory inLow).trans directory)] at found
    -- The table of low memory is also used for the region, so its directory entry decides.
    have shut : userLevel presentRw = false := by decide
    split at found
    · cases found
      simp [shut] at user
    · cases found
  by_cases inKernel : page / 1024 = 1
  · rw [kernel page inKernel] at found
    cases found
    cases user
  · have absent : s.pageDirectory (page / 1024) = nopresentRw := by
      rw [directory]
      unfold initialDirectory
      rw [if_neg inLow, if_neg inKernel]
    have shut : present nopresentRw = false := by decide
    simp [Kernel.translation, Foundation.I386.translate, absent, shut] at found

/-- The parent that a base shell does not have is the kernel: its user page would be the kernel's. -/
theorem exposed_of_noParent (entry : s.pageDirectory userPde = frameEntry noParent) :
    ¬ Protected tableAddr s := by
  intro safe
  -- The first page of the user page is then the first one of the kernel.
  have found : s.translation tableAddr 0x8000 = some ⟨0x400, true, true⟩ := by
    rw [translation_large (show s.pageDirectory (0x8000 / 1024) = frameEntry noParent from entry)
      (by decide) (by decide)]
    decide
  rcases safe.closed _ (by decide) _ found rfl with ⟨p, -, low, -⟩ | ⟨t, same⟩
  · simp only at low
    omega
  · have := t.isLt
    simp only at same
    omega

end Translations

/-- Every terminal's number is that of a slot, and the user page is the frame of one. -/
structure Framed (ps : Processes) : Prop where
  numbers : ∀ t, (ps.slots t).currentPid < maxProcesses
  entry : ∃ p < maxProcesses, ps.userEntry = frameEntry p

namespace Framed

variable {ps : Processes} {path : Terminal → List Nat}

/-- A new process has a slot. -/
theorem spawned (framed : Framed ps) {t : Terminal} {pid : Nat} (fresh : ps.Fresh t pid)
    (frame : CallFrame) (arg : List Byte) : Framed (ps.spawn t pid frame arg) := by
  have slot := Accounting.fresh_lt fresh
  refine ⟨fun u => ?_, pid, slot, rfl⟩
  by_cases same : u = t
  · subst same
    simpa [Processes.spawn] using slot
  · simpa [Processes.spawn, same] using framed.numbers u

/-- A tick maps the frame of the terminal it picks, whether a process runs there or not. -/
theorem ticked (framed : Framed ps) (next : Terminal) (esp ebp : Nat) :
    Framed (ps.tick next esp ebp) := by
  refine ⟨fun u => ?_, (ps.slots next).currentPid, framed.numbers next, ?_⟩
  · rw [ps.tick_currentPid u next esp ebp]
    exact framed.numbers u
  · exact (frameEntry_eq (framed.numbers next)).2

/-- A process that goes on has a slot. -/
theorem resumed (framed : Framed ps) {pid : Nat} (slot : pid < maxProcesses) :
    Framed (ps.release.resume pid) := by
  refine ⟨fun u => ?_, pid, slot, rfl⟩
  by_cases same : u = ps.running
  · subst same
    simpa [Processes.resume, Processes.release] using slot
  · simpa [Processes.resume, Processes.release, same] using framed.numbers u

/-- A terminal keeps its number when its base shell ends. -/
theorem vacated (framed : Framed ps) : Framed ps.release.vacate := by
  refine ⟨fun u => ?_, framed.entry⟩
  have same : (ps.release.vacate.slots u).currentPid = (ps.slots u).currentPid :=
    Processes.read_update u Slot.currentPid rfl
  rw [same]
  exact framed.numbers u

end Framed

section Steps

variable {env : Env} {s next : Kernel} {event : Event} {path : Terminal → List Nat}

/-- A base shell that was started again could be. -/
theorem canRestart_of_entered {frame : CallFrame} {entryPoint : Nat}
    (acc : Accounting s.processes path) (mapped : Mapped s.scheduled.curPcb)
    (base : s.curPcb.parentPid = noParent)
    (entered : Entered env (endBaseShell s) frame shell entryPoint next) :
    CanRestart env s frame := by
  constructor
  · have words : parseCommand shell = some (shell, []) := by decide
    have named : shell = entered.fileName :=
      congrArg Prod.fst (Option.some.inj (words.symm.trans entered.parsed))
    have found := entered.found
    rw [← named] at found
    rw [found]
    rfl
  · by_cases shown : s.currentId = s.currTerminal
    · exact .inl shown
    right
    cases child : s.displayed.firstProcess with
    | false => exact .inl rfl
    | true =>
      -- The displayed terminal runs on, so the shell took one of the slots of children.
      refine .inr fun full => entered.room ⟨?_, ?_⟩
      · have record : ((endBaseShell s).processes.slots s.currentId).firstProcess = true := by
          rw [endBaseShell_processes, Accounting.retire_slot_other _ shown]
          exact child
        exact record
      · have array : (endBaseShell s).processArray =
            Function.update s.processArray s.curPcb.pid 0 :=
          congrArg Processes.processArray (endBaseShell_processes s)
        have own : s.curPcb.pid = s.currTerminal.val := (acc.base_known mapped base).2
        have small := s.currTerminal.isLt
        unfold TableFull at full ⊢
        rw [array, Function.update_of_ne (by omega), Function.update_of_ne (by omega),
          Function.update_of_ne (by omega)]
        exact full

/-- A step either keeps to the frames of processes, or strands a base shell that has no parent. -/
theorem Framed.step (framed : Framed s.processes) (acc : Accounting s.processes path)
    (taken : step env s event = some next) :
    Framed next.processes ∧ ShellsRestart env s event ∨
      next.pageDirectory userPde = frameEntry noParent ∧ ¬ ShellsRestart env s event := by
  cases step_cases taken with
  | quiet kept uneventful =>
    refine .inl ⟨kept.processes ▸ framed, ?_⟩
    unfold ShellsRestart
    split
    · exact uneventful.elim
    · trivial
  | tick =>
    rw [pitHandler_processes]
    exact .inl ⟨framed.ticked _ _ _, trivial⟩
  | enter entered =>
    obtain ⟨fresh, started⟩ := entered.processes
    rw [started]
    exact .inl ⟨framed.spawned fresh _ _, trivial⟩
  | finish ended mapped halted =>
    cases halted with
    | child above =>
      -- The parent is on the chain of the terminal.
      obtain ⟨rest, shape, chain⟩ := acc.path_child (acc.running_of_child mapped above) above
      have member : s.curPcb.parentPid ∈ path s.processes.running := by
        rw [shape]
        exact List.mem_cons_of_mem _ chain.top_mem
      rw [child_processes]
      exact .inl ⟨framed.resumed (acc.live member).1, fun base => absurd base above⟩
    | stranded base refused =>
      refine .inr ⟨congrArg Processes.userEntry (stranded_processes base refused), fun restarts => ?_⟩
      exact (restarts base).not_failed acc mapped base refused
    | restarted base entered =>
      obtain ⟨fresh, started⟩ := restarted_processes entered
      rw [started]
      exact .inl ⟨framed.vacated.spawned fresh _ _,
        fun _ => canRestart_of_entered acc mapped base entered⟩

/-- In a reachable state with its frames in order the kernel is protected. -/
theorem Framed.protects (framed : Framed s.processes) (reach : Reachable env s)
    (aligned : 0x1000 ∣ env.tableAddr) : Protected env.tableAddr s := by
  obtain ⟨p, slot, entry⟩ := framed.entry
  exact protected_of_frame (LowTables.reachable reach) (UnwrittenEntries.reachable reach) aligned
    slot entry

/-- The first shell has the first frame. -/
theorem Framed.booted {start : Kernel} (booted : boot env = some start) :
    Framed start.processes := by
  obtain ⟨_, ⟨entered⟩⟩ := boot_entered booted
  obtain ⟨fresh, started⟩ := entered.processes
  have slot := Accounting.fresh_lt fresh
  rw [started]
  refine ⟨fun u => ?_, entered.pid, slot, rfl⟩
  by_cases same : u = (initialKernel env).currentId
  · subst same
    simpa [Processes.spawn] using slot
  · have none : ((initialKernel env).processes.slots u).currentPid = 0 := rfl
    simp only [Processes.spawn, Function.update_of_ne same, none]
    decide

end Steps

/-- What holds in every state of a run in which the kernel stays protected. -/
def FramesInOrder (env : Env) (s : Kernel) : Prop :=
  Reachable env s ∧ Framed s.processes

/--
The kernel is protected in every state of a run exactly when base shells end only where they can be
started again.

One that cannot be falls back to a parent that it does not have, whose frame is the kernel's own page.
-/
theorem kernel_protected_iff {env : Env} {start s : Kernel} {events : List Event}
    (booted : boot env = some start) (aligned : 0x1000 ∣ env.tableAddr) :
    Protected env.tableAddr start ∧
      (Run (step env) (Leads (step env) (Protected env.tableAddr)) start events s ↔
        Run (step env) (ShellsRestart env) start events s) := by
  have reach : Reachable env start := ⟨start, [], booted, .nil _⟩
  have first : FramesInOrder env start := ⟨reach, Framed.booted booted⟩
  have base := first.2.protects reach aligned
  refine ⟨base, Run.leads_iff_under first base ?_ ?_⟩
  · intro before event after always safe taken
    obtain ⟨path, acc⟩ := always.1.accounting
    rcases always.2.step acc taken with ⟨framed, -⟩ | ⟨stranded, -⟩
    · exact ⟨always.1.step taken, framed⟩
    · exact absurd safe (exposed_of_noParent stranded)
  · intro before event after always _ taken
    obtain ⟨path, acc⟩ := always.1.accounting
    rcases always.2.step acc taken with ⟨framed, restarts⟩ | ⟨stranded, strands⟩
    · exact ⟨fun _ => restarts, fun _ => framed.protects (always.1.step taken) aligned⟩
    · exact ⟨fun safe => absurd safe (exposed_of_noParent stranded),
        fun restarts => absurd restarts strands⟩

/-- The first shell asks for its view, and shells come and go on the second terminal: all are protected. -/
theorem kernel_protected_iff_sample : ∃ s,
    Protected 0x5000 sampleBooted ∧
      Run (step sampleEnv) (Leads (step sampleEnv) (Protected 0x5000)) sampleBooted
        (.call sampleFrame (.vidmap 0x8000000) :: restartSecond) s := by
  have given : (replay (step sampleEnv) (ShellsRestart sampleEnv) sampleBooted
      (.call sampleFrame (.vidmap 0x8000000) :: restartSecond)).isSome = true := by decide +kernel
  obtain ⟨s, reached⟩ := Option.isSome_iff_exists.mp given
  have aligned : 0x1000 ∣ sampleEnv.tableAddr := by decide
  obtain ⟨first, exposed⟩ := kernel_protected_iff sample_boot aligned
  exact ⟨s, first, exposed.mpr (replay_run reached)⟩

end SmallOs
