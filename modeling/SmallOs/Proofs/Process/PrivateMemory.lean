import Mathlib.Data.List.GetD
import SmallOs.Abstract.Memories
import SmallOs.Proofs.FileSystem.ReadData
import SmallOs.Proofs.Process.AddressSpace

/-! One page that is mapped anew for each process is as good as a memory for every process. -/

namespace SmallOs

open Foundation

/-- The contents of the file that the first word of a command names. -/
def programOf (img : Image) (command : List Byte) : List Byte :=
  match readDentryByName img (cstr (command.takeWhile (· ≠ 0x20))) with
  | none => []
  | some d => img.fileBytes d.inode 0 (img.inodeLength d.inode)

/-- The program that an event starts, if it starts one. -/
def startedBy (env : Env) (s : Kernel) : Event → Option (List Byte)
  | .call frame (.execute (some command)) =>
    match execute env s frame (some command) with
    | some (.entered _, _) => some (programOf env.image command)
    | _ => none
  | .call frame (.halt _) =>
    match halt env s frame with
    | some (.entered _, _) => some (programOf env.image shell)
    | _ => none
  | _ => none

/-- The bytes an event stores for the running process, and where in its page the first one is. -/
def storedBy (env : Env) (s : Kernel) : Event → Nat × List Byte
  | .call frame request =>
    request.pointer.elim (0, []) fun buf =>
      (syscall env s frame request).elim (0, []) fun result => (buf - 0x08000000, result.stores)
  | _ => (0, [])

/-- What an observer makes of the memories, who takes every store for one of the running process. -/
def watchMemories (env : Env) (memory : Memories) (s : Kernel) (action : Action) (next : Kernel) :
    Memories :=
  match action with
  | .store offset value => memory.store s.scheduled.currentPid offset value
  | .event event =>
    match startedBy env s event with
    | some program => memory.load next.scheduled.currentPid program
    -- What a call answers with is stored at the pointer it was given.
    | none =>
      let (offset, text) := storedBy env s event
      memory.storeText s.scheduled.currentPid offset text

/-- The memories after boot: that of the first shell holds its program. -/
def bootMemories (env : Env) : Memories :=
  Memories.load (fun p offset => env.frameMemory (0x800000 + 0x400000 * p + offset)) 0
    (programOf env.image shell)

/-- The condition on events under which the user page is mapped right; a store needs none. -/
def Action.KeepsUserPage (env : Env) (s : Kernel) : Action → Prop
  | .event e => SmallOs.KeepsUserPage env s e
  | .store _ _ => True

instance (env : Env) (s : Kernel) : (action : Action) → Decidable (action.KeepsUserPage env s)
  | .event e => inferInstanceAs (Decidable (SmallOs.KeepsUserPage env s e))
  | .store _ _ => inferInstanceAs (Decidable True)

/-- Physical memory holds the memory of every process in the frame of the process. -/
def HoldsMemories (s : Kernel) (memory : Memories) : Prop :=
  ∀ p < maxProcesses, ∀ offset < 0x400000,
    s.frames (0x800000 + 0x400000 * p + offset) = memory p offset

/-- What `execute` loads is the contents of the file it was given. -/
theorem findProgram_contents {img : Image} {frame : CallFrame} {command fileName arg : List Byte}
    {dentry : Dentry} {entryPoint : Nat} (parsed : parseCommand command = some (fileName, arg))
    (found : findProgram img frame fileName = some (dentry, entryPoint)) :
    (readData img dentry.inode 0 (fileSize img dentry.inode)).bytes = programOf img command := by
  have name : fileName = command.takeWhile (· ≠ 0x20) := by
    unfold parseCommand at parsed
    simp only at parsed
    split at parsed
    · exact (congrArg Prod.fst (Option.some.inj parsed)).symm
    · cases parsed
  -- The lookup and the read of the header are tested before anything is loaded.
  unfold findProgram at found
  unfold programOf
  rw [← name]
  cases entry : readDentryByName img (cstr fileName) with
  | none => simp [entry] at found
  | some d =>
    simp only [entry] at found
    split at found
    · cases found
    · rename_i accepted
      split at found
      · simp only [Option.some.injEq, Prod.mk.injEq] at found
        obtain ⟨rfl, -⟩ := found
        have known : d.inode ≤ img.numInode := by
          by_contra beyond
          exact accepted (congrArg ReadData.ret (readData_unknown 0 4 (Nat.lt_of_not_le beyond)))
        simp only [fileSize]
        by_cases empty : img.inodeLength d.inode = 0
        · rw [readData_ended _ known (Nat.le_of_eq empty), empty]
          rfl
        · rw [(readData_eq _ known (Nat.pos_of_ne_zero empty)).2.1, Nat.min_self]
      · cases found

/-- A program that was entered is in the frame of its process. -/
theorem Entered.loaded {env : Env} {s next : Kernel} {frame : CallFrame} {command : List Byte}
    {entryPoint : Nat} (entered : Entered env s frame command entryPoint next)
    (slot : entered.pid < maxProcesses) (offset : Nat) :
    next.frames (0x800000 + 0x400000 * entered.pid + offset) =
      if 0x48000 ≤ offset then (programOf env.image command).getD (offset - 0x48000)
        (s.frames (0x800000 + 0x400000 * entered.pid + offset))
      else s.frames (0x800000 + 0x400000 * entered.pid + offset) := by
  have kept : (markFish s entered.fileName).frames = s.frames :=
    (screenOnly_markFish s _).agree Kernel.frames fun _ => rfl
  have home := frameEntry_frame slot
  simp only [frameEntry] at home
  refine (congrArg (fun k => k.frames (0x800000 + 0x400000 * entered.pid + offset))
    entered.started).trans ?_
  rw [← findProgram_contents entered.parsed entered.found, ← kept]
  simp only [startProcess, Kernel.setTerminal, Kernel.setPcb, loadProgram, mapToUserPhy, userFrame,
    Function.update_self, home]
  generalize (readData env.image entered.dentry.inode 0
    (fileSize env.image entered.dentry.inode)).bytes = bytes
  -- The offset is in front of the program, in it, or behind it.
  by_cases front : 0x48000 ≤ offset
  · have place : 0x800000 + 0x400000 * entered.pid + offset -
        (0x48000 + (0x800000 + 0x400000 * entered.pid)) = offset - 0x48000 := by omega
    rw [if_pos front, place]
    by_cases within : offset - 0x48000 < bytes.length
    · rw [if_pos (by omega), List.getD_eq_getElem _ _ within, List.getD_eq_getElem _ _ within]
    · rw [if_neg (by omega), List.getD_eq_default _ _ (by omega)]
  · rw [if_neg front, if_neg (by omega)]

/-- A process that is entered gets its program, and every other memory is as it was. -/
theorem Entered.holdsMemories {env : Env} {s next : Kernel} {frame : CallFrame} {command : List Byte}
    {entryPoint : Nat} {memory : Memories} (entered : Entered env s frame command entryPoint next)
    (slot : entered.pid < maxProcesses) (holds : HoldsMemories s memory) :
    HoldsMemories next (memory.load next.scheduled.currentPid (programOf env.image command)) := by
  intro p inside offset within
  rw [entered.scheduled.2.2]
  by_cases same : p = entered.pid
  · subst same
    rw [entered.loaded slot, Memories.load, Function.update_self, holds _ inside _ within]
  · rw [entered.frames slot same within, Memories.load_other same]
    exact holds p inside offset within

/-- The user page is the frame of the process that is served. -/
theorem Serving.userFrame {s : Kernel} (serving : Serving s.processes) :
    s.scheduled.currentPid < maxProcesses ∧
      SmallOs.userFrame s = 0x800000 + 0x400000 * s.scheduled.currentPid := by
  obtain ⟨⟨path, acc⟩, running, mapped⟩ := serving
  have slot := (acc.live (acc.pointed s.currTerminal running).2).1
  exact ⟨slot, userFrame_of_entry mapped slot⟩

/-- A store through the user page is one into the memory of the process that runs. -/
theorem HoldsMemories.store {s : Kernel} {memory : Memories} (holds : HoldsMemories s memory)
    (serving : Serving s.processes) {offset : Nat} (inside : offset < 0x400000) (value : Byte) :
    HoldsMemories { s with frames := Function.update s.frames (userFrame s + offset) value }
      (memory.store s.scheduled.currentPid offset value) := by
  obtain ⟨slot, frame⟩ := serving.userFrame
  intro p within other fits
  simp only [frame]
  -- Frames are apart, so only the same offset of the same process is stored to.
  by_cases same : p = s.scheduled.currentPid
  · subst same
    rw [Memories.store, Function.update_self]
    by_cases here : other = offset
    · subst here
      rw [Function.update_self, Function.update_self]
    · rw [Function.update_of_ne here, Function.update_of_ne (by omega)]
      exact holds _ within _ fits
  · rw [Memories.store_other same, Function.update_of_ne (by omega)]
    exact holds p within other fits

/-- Bytes stored through the user page go into the memory of the process that runs. -/
theorem HoldsMemories.storeText {s : Kernel} {memory : Memories} (holds : HoldsMemories s memory)
    (serving : Serving s.processes) (offset : Nat) (text : List Byte)
    (inside : offset + text.length ≤ 0x400000) :
    HoldsMemories { s with frames := storeAll (storesFrom (userFrame s + offset) text) s.frames }
      (memory.storeText s.scheduled.currentPid offset text) := by
  -- The induction is on the bytes, each of which is a store of its own.
  induction text generalizing s memory offset with
  | nil => exact holds
  | cons value text ih =>
    rw [List.length_cons] at inside
    have here : offset < 0x400000 := by omega
    have rest : offset + 1 + text.length ≤ 0x400000 := by omega
    exact ih (holds.store serving here value) serving (offset + 1) rest

/-- A plain call leaves the frames to its caller's page alone. -/
theorem PlainStep.frames {s next : Kernel} {request : Call} (step : PlainStep s request next) :
    next.frames = s.frames := by
  cases step with
  | kept | listing | position | awaited | rate | opened | closed | view => rfl
  | line => exact (screenOnly_takeLine s).agree Kernel.frames fun _ => rfl
  | written => exact (screenOnly_terminalWrite s _ _).agree Kernel.frames fun _ => rfl

/-- What a plain call stores goes into the memory of its caller. -/
theorem HoldsMemories.plain {env : Env} {s next : Kernel} {frame : CallFrame} {request : Call}
    {memory : Memories} (holds : HoldsMemories s memory) (serving : Serving s.processes)
    (plain : request.Plain) (taken : step env s (.call frame request) = some next) :
    HoldsMemories next (memory.storeText s.scheduled.currentPid
      (storedBy env s (.call frame request)).1 (storedBy env s (.call frame request)).2) := by
  obtain ⟨result, done, committed⟩ := Option.bind_eq_some_iff.mp taken
  have kept := (plain_cases plain done).frames
  have still : HoldsMemories result.kernel memory := fun p inside offset within =>
    (congrFun kept _).trans (holds p inside offset within)
  unfold CallResult.commit at committed
  -- The call stored nothing, or all of its bytes inside the page.
  split at committed
  · rename_i nothing
    obtain rfl := Option.some.inj committed
    have none : (storedBy env s (.call frame request)).2 = [] := by
      simp only [storedBy, done, Option.elim_some]
      cases request.pointer with
      | none => rfl
      | some buf => exact nothing
    rw [none]
    exact still
  · rename_i buf _ pointer
    split at committed
    · rename_i inside
      obtain rfl := Option.some.inj committed
      have stored : storedBy env s (.call frame request) = (buf - 0x08000000, result.stores) := by
        simp only [storedBy, done, pointer, Option.elim_some]
      rw [stored]
      have text := holds.storeText serving (buf - 0x08000000) result.stores (by omega)
      rw [← kept] at text
      exact text
    · cases committed
  · cases committed

/-- A step of the kernel loads programs, and stores for the process that runs. -/
theorem HoldsMemories.step {env : Env} {s next : Kernel} {event : Event} {memory : Memories}
    (holds : HoldsMemories s memory) (serving : Serving s.processes)
    (met : KeepsUserPage env s event) (taken : step env s event = some next) :
    HoldsMemories next (watchMemories env memory s (.event event) next) := by
  obtain ⟨⟨path, acc⟩, running, -⟩ := id serving
  -- Nothing but the load of a program writes the frames.
  cases step_cases taken with
  | quiet kept uneventful =>
    have nothing : startedBy env s event = none := by
      unfold startedBy
      split
      · rename_i frame command
        split
        · rename_i entryPoint after done
          exact absurd done (uneventful entryPoint after)
        · rfl
      · exact uneventful.elim
      · rfl
    simp only [watchMemories, nothing]
    -- Apart from the plain calls nothing is stored through the user page.
    have still : next.frames = s.frames → HoldsMemories next memory := fun same p inside offset
      within => (congrFun same _).trans (holds p inside offset within)
    cases event with
    | keyboard scancode =>
      obtain ⟨-, rfl⟩ := key_taken taken
      exact still ((screenOnly_printKeyboard s scancode).agree Kernel.frames fun _ => rfl)
    | pit => exact uneventful.elim
    | rtc =>
      cases taken
      exact still rfl
    | call frame request =>
      by_cases plain : request.Plain
      · exact holds.plain serving plain taken
      · cases request with
        | halt => exact uneventful.elim
        | execute command =>
          obtain ⟨outcome, executed⟩ := execute_taken taken
          rcases execute_cases executed with ⟨-, failed⟩ | ⟨text, point, rfl, rfl, -⟩
          · exact still (failed.screens.agree Kernel.frames fun _ => rfl)
          · exact absurd executed (uneventful _ _)
        | read | write | «open» | close | getargs | vidmap => exact absurd trivial plain
  | @tick esp ebp =>
    have same : (pitHandler s esp ebp).frames = s.frames :=
      (screenOnly_refreshFish _).agree Kernel.frames fun _ => rfl
    exact fun p inside offset within => (congrFun same _).trans (holds p inside offset within)
  | enter entered =>
    simp only [watchMemories, startedBy, entered.executed]
    exact entered.holdsMemories (Accounting.fresh_lt entered.processes.1) holds
  | finish ended mapped halted =>
    simp only [watchMemories, startedBy, ended]
    cases halted with
    | child above =>
      have same : (resumeParent (endProcess s) s.curPcb.parentPid).frames = s.frames := rfl
      have still : HoldsMemories (resumeParent (endProcess s) s.curPcb.parentPid) memory :=
        fun p inside offset within => (congrFun same _).trans (holds p inside offset within)
      exact still
    -- This end is the one that the condition excludes.
    | stranded base refused => exact absurd refused ((met base).not_failed acc mapped base)
    | restarted base entered =>
      obtain ⟨fresh, -⟩ := restarted_processes entered
      exact entered.holdsMemories (Accounting.fresh_lt fresh) holds

/-- Every admitted action keeps the memories in their frames. -/
theorem HoldsMemories.act {env : Env} {s next : Kernel} {action : Action} {memory : Memories}
    (holds : HoldsMemories s memory) (serving : Serving s.processes)
    (met : action.KeepsUserPage env s) (taken : act env s action = some next) :
    HoldsMemories next (watchMemories env memory s action next) ∧ Serving next.processes := by
  -- An event is a step of the machine, and a store is one byte of the running frame.
  cases action with
  | event e => exact ⟨holds.step serving met taken, serving.step met taken⟩
  | store offset value =>
    simp only [SmallOs.act] at taken
    split at taken
    · rename_i inside
      cases taken
      exact ⟨holds.store serving inside value, serving⟩
    · cases taken

/-- The first shell is loaded into the memory of the first process. -/
theorem holdsMemories_boot {env : Env} {start : Kernel} (booted : boot env = some start) :
    HoldsMemories start (bootMemories env) := by
  obtain ⟨_, ⟨entered⟩⟩ := boot_entered booted
  have initial : HoldsMemories (initialKernel env)
      fun p offset => env.frameMemory (0x800000 + 0x400000 * p + offset) :=
    fun _ _ _ _ => rfl
  have loaded := entered.holdsMemories (Accounting.fresh_lt entered.processes.1) initial
  -- The first process has the number of the terminal it is started on.
  have first : start.scheduled.currentPid = 0 := by
    have picked := entered.picked
    rw [show pickProcess (initialKernel env) = some 0 from rfl] at picked
    exact entered.scheduled.2.2.trans (Option.some.inj picked).symm
  rw [first] at loaded
  exact loaded

/--
The memory of every process is what was loaded when it was started and what it has stored since.

All of them are seen through one page, which ticks and calls map to one frame after the other.
-/
theorem private_memories {env : Env} {start s : Kernel} {actions : List Action} {memory : Memories}
    (booted : boot env = some start)
    (run : Run (observed (act env) (watchMemories env))
      (fun state action => action.KeepsUserPage env state.1) (start, bootMemories env) actions
      (s, memory)) : HoldsMemories s memory := by
  have both := run.observed_invariant (fun s memory => HoldsMemories s memory ∧ Serving s.processes)
    ⟨holdsMemories_boot booted, Serving.booted booted⟩
    fun before memory action after held met taken => held.1.act held.2 met taken
  exact both.1

/-- The shells of two terminals store a byte at one place, and the first one reads a file, too. -/
def storeInTurns : List Action :=
  startSecond.map .event ++
    [.store 8 0x41, .event (.call sampleFrame (.open (ascii ['a']))),
      .event (.call sampleFrame (.read 2 0x8000010 3)), .event (.pit 300 400), .store 8 0x42]

/-- Each of the two processes has its own byte there, and the first one what it read. -/
theorem private_memories_sample : ∃ s memory,
    Run (observed (act sampleEnv) (watchMemories sampleEnv))
      (fun state action => action.KeepsUserPage sampleEnv state.1)
      (sampleBooted, bootMemories sampleEnv) storeInTurns (s, memory) ∧
    (s.frames (0x800000 + 8) = 0x41 ∧ s.frames (0x800000 + 0x10) = 0x61) ∧
    s.frames (0xC00000 + 8) = 0x42 := by
  have given : (replay (observed (act sampleEnv) (watchMemories sampleEnv))
      (fun state action => action.KeepsUserPage sampleEnv state.1)
      (sampleBooted, bootMemories sampleEnv) storeInTurns).map (fun state =>
        decide ((state.2 0 8 = 0x41 ∧ state.2 0 0x10 = 0x61) ∧ state.2 1 8 = 0x42)) =
      some true := by decide +kernel
  obtain ⟨⟨s, memory⟩, reached, facts⟩ := Option.map_eq_some_iff.mp given
  obtain ⟨⟨stored, read⟩, other⟩ := of_decide_eq_true facts
  have run := replay_run reached
  have holds := private_memories sample_boot run
  -- What the observer remembers of a process is found in its frame.
  exact ⟨s, memory, run,
    ⟨(holds 0 (by decide) 8 (by decide)).trans stored,
      (holds 0 (by decide) 0x10 (by decide)).trans read⟩,
    (holds 1 (by decide) 8 (by decide)).trans other⟩

end SmallOs
