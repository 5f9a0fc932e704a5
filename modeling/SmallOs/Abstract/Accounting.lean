import SmallOs.Abstract.Processes

/-! The accounting invariant of the process table, and every process transition that keeps it. -/

namespace SmallOs

open Foundation

/-- The process table, the control blocks, and the terminals agree on who runs what. -/
structure Accounting (ps : Processes) (path : Terminal → List Nat) : Prop where
  /-- The terminals' parent chains are disjoint and cover exactly the live processes. -/
  forest : Forest ps.parent ps.top ps.Live path
  /-- A process on a chain finds its own number in its control block. -/
  named : ∀ t, ∀ p ∈ path t, (ps.blocks (pcbAddr p)).pid = p
  /-- A terminal's pointer leads to the control block of its current process. -/
  pointed : ∀ t, (ps.slots t).firstProcess = true →
    (ps.slots t).curPcb = pcbAddr (ps.slots t).currentPid ∧ (ps.slots t).currentPid ∈ path t
  /-- A chain ends at the base shell of its own terminal. -/
  based : ∀ t, (ps.slots t).firstProcess = true → (path t).getLast? = some t.val
  /-- Every other process of a chain has a slot for children. -/
  placed : ∀ t, ∀ p ∈ path t, p = t.val ∨ 3 ≤ p
  /-- A terminal without a process has an unusable pointer, or one to its ended base shell. -/
  idle : ∀ t, (ps.slots t).firstProcess = false →
    ¬ Mapped (ps.slots t).curPcb ∨ (ps.slots t).curPcb = pcbAddr t.val ∧
      (ps.blocks (pcbAddr t.val)).pid = t.val ∧
      (ps.blocks (pcbAddr t.val)).parentPid = noParent

/-- The pointer left behind for the parent of a base shell cannot be followed. -/
theorem pcbAddr_noParent : ¬ Mapped (pcbAddr noParent) := by
  decide

/-- Process numbers fit the table. -/
theorem Terminal.val_lt_maxProcesses (t : Terminal) : t.val < maxProcesses := by
  have := t.isLt
  simp only [maxProcesses]
  omega

/-- A process number in the table is not the word that stands for no parent. -/
theorem ne_noParent {pid : Nat} (slot : pid < maxProcesses) : pid ≠ noParent := by
  simp only [maxProcesses, noParent] at *
  omega

namespace Accounting

variable {ps : Processes} {path : Terminal → List Nat}

/-- Processes on a chain are live. -/
theorem live (acc : Accounting ps path) {t : Terminal} {p : Nat} (member : p ∈ path t) :
    ps.Live p :=
  (acc.forest.live_iff p).mpr ⟨t, member⟩

/-- A running terminal's chain starts at its current process. -/
theorem top_eq (acc : Accounting ps path) {t : Terminal}
    (running : (ps.slots t).firstProcess = true) :
    ps.top t = some (ps.slots t).currentPid := by
  obtain ⟨pointer, member⟩ := acc.pointed t running
  simp only [Processes.top, running, ↓reduceIte, pointer]
  rw [acc.named t _ member]

/-- The chain of a running terminal. -/
theorem chain (acc : Accounting ps path) {t : Terminal}
    (running : (ps.slots t).firstProcess = true) :
    Chain ps.parent (ps.slots t).currentPid (path t) :=
  acc.forest.chain t _ (acc.top_eq running)

/-- A terminal that runs nothing occupies no slot. -/
theorem path_idle (acc : Accounting ps path) {t : Terminal}
    (idle : (ps.slots t).firstProcess = false) : path t = [] :=
  acc.forest.vacant t (by simp [Processes.top, idle])

/-- Terminals with a process on their chain run one. -/
theorem running_of_mem (acc : Accounting ps path) {t : Terminal} {p : Nat}
    (member : p ∈ path t) : (ps.slots t).firstProcess = true := by
  -- An idle terminal has an empty chain, so nothing is a member of it.
  cases running : (ps.slots t).firstProcess with
  | true => rfl
  | false => simp [acc.path_idle running] at member

/-- A fresh slot is that of no live process. -/
theorem fresh_not_live (acc : Accounting ps path) {t : Terminal} {pid : Nat}
    (fresh : ps.Fresh t pid) : ¬ ps.Live pid := by
  -- A child slot is marked free, and a base slot can only be on its own terminal's chain.
  unfold Processes.Fresh at fresh
  split at fresh
  · rintro ⟨-, taken⟩
    rw [fresh.2] at taken
    cases taken
  · rename_i idle
    intro taken
    obtain ⟨u, member⟩ := (acc.forest.live_iff pid).mp taken
    rcases acc.placed u pid member with same | child
    · have owner : u = t := Fin.ext (same.symm.trans fresh)
      subst owner
      exact idle (acc.running_of_mem member)
    · have := t.isLt
      omega

/-- A fresh slot is within the table. -/
theorem fresh_lt {t : Terminal} {pid : Nat} (fresh : ps.Fresh t pid) : pid < maxProcesses := by
  unfold Processes.Fresh at fresh
  split at fresh
  · obtain ⟨listed, -⟩ := fresh
    simp only [List.mem_cons, List.not_mem_nil, or_false] at listed
    simp only [maxProcesses]
    omega
  · rw [fresh]
    exact t.val_lt_maxProcesses

/-- Changes to saved registers, the running terminal, and the mapping are outside the accounts. -/
theorem congr {ps' : Processes} (acc : Accounting ps path) (blocks : ps'.blocks = ps.blocks)
    (array : ps'.processArray = ps.processArray)
    (slots : ∀ t, (ps'.slots t).curPcb = (ps.slots t).curPcb ∧
      (ps'.slots t).firstProcess = (ps.slots t).firstProcess ∧
      (ps'.slots t).currentPid = (ps.slots t).currentPid) : Accounting ps' path where
  forest := by
    -- Parents and tops are read from the blocks and the pointers alone.
    refine acc.forest.congr (fun p _ => ?_) (fun t => ?_) fun p => ?_
    · simp only [Processes.parent, blocks]
    · simp only [Processes.top, blocks, (slots t).1, (slots t).2.1]
    · simp only [Processes.Live, array]
  named t p member := by
    rw [blocks]
    exact acc.named t p member
  pointed t running := by
    rw [(slots t).1, (slots t).2.2]
    exact acc.pointed t ((slots t).2.1 ▸ running)
  based t running := acc.based t ((slots t).2.1 ▸ running)
  placed := acc.placed
  idle t idle := by
    rw [(slots t).1, blocks]
    exact acc.idle t ((slots t).2.1 ▸ idle)

/-- A timer interrupt keeps the accounts. -/
theorem tick (acc : Accounting ps path) (next : Terminal) (esp ebp : Nat) :
    Accounting (ps.tick next esp ebp) path := by
  -- The registers are outside the accounts, and so are the turn and the mapping.
  refine acc.congr rfl rfl fun t => ?_
  exact ⟨ps.tick_curPcb t next esp ebp, ps.tick_firstProcess t next esp ebp,
    ps.tick_currentPid t next esp ebp⟩

section Spawn

variable {t : Terminal} {pid : Nat}

/-- The control block of a fresh slot belongs to nobody, so no other block is changed. -/
theorem spawn_kept (acc : Accounting ps path) (fresh : ps.Fresh t pid) (frame : CallFrame)
    (arg : List Byte) {p : Nat} (alive : ps.Live p) :
    (ps.spawn t pid frame arg).blocks (pcbAddr p) = ps.blocks (pcbAddr p) := by
  refine ps.spawn_block_other t pid frame arg fun same => acc.fresh_not_live fresh ?_
  rw [← pcbAddr_inj alive.1 (fresh_lt fresh) same]
  exact alive

/-- The new process is the top of its terminal, and every other top is as it was. -/
theorem spawn_top (acc : Accounting ps path) (fresh : ps.Fresh t pid) (frame : CallFrame)
    (arg : List Byte) :
    (ps.spawn t pid frame arg).top = Function.update ps.top t (some pid) := by
  funext u
  by_cases same : u = t
  · subst same
    simp [Processes.top, Processes.spawn_slot, Processes.spawn_block]
  · simp only [Processes.top, ps.spawn_slot_other t pid frame arg same, Function.update_of_ne same]
    split
    · rename_i running
      obtain ⟨pointer, member⟩ := acc.pointed u running
      rw [pointer, acc.spawn_kept fresh frame arg (acc.live member)]
    · rfl

/-- The parent of the new process is the one that was on top before, or none. -/
theorem spawn_parent (acc : Accounting ps path) (frame : CallFrame) (arg : List Byte) :
    (ps.spawn t pid frame arg).parent pid = ps.top t := by
  simp only [Processes.parent, Processes.spawn_block]
  cases running : (ps.slots t).firstProcess with
  | true =>
    have known := ne_noParent (acc.live (acc.pointed t running).2).1
    simp [acc.top_eq running, known]
  | false => simp [Processes.top, running]

/-- The new process is put in front of the chain of its terminal. -/
theorem spawn_forest (acc : Accounting ps path) (fresh : ps.Fresh t pid) (frame : CallFrame)
    (arg : List Byte) :
    Forest (ps.spawn t pid frame arg).parent (ps.spawn t pid frame arg).top
      (ps.spawn t pid frame arg).Live (Function.update path t (pid :: path t)) := by
  have alive := ps.spawn_live t pid frame arg (fresh_lt fresh)
  rw [acc.spawn_top fresh]
  -- A live process keeps its link, and links outside the table are of no chain.
  have linked : Forest (Function.update ps.parent pid ((ps.spawn t pid frame arg).parent pid))
      (Function.update ps.top t (some pid)) (ps.spawn t pid frame arg).Live
      (Function.update path t (pid :: path t)) :=
    acc.forest.push t (acc.fresh_not_live fresh) (by simp [acc.spawn_parent frame arg])
      (fun p differ => by simp [differ]) alive
  refine linked.congr (fun p living => ?_) (fun _ => rfl) fun _ => Iff.rfl
  by_cases same : p = pid
  · subst same
    simp
  · have older := ((alive p).mp living).resolve_left same
    simp only [Processes.parent, acc.spawn_kept fresh frame arg older, Function.update_of_ne same]

/-- A process that is on a chain afterwards is the new one or was on it before. -/
theorem spawn_member {u : Terminal} {p : Nat}
    (member : p ∈ Function.update path t (pid :: path t) u) : (u = t ∧ p = pid) ∨ p ∈ path u := by
  rcases Forest.mem_update_iff.mp member with ⟨same, inside⟩ | ⟨-, inside⟩
  · rcases List.mem_cons.mp inside with new | old
    · exact .inl ⟨same, new⟩
    · exact .inr (same ▸ old)
  · exact .inr inside

/-- A child leaves the base of its chain in place, and a base shell is a chain of its own. -/
theorem spawn_based (acc : Accounting ps path) (fresh : ps.Fresh t pid) :
    (pid :: path t).getLast? = some t.val := by
  cases before : (ps.slots t).firstProcess with
  | true =>
    have last := acc.based t before
    cases nodes : path t with
    | nil => simp [nodes] at last
    | cons first rest =>
      rw [List.getLast?_cons_cons, ← nodes]
      exact last
  | false =>
    -- The number of a base shell is that of the terminal.
    have base : pid = t.val := by simpa [Processes.Fresh, before] using fresh
    simp [acc.path_idle before, base]

/-- A fresh slot is a child's, or that of the base shell of its terminal. -/
theorem fresh_placed (fresh : ps.Fresh t pid) : pid = t.val ∨ 3 ≤ pid := by
  unfold Processes.Fresh at fresh
  split at fresh
  · obtain ⟨listed, -⟩ := fresh
    simp only [List.mem_cons, List.not_mem_nil, or_false] at listed
    omega
  · exact .inl fresh

/-- Starting a process in a fresh slot keeps the accounts. -/
theorem spawn (acc : Accounting ps path) (fresh : ps.Fresh t pid) (frame : CallFrame)
    (arg : List Byte) :
    Accounting (ps.spawn t pid frame arg) (Function.update path t (pid :: path t)) := by
  have elsewhere : ∀ u, u ≠ t → (ps.spawn t pid frame arg).slots u = ps.slots u := fun u differ =>
    ps.spawn_slot_other t pid frame arg differ
  refine ⟨acc.spawn_forest fresh frame arg, ?_, ?_, ?_, ?_, ?_⟩
  · intro u p member
    rcases spawn_member member with ⟨-, rfl⟩ | old
    · rw [Processes.spawn_block]
    · rw [acc.spawn_kept fresh frame arg (acc.live old)]
      exact acc.named u p old
  · intro u running
    by_cases same : u = t
    · subst same
      simp [Processes.spawn_slot]
    · rw [elsewhere u same] at running ⊢
      simpa [same] using acc.pointed u running
  · intro u running
    by_cases same : u = t
    · subst same
      rw [Function.update_self]
      exact acc.spawn_based fresh
    · rw [elsewhere u same] at running
      simpa [same] using acc.based u running
  · intro u p member
    rcases spawn_member member with ⟨rfl, rfl⟩ | old
    · exact fresh_placed fresh
    · exact acc.placed u p old
  · intro u idle
    by_cases same : u = t
    · subst same
      simp [Processes.spawn_slot] at idle
    · rw [elsewhere u same] at idle ⊢
      rcases acc.idle u idle with lost | ⟨pointer, number, base⟩
      · exact .inl lost
      · -- The block of another base shell is not that of the fresh slot.
        have apart : pcbAddr u.val ≠ pcbAddr pid := by
          intro equal
          have number := pcbAddr_inj u.val_lt_maxProcesses (fresh_lt fresh) equal
          rcases fresh_placed fresh with own | child
          · exact same (Fin.ext (number.trans own))
          · have := u.isLt
            omega
        rw [ps.spawn_block_other t pid frame arg apart]
        exact .inr ⟨pointer, number, base⟩

end Spawn

/-- The current block of a running terminal is that of its current process. -/
theorem current_eq (acc : Accounting ps path)
    (running : (ps.slots ps.running).firstProcess = true) :
    ps.current = ps.blocks (pcbAddr (ps.slots ps.running).currentPid) ∧
      ps.current.pid = (ps.slots ps.running).currentPid := by
  obtain ⟨pointer, member⟩ := acc.pointed ps.running running
  simp only [Processes.current, pointer]
  exact ⟨trivial, acc.named ps.running _ member⟩

/-- A process without a parent is the base shell of its terminal, and alone on its chain. -/
theorem path_base (acc : Accounting ps path)
    (running : (ps.slots ps.running).firstProcess = true) (base : ps.current.parentPid = noParent) :
    path ps.running = [ps.running.val] ∧ ps.current.pid = ps.running.val := by
  obtain ⟨block, number⟩ := acc.current_eq running
  have root : ps.parent (ps.slots ps.running).currentPid = none := by
    rw [block] at base
    simp [Processes.parent, base]
  -- A chain that starts at a root is that root alone.
  rcases acc.forest.rest_chain (acc.top_eq running) with ⟨-, alone⟩ | ⟨above, -, up, -, -⟩
  · have last := acc.based ps.running running
    rw [alone] at last
    simp only [List.getLast?_singleton, Option.some.injEq] at last
    exact ⟨by rw [alone, last], number.trans last⟩
  · rw [root] at up
    cases up

/-- A process with a parent stands in front of the rest of its terminal's chain. -/
theorem path_child (acc : Accounting ps path)
    (running : (ps.slots ps.running).firstProcess = true)
    (above : ps.current.parentPid ≠ noParent) :
    ∃ rest, path ps.running = (ps.slots ps.running).currentPid :: rest ∧
      Chain ps.parent ps.current.parentPid rest := by
  obtain ⟨block, -⟩ := acc.current_eq running
  have link : ps.parent (ps.slots ps.running).currentPid = some ps.current.parentPid := by
    simp only [Processes.parent, ← block, above, ↓reduceIte]
  -- The link of the first node is the one `halt` reads.
  rcases acc.forest.rest_chain (acc.top_eq running) with ⟨root, -⟩ | ⟨_, rest, up, shape, chain⟩
  · rw [link] at root
    cases root
  · rw [link] at up
    cases up
    exact ⟨rest, shape, chain⟩

/-- Releasing a running process takes exactly it out of the table. -/
theorem release_live (ps : Processes) (p : Nat) :
    ps.release.Live p ↔ p ≠ ps.current.pid ∧ ps.Live p := by
  -- The slot of the ended process is the only one that is cleared.
  by_cases same : p = ps.current.pid
  · simp [Processes.Live, Processes.release, same]
  · simp [Processes.Live, Processes.release, same]

/-- The end of a child keeps the accounts. -/
theorem finish (acc : Accounting ps path)
    (running : (ps.slots ps.running).firstProcess = true)
    (above : ps.current.parentPid ≠ noParent) :
    Accounting (ps.release.resume ps.current.parentPid)
      (Function.update path ps.running (path ps.running).tail) := by
  -- The ended process is the first of its chain, and its parent the second.
  obtain ⟨rest, shape, chain⟩ := acc.path_child running above
  obtain ⟨block, number⟩ := acc.current_eq running
  have next : ps.current.parentPid ∈ path ps.running := by
    rw [shape]
    exact List.mem_cons_of_mem _ chain.top_mem
  have here : (ps.release.resume ps.current.parentPid).slots ps.running =
      { ps.slots ps.running with
        curPcb := pcbAddr ps.current.parentPid, currentPid := ps.current.parentPid } := by
    simp [Processes.resume, Processes.release]
  have elsewhere : ∀ u, u ≠ ps.running →
      (ps.release.resume ps.current.parentPid).slots u = ps.slots u := by
    intro u differ
    simp [Processes.resume, Processes.release, differ]
  have tops : (ps.release.resume ps.current.parentPid).top =
      Function.update ps.top ps.running (ps.parent (ps.slots ps.running).currentPid) := by
    -- The link to the parent is what makes it the new top.
    have link : ps.parent (ps.slots ps.running).currentPid = some ps.current.parentPid := by
      simp only [Processes.parent, ← block, above, ↓reduceIte]
    funext u
    by_cases same : u = ps.running
    · subst same
      simp only [Processes.top, here, running, ↓reduceIte, Function.update_self, link]
      exact congrArg some (acc.named ps.running _ next)
    · simp only [Processes.top, elsewhere u same, Function.update_of_ne same]
      rfl
  have members : ∀ u, ∀ p ∈ Function.update path ps.running (path ps.running).tail u,
      p ∈ path u := by
    intro u p member
    rcases Forest.mem_update_iff.mp member with ⟨same, inside⟩ | ⟨-, inside⟩
    · exact same ▸ List.mem_of_mem_tail inside
    · exact inside
  refine ⟨?_, fun u p member => acc.named u p (members u p member), ?_, ?_,
    fun u p member => acc.placed u p (members u p member), ?_⟩
  · rw [tops]
    refine acc.forest.pop ps.running (acc.top_eq running) fun p => ?_
    rw [← number]
    exact release_live ps p
  · intro u runs
    by_cases same : u = ps.running
    · subst same
      rw [here]
      refine ⟨rfl, ?_⟩
      rw [Function.update_self, shape]
      exact chain.top_mem
    · rw [elsewhere u same] at runs ⊢
      simpa [same] using acc.pointed u runs
  · intro u runs
    by_cases same : u = ps.running
    · subst same
      -- Without its first node the chain still ends at the base shell.
      have last := acc.based ps.running running
      obtain ⟨tail, split⟩ := chain.head
      rw [Function.update_self]
      rw [shape, split, List.getLast?_cons_cons] at last
      rw [shape, List.tail_cons, split]
      exact last
    · rw [elsewhere u same] at runs
      simpa [same] using acc.based u runs
  · intro u idle
    by_cases same : u = ps.running
    · subst same
      rw [here] at idle
      exact absurd (running.symm.trans idle) (by simp)
    · rw [elsewhere u same] at idle ⊢
      exact acc.idle u idle

/-- A running base shell and one that ended before have the number of their terminal. -/
theorem base_known (acc : Accounting ps path) (mapped : Mapped (ps.slots ps.running).curPcb)
    (base : ps.current.parentPid = noParent) :
    (ps.slots ps.running).curPcb = pcbAddr ps.running.val ∧ ps.current.pid = ps.running.val := by
  cases running : (ps.slots ps.running).firstProcess with
  | true =>
    obtain ⟨-, own⟩ := acc.path_base running base
    obtain ⟨-, number⟩ := acc.current_eq running
    exact ⟨by rw [(acc.pointed ps.running running).1, ← number, own], own⟩
  | false =>
    rcases acc.idle ps.running running with lost | ⟨pointer, number, -⟩
    · exact absurd mapped lost
    · exact ⟨pointer, by simp only [Processes.current, pointer, number]⟩

/-- Whether a base shell still runs or ended before, nothing else is on the chain. -/
theorem base_alone (acc : Accounting ps path) (base : ps.current.parentPid = noParent) :
    path ps.running = [] ∨ path ps.running = [ps.running.val] := by
  cases running : (ps.slots ps.running).firstProcess with
  | true => exact .inr (acc.path_base running base).1
  | false => exact .inl (acc.path_idle running)

/-- Who is on a chain without that of the running terminal was on it before. -/
theorem retire_member {u : Terminal} {p : Nat} (member : p ∈ Function.update path ps.running [] u) :
    u ≠ ps.running ∧ p ∈ path u := by
  rcases Forest.mem_update_iff.mp member with ⟨-, inside⟩ | both
  · cases inside
  · exact both

/-- The terminal of the ended shell runs nothing. -/
theorem retire_slot (ps : Processes) : ps.release.vacate.slots ps.running =
    { ps.slots ps.running with firstProcess := false } := by
  simp [Processes.vacate, Processes.release]

/-- Every other terminal runs what it did. -/
theorem retire_slot_other (ps : Processes) {u : Terminal} (differ : u ≠ ps.running) :
    ps.release.vacate.slots u = ps.slots u := by
  simp [Processes.vacate, Processes.release, differ]

/-- Only the number of the ended shell leaves the table. -/
theorem retire_live (acc : Accounting ps path) (mapped : Mapped (ps.slots ps.running).curPcb)
    (base : ps.current.parentPid = noParent) (p : Nat) :
    ps.release.vacate.Live p ↔ ∃ u, p ∈ Function.update path ps.running [] u := by
  have alive : ps.release.vacate.Live p ↔ p ≠ ps.current.pid ∧ ps.Live p := release_live ps p
  rw [alive, acc.forest.live_iff, (acc.base_known mapped base).2]
  constructor
  · rintro ⟨differ, u, member⟩
    have apart : u ≠ ps.running := by
      rintro rfl
      rcases acc.base_alone base with empty | single
      · simp [empty] at member
      · rw [single, List.mem_singleton] at member
        exact differ member
    exact ⟨u, by rwa [Function.update_of_ne apart]⟩
  · rintro ⟨u, member⟩
    obtain ⟨apart, inside⟩ := retire_member member
    refine ⟨?_, u, inside⟩
    rintro rfl
    -- Another chain has this number neither as its base shell nor as a child.
    rcases acc.placed u _ inside with same | child
    · exact apart (Fin.ext same.symm)
    · have := ps.running.isLt
      omega

/-- The other chains are what is left. -/
theorem retire_forest (acc : Accounting ps path) (mapped : Mapped (ps.slots ps.running).curPcb)
    (base : ps.current.parentPid = noParent) :
    Forest ps.release.vacate.parent ps.release.vacate.top ps.release.vacate.Live
      (Function.update path ps.running []) := by
  refine ⟨?_, ?_, ?_, acc.retire_live mapped base⟩
  · intro u node starts
    by_cases same : u = ps.running
    · subst same
      simp [Processes.top, retire_slot] at starts
    · simp only [Processes.top, retire_slot_other ps same] at starts
      rw [Function.update_of_ne same]
      exact acc.forest.chain u node starts
  · intro u empty
    by_cases same : u = ps.running
    · simp [same]
    · simp only [Processes.top, retire_slot_other ps same] at empty
      rw [Function.update_of_ne same]
      exact acc.forest.vacant u empty
  · exact Forest.disjoint_update acc.forest.disjoint fun p member => by cases member

/-- The end of a base shell keeps the accounts, and leaves its terminal without a process. -/
theorem retire (acc : Accounting ps path) (mapped : Mapped (ps.slots ps.running).curPcb)
    (base : ps.current.parentPid = noParent) :
    Accounting ps.release.vacate (Function.update path ps.running []) := by
  refine ⟨acc.retire_forest mapped base,
    fun u p member => acc.named u p (retire_member member).2, ?_, ?_,
    fun u p member => acc.placed u p (retire_member member).2, ?_⟩
  · intro u runs
    by_cases same : u = ps.running
    · subst same
      simp [retire_slot] at runs
    · rw [retire_slot_other ps same] at runs ⊢
      simpa [same] using acc.pointed u runs
  · intro u runs
    by_cases same : u = ps.running
    · subst same
      simp [retire_slot] at runs
    · rw [retire_slot_other ps same] at runs
      simpa [same] using acc.based u runs
  · intro u idle
    by_cases same : u = ps.running
    · subst same
      -- The pointer stays at the ended shell, whose block keeps its number and its lack of a parent.
      obtain ⟨pointer, number⟩ := acc.base_known mapped base
      rw [retire_slot]
      simp only [Processes.current, pointer] at number base
      exact .inr ⟨pointer, number, base⟩
    · rw [retire_slot_other ps same] at idle ⊢
      exact acc.idle u idle

/-- Falling back to the parent a base shell does not have keeps the accounts. -/
theorem resume_noParent (acc : Accounting ps path)
    (idle : (ps.slots ps.running).firstProcess = false) :
    Accounting (ps.resume noParent) path := by
  -- The terminal stays without a process, and its pointer becomes unusable.
  have here : (ps.resume noParent).slots ps.running =
      { ps.slots ps.running with curPcb := pcbAddr noParent, currentPid := noParent } := by
    simp [Processes.resume]
  have elsewhere : ∀ u, u ≠ ps.running → (ps.resume noParent).slots u = ps.slots u := by
    intro u differ
    simp [Processes.resume, differ]
  -- A terminal without a process has no top, wherever its pointer leads.
  have tops : (ps.resume noParent).top = ps.top := by
    funext u
    by_cases same : u = ps.running
    · subst same
      simp [Processes.top, here, idle]
    · simp only [Processes.top, elsewhere u same]
      rfl
  refine ⟨?_, acc.named, ?_, ?_, acc.placed, ?_⟩
  · rw [tops]
    exact acc.forest
  · intro u runs
    by_cases same : u = ps.running
    · subst same
      simp [here, idle] at runs
    · rw [elsewhere u same] at runs ⊢
      exact acc.pointed u runs
  · intro u runs
    by_cases same : u = ps.running
    · subst same
      simp [here, idle] at runs
    · rw [elsewhere u same] at runs
      exact acc.based u runs
  · intro u quiet
    by_cases same : u = ps.running
    · subst same
      rw [here]
      exact .inl pcbAddr_noParent
    · rw [elsewhere u same] at quiet ⊢
      exact acc.idle u quiet

/-- The end of a base shell that is not started again keeps the accounts. -/
theorem strand (acc : Accounting ps path) (mapped : Mapped (ps.slots ps.running).curPcb)
    (base : ps.current.parentPid = noParent) :
    Accounting (ps.release.vacate.resume noParent) (Function.update path ps.running []) :=
  (acc.retire mapped base).resume_noParent ps.release.vacate_idle

end Accounting

end SmallOs
