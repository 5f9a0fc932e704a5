import SmallOs.Proofs.Kernel.Frame

/-! Inversion lemmas for the calls that neither start nor end a process. -/

namespace SmallOs

open Foundation

/-- A descriptor number the calls accept. -/
def ValidFd (fd : Int) : Prop :=
  ¬ (fd < 0 ∨ fd > maxFd)

instance (fd : Int) : Decidable (ValidFd fd) :=
  inferInstanceAs (Decidable (¬ _))

/-- What `vidmap` accepts as the place for its result: an address in the user page. -/
def InUserPage (address : Nat) : Prop :=
  ¬ (address < 0x08000000 ∨ address ≥ 0x08000000 + 0x00400000)

instance (address : Nat) : Decidable (InUserPage address) :=
  inferInstanceAs (Decidable (¬ _))

/-- What a completed `read` did. -/
inductive ReadDone (img : Image) (s : Kernel) (fd nbytes : Int) : CallResult → Prop where
  /-- The number is out of range. -/
  | range (outside : ¬ ValidFd fd) : ReadDone img s fd nbytes (plainReturn (-1) s)
  /-- The descriptor is closed. -/
  | closed (inside : ValidFd fd) (mapped : Mapped s.scheduled.curPcb)
      (free : (s.curPcb.fd fd.toNat).flags = 0) : ReadDone img s fd nbytes (plainReturn (-1) s)
  /-- The driver of the descriptor's table answered. -/
  | driver {table : OpTable} {read : DriverRead} (inside : ValidFd fd)
      (mapped : Mapped s.scheduled.curPcb) (used : (s.curPcb.fd fd.toNat).flags ≠ 0)
      (points : (s.curPcb.fd fd.toNat).opTable = some table)
      (answered : readOp img s fd.toNat nbytes table = some read) :
      ReadDone img s fd nbytes ⟨.returned read.ret, read.bytes, read.kernel⟩

theorem readFile_cases {img : Image} {s : Kernel} {fd nbytes : Int} {result : CallResult}
    (done : readFile img s fd nbytes = some result) : ReadDone img s fd nbytes result := by
  simp only [readFile] at done
  -- The range is tested before the block is looked at, and the flags before the table is.
  split at done
  · rename_i outside
    cases done
    exact .range fun inside => inside outside
  · rename_i inside
    split at done
    · rename_i mapped
      split at done
      · rename_i free
        cases done
        exact .closed inside mapped free
      · rename_i used
        simp only [Option.bind_eq_bind, Option.bind_eq_some_iff, Option.some.injEq] at done
        obtain ⟨table, points, read, answered, rfl⟩ := done
        exact .driver inside mapped used points answered
    · cases done

/-- What a completed `write` did. -/
inductive WriteDone (s : Kernel) (fd nbytes : Int) : Option (List Byte) → CallResult → Prop where
  /-- The number is out of range. -/
  | range {buf : Option (List Byte)} (outside : ¬ ValidFd fd) :
      WriteDone s fd nbytes buf (plainReturn (-1) s)
  /-- The buffer is a null pointer. -/
  | null (inside : ValidFd fd) : WriteDone s fd nbytes none (plainReturn (-1) s)
  /-- The descriptor is closed. -/
  | closed {text : List Byte} (inside : ValidFd fd) (mapped : Mapped s.displayed.curPcb)
      (free : ((s.pcbs s.displayed.curPcb).fd fd.toNat).flags = 0) :
      WriteDone s fd nbytes (some text) (plainReturn (-1) s)
  /-- The driver of the descriptor's table answered. -/
  | driver {text : List Byte} {table : OpTable} (inside : ValidFd fd)
      (mapped : Mapped s.displayed.curPcb)
      (used : ((s.pcbs s.displayed.curPcb).fd fd.toNat).flags ≠ 0)
      (points : ((s.pcbs s.displayed.curPcb).fd fd.toNat).opTable = some table) :
      WriteDone s fd nbytes (some text)
        (plainReturn (writeOp s text nbytes table).1 (writeOp s text nbytes table).2)

theorem writeFile_cases {s : Kernel} {fd nbytes : Int} {buf : Option (List Byte)}
    {result : CallResult} (done : writeFile s fd buf nbytes = some result) :
    WriteDone s fd nbytes buf result := by
  simp only [writeFile] at done
  -- The block here is that of the displayed terminal, whichever process writes.
  split at done
  · rename_i outside
    cases done
    exact .range fun inside => inside outside
  · rename_i inside
    cases buf with
    | none =>
      cases done
      exact .null inside
    | some text =>
      simp only at done
      split at done
      · rename_i mapped
        split at done
        · rename_i free
          cases done
          exact .closed inside mapped free
        · rename_i used
          simp only [Option.bind_eq_bind, Option.bind_eq_some_iff, Option.some.injEq] at done
          obtain ⟨table, points, rfl⟩ := done
          exact .driver inside mapped used points
      · cases done

/-- The first closed descriptor among those `open` may hand out. -/
def firstClosed (pcb : Pcb) : Option Nat :=
  [2, 3, 4, 5, 6, 7].find? fun i => (pcb.fd i).flags = 0

/-- What a completed `open` did. -/
inductive OpenDone (img : Image) (s : Kernel) (filename : List Byte) : CallResult → Prop where
  /-- The name is empty. -/
  | empty (nameless : filename = []) : OpenDone img s filename (plainReturn (-1) s)
  /-- The name is in no directory entry. -/
  | missing (named : filename ≠ []) (absent : readDentryByName img (cstr filename) = none) :
      OpenDone img s filename (plainReturn (-1) s)
  /-- All descriptors are open. -/
  | full {d : Dentry} (named : filename ≠ []) (found : readDentryByName img (cstr filename) = some d)
      (mapped : Mapped s.scheduled.curPcb) (none : firstClosed s.curPcb = none) :
      OpenDone img s filename (plainReturn (-1) s)
  /-- A descriptor is handed out. -/
  | opened {d : Dentry} {i : Nat} (named : filename ≠ [])
      (found : readDentryByName img (cstr filename) = some d)
      (mapped : Mapped s.scheduled.curPcb) (first : firstClosed s.curPcb = some i) :
      OpenDone img s filename (plainReturn i (setDescriptor s i (openDescriptor d)))

theorem openFile_cases {img : Image} {s : Kernel} {filename : List Byte} {result : CallResult}
    (done : openFile img s filename = some result) : OpenDone img s filename result := by
  simp only [openFile] at done
  -- The name is looked up before a descriptor is searched for.
  split at done
  · rename_i nameless
    cases done
    exact .empty nameless
  · rename_i named
    split at done
    · rename_i absent
      cases done
      exact .missing named absent
    · rename_i d found
      split at done
      · rename_i mapped
        split at done
        · rename_i i first
          cases done
          exact .opened named found mapped first
        · rename_i none
          cases done
          exact .full named found mapped none
      · cases done

/-- What a completed `close` did. -/
inductive CloseDone (s : Kernel) (fd : Int) : CallResult → Prop where
  /-- The number is out of range. -/
  | range (outside : ¬ ValidFd fd) : CloseDone s fd (plainReturn (-1) s)
  /-- The descriptor is closed, or is the process's standard input or output. -/
  | refused (inside : ValidFd fd) (mapped : Mapped s.scheduled.curPcb)
      (kept : (s.curPcb.fd fd.toNat).flags = 0 ∨ fd = 0 ∨ fd = 1) :
      CloseDone s fd (plainReturn (-1) s)
  /-- The descriptor is closed by the driver of its table. -/
  | closed {table : OpTable} (inside : ValidFd fd) (mapped : Mapped s.scheduled.curPcb)
      (used : ¬ ((s.curPcb.fd fd.toNat).flags = 0 ∨ fd = 0 ∨ fd = 1))
      (points : (s.curPcb.fd fd.toNat).opTable = some table) :
      CloseDone s fd (plainReturn (closeOp table)
        (setDescriptor s fd.toNat fun descriptor => { descriptor with flags := 0 }))

/-- Changing one descriptor changes the process's own block in that descriptor only. -/
theorem setDescriptor_curPcb (s : Kernel) (i : Nat) (change : FileDescriptor → FileDescriptor) :
    (setDescriptor s i change).curPcb =
      { s.curPcb with fd := Function.update s.curPcb.fd i (change (s.curPcb.fd i)) } := by
  simp [setDescriptor, Kernel.curPcb, Kernel.scheduled, Kernel.setPcb]

theorem closeFile_cases {s : Kernel} {fd : Int} {result : CallResult}
    (done : closeFile s fd = some result) : CloseDone s fd result := by
  simp only [closeFile] at done
  split at done
  · rename_i outside
    cases done
    exact .range fun inside => inside outside
  · rename_i inside
    split at done
    · rename_i mapped
      split at done
      · rename_i kept
        cases done
        exact .refused inside mapped kept
      · rename_i used
        -- The flags are cleared before the driver is called, which keeps the table.
        simp only [Option.map_eq_some_iff, setDescriptor_curPcb, Function.update_self] at done
        obtain ⟨table, points, rfl⟩ := done
        exact .closed inside mapped used points
    · cases done

/-- What a completed `getargs` did. -/
inductive GetargsDone (s : Kernel) (buf : Nat) : CallResult → Prop where
  /-- The buffer is a null pointer. -/
  | null (zero : buf = 0) : GetargsDone s buf (plainReturn (-1) s)
  /-- The displayed terminal's process has no arguments. -/
  | empty (buffer : buf ≠ 0) (shown : Mapped s.displayed.curPcb) (last : Mapped s.currentPcb)
      (none : (s.pcbs s.displayed.curPcb).argSize = 0) : GetargsDone s buf (plainReturn (-1) s)
  /-- The arguments of the last process started or ended are copied. -/
  | copied (buffer : buf ≠ 0) (shown : Mapped s.displayed.curPcb) (last : Mapped s.currentPcb)
      (some : (s.pcbs s.displayed.curPcb).argSize ≠ 0) :
      GetargsDone s buf ⟨.returned 0, (s.pcbs s.currentPcb).pcbArg ++ [0], s⟩

theorem getargs_cases {s : Kernel} {buf : Nat} {result : CallResult}
    (done : getargs s buf = some result) : GetargsDone s buf result := by
  simp only [getargs] at done
  -- Both pointers have to be followed, and two processes are looked at.
  split at done
  · rename_i zero
    cases done
    exact .null zero
  · rename_i buffer
    split at done
    · rename_i both
      split at done
      · rename_i none
        cases done
        exact .empty buffer both.1 both.2 none
      · rename_i some
        cases done
        exact .copied buffer both.1 both.2 some
    · cases done

/-- What a completed `vidmap` did. -/
inductive VidmapDone (env : Env) (s : Kernel) (address : Nat) : CallResult → Prop where
  /-- The place is outside the user page. -/
  | refused (outside : ¬ InUserPage address) : VidmapDone env s address (plainReturn (-1) s)
  /-- The page of the displayed terminal is mapped, and its address stored. -/
  | mapped (inside : InUserPage address)
      (present : s.Present env.tableAddr address ∧ s.Present env.tableAddr (address + 3)) :
      VidmapDone env s address ⟨.returned vidAddr, wordBytes vidAddr,
        mapToVid s env.tableAddr (videoPtr s.currentId)⟩

theorem vidmap_cases {env : Env} {s : Kernel} {address : Nat} {result : CallResult}
    (done : vidmap env s address = some result) : VidmapDone env s address result := by
  simp only [vidmap] at done
  -- The test of the address comes before the store.
  split at done
  · rename_i outside
    cases done
    exact .refused fun inside => inside outside
  · rename_i inside
    split at done
    · rename_i present
      cases done
      exact .mapped inside present
    · cases done

/-- An accepted call of `vidmap` maps the page of the displayed terminal. -/
theorem vidmap_accepted {env : Env} {s : Kernel} {address : Nat} (accepted : InUserPage address)
    (present : s.Present env.tableAddr address ∧ s.Present env.tableAddr (address + 3)) :
    vidmap env s address = some ⟨.returned vidAddr, wordBytes vidAddr,
      mapToVid s env.tableAddr (videoPtr s.currentId)⟩ := by
  rw [vidmap, if_neg accepted, if_pos present]

/-- The calls that neither start nor end a process. -/
def Call.Plain : Call → Prop
  | .halt _ | .execute _ => False
  | _ => True

/-- A read whose descriptor leads to the driver with a table. -/
def Call.Reads (s : Kernel) (table : OpTable) : Call → Prop
  | .read fd _ _ => ValidFd fd ∧ Mapped s.scheduled.curPcb ∧
      (s.curPcb.fd fd.toNat).flags ≠ 0 ∧ (s.curPcb.fd fd.toNat).opTable = some table
  | _ => False

/-- A read leads to one driver only. -/
theorem Call.Reads.unique {s : Kernel} {left right : OpTable} {request : Call}
    (one : request.Reads s left) (other : request.Reads s right) : left = right := by
  cases request with
  | read fd buf nbytes =>
    obtain ⟨-, -, -, points⟩ := one
    obtain ⟨-, -, -, leads⟩ := other
    exact Option.some.inj (points.symm.trans leads)
  | halt | execute | write | «open» | close | getargs | vidmap => exact one.elim

/--
What a plain call does to the kernel.

Each case is one change that one call can make, and a read says which driver it was made by.
-/
inductive PlainStep (s : Kernel) : Call → Kernel → Prop where
  /-- The call is refused, or only answers. -/
  | kept {request : Call} (spares : ¬ request.Reads s .stdin) : PlainStep s request s
  /-- A terminal is read, and its line is taken. -/
  | line {request : Call} (reads : request.Reads s .stdin) (entered : s.displayed.readFlag = true)
      (shown : s.currTerminal = s.currentId) : PlainStep s request (takeLine s).kernel
  /-- A directory is read, and the place in the listing moves. -/
  | listing {request : Call} (reads : request.Reads s .dir) (loc : Nat) :
      PlainStep s request { s with dirReadLoc := loc }
  /-- A file is read, and the position of its descriptor moves. -/
  | position {fd nbytes : Int} {buf : Nat} (reads : (Call.read fd buf nbytes).Reads s .file)
      (position : Nat) : PlainStep s (.read fd buf nbytes) (setDescriptor s fd.toNat
        fun descriptor => { descriptor with filePosition := position })
  /-- The clock was waited for. -/
  | awaited {request : Call} (reads : request.Reads s .rtc) :
      PlainStep s request { s with rtcInterruptFlag := false }
  /-- The clock is set to another rate. -/
  | rate {fd nbytes : Int} {buf : Option (List Byte)} (rate : Nat) :
      PlainStep s (.write fd buf nbytes) { s with rtcRegisterA := rate }
  /-- A text is written to the terminal. -/
  | written {fd nbytes : Int} {text : List Byte} :
      PlainStep s (.write fd (some text) nbytes) (terminalWrite s text nbytes).2
  /-- A descriptor is handed out. -/
  | opened {filename : List Byte} (i : Nat) (d : Dentry) :
      PlainStep s (.open filename) (setDescriptor s i (openDescriptor d))
  /-- A descriptor is closed. -/
  | closed {fd : Int} : PlainStep s (.close fd)
      (setDescriptor s fd.toNat fun descriptor => { descriptor with flags := 0 })
  /-- The user's view of the screen is mapped. -/
  | view {address : Nat} (table page : Nat) : PlainStep s (.vidmap address) (mapToVid s table page)

/-- What a plain call does, in one case for every change a call can make. -/
theorem plain_cases {env : Env} {s : Kernel} {frame : CallFrame} {request : Call}
    {result : CallResult} (plain : request.Plain)
    (done : syscall env s frame request = some result) : PlainStep s request result.kernel := by
  -- The drivers are told apart once here, for every later proof about a plain call.
  cases request with
  | halt | execute => cases plain
  | read fd buf nbytes =>
    cases readFile_cases done with
    | range outside => exact .kept fun reads => outside reads.1
    | closed _ _ free => exact .kept fun reads => reads.2.2.1 free
    | @driver table read inside mapped used points answered =>
      have reads : (Call.read fd buf nbytes).Reads s table := ⟨inside, mapped, used, points⟩
      cases table with
      | rtc =>
        obtain rfl := Option.some.inj answered
        exact .awaited reads
      | dir =>
        obtain rfl := Option.some.inj answered
        change PlainStep s _ (dirRead env.image s).kernel
        unfold dirRead
        split
        · exact .listing reads _
        · exact .listing reads _
      | file =>
        obtain rfl := Option.some.inj answered
        change PlainStep s _ (fileRead env.image s fd.toNat nbytes).kernel
        unfold fileRead
        simp only
        split
        · exact .position reads 0
        · exact .position reads _
      | stdin =>
        simp only [readOp, terminalRead] at answered
        split at answered
        · -- The driver has answered, so its waiting loop is over.
          rename_i ready
          obtain rfl := Option.some.inj answered
          exact .line reads ready.1 ready.2
        · cases answered
      | stdout | noOp =>
        obtain rfl := Option.some.inj answered
        exact .kept fun terminal => OpTable.noConfusion (reads.unique terminal)
  | write fd buf nbytes =>
    cases writeFile_cases done with
    | range | null | closed => exact .kept id
    | @driver text table =>
      cases table with
      | rtc =>
        simp only [writeOp, rtcWrite, plainReturn]
        split
        · exact .kept id
        · exact .rate _
      | stdout => exact .written
      | dir | file | stdin | noOp => exact .kept id
  | «open» filename =>
    cases openFile_cases done with
    | empty | missing | full => exact .kept id
    | @opened d i => exact .opened i d
  | close fd =>
    cases closeFile_cases done with
    | range | refused => exact .kept id
    | closed => exact .closed
  | getargs buf nbytes =>
    cases getargs_cases done with
    | null | empty | copied => exact .kept id
  | vidmap screenStart =>
    cases vidmap_cases done with
    | refused => exact .kept id
    | mapped => exact .view _ _

/-- A plain call makes one change outside the processes, or none. -/
theorem PlainStep.quiet {s next : Kernel} {request : Call} (step : PlainStep s request next) :
    Quiet s next := by
  -- Reading and writing a terminal change what the user sees and types.
  cases step with
  | kept => exact Quiet.refl s
  | line => exact .screens (screenOnly_takeLine s)
  | listing => exact .listing _
  | position reads position =>
    exact .descriptor _ fun descriptor => { descriptor with filePosition := position }
  | awaited => exact .clock false s.rtcRegisterA
  | rate => exact .clock s.rtcInterruptFlag _
  | written => exact .screens (screenOnly_terminalWrite s _ _)
  | opened => exact .descriptor _ _
  | closed => exact .descriptor _ fun descriptor => { descriptor with flags := 0 }
  | view => exact .view _ _

/-- A plain call is quiet. -/
theorem plain_quiet {env : Env} {s : Kernel} {frame : CallFrame} {request : Call}
    {result : CallResult} (plain : request.Plain)
    (done : syscall env s frame request = some result) : Quiet s result.kernel :=
  (plain_cases plain done).quiet

/-- A plain call returns to its caller. -/
theorem plain_returned {env : Env} {s : Kernel} {frame : CallFrame} {request : Call}
    {result : CallResult} (plain : request.Plain)
    (done : syscall env s frame request = some result) :
    ∃ eax, result.outcome = .returned eax := by
  -- Each inversion lemma says what was returned.
  cases request with
  | halt | execute => cases plain
  | read fd buf nbytes => cases readFile_cases done <;> exact ⟨_, rfl⟩
  | write fd buf nbytes => cases writeFile_cases done <;> exact ⟨_, rfl⟩
  | «open» filename => cases openFile_cases done <;> exact ⟨_, rfl⟩
  | close fd => cases closeFile_cases done <;> exact ⟨_, rfl⟩
  | getargs buf nbytes => cases getargs_cases done <;> exact ⟨_, rfl⟩
  | vidmap screenStart => cases vidmap_cases done <;> exact ⟨_, rfl⟩

/-- A plain call never enters a program. -/
theorem plain_not_entered {env : Env} {s : Kernel} {frame : CallFrame} {request : Call}
    {result : CallResult} {entryPoint : Nat} (plain : request.Plain)
    (done : syscall env s frame request = some result) :
    result.outcome ≠ .entered entryPoint := by
  obtain ⟨eax, returned⟩ := plain_returned plain done
  rw [returned]
  exact Outcome.noConfusion

end SmallOs
