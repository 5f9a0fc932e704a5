import SmallOs.Proofs.Kernel.UserBuffers
import SmallOs.Proofs.Process.VideoView

/-! Where the calls store through the pointers of a program, up to the first page that is absent. -/

namespace SmallOs

open Foundation

/--
A call stores to an address.

Its bytes are stored one after the other from the pointer on, until one of them faults.
-/
def StoresTo (env : Env) (s : Kernel) (frame : CallFrame) (request : Call) (address : Nat) : Prop :=
  ∃ buf result, request.pointer = some buf ∧ syscall env s frame request = some result ∧
    ∃ i < result.stores.length, address = u32 (buf + i) ∧
      ∀ j ≤ i, s.Present env.tableAddr (u32 (buf + j))

/-- A call returns minus one and stores nothing, or stores inside its caller's page only. -/
def Confined (env : Env) (s : Kernel) (frame : CallFrame) (request : Call) : Prop :=
  (∃ result, syscall env s frame request = some result ∧ result.outcome = .returned (-1) ∧
      result.stores = []) ∨
    ∀ address, StoresTo env s frame request address → InUserPage address

/-- What a driver stores for a read, if it answers at all, fits a number of bytes. -/
def DriverStoresWithin (img : Image) (s : Kernel) (descriptor : FileDescriptor) (nbytes : Int)
    (room : Nat) : OpTable → Prop
  -- The line is copied up to its NUL, whatever the request is.
  | .stdin => ¬ (s.displayed.readFlag ∧ s.currTerminal = s.currentId) ∨
      ∃ i ≤ room, recordBytes s.displayed i = 0
  | .dir => img.numDentry ≤ s.dirReadLoc ∨ 33 ≤ room
  -- The request is cut to the length of the file.
  | .file => img.numInode < descriptor.inode ∨
      img.inodeLength descriptor.inode ≤ descriptor.filePosition ∨
      ofInt32 nbytes ≤ room ∨ img.inodeLength descriptor.inode ≤ room
  | .rtc | .stdout | .noOp => True

/-- What a call stores, if it gets that far, fits a number of bytes from its pointer on. -/
def StoresWithin (img : Image) (s : Kernel) (room : Nat) : Call → Prop
  | .read fd _ nbytes =>
    let descriptor := s.curPcb.fd fd.toNat
    ¬ ValidFd fd ∨ ¬ Mapped s.scheduled.curPcb ∨ descriptor.flags = 0 ∨
      ∀ table, descriptor.opTable = some table →
        DriverStoresWithin img s descriptor nbytes room table
  | .getargs buf _ =>
    buf = 0 ∨ ¬ (Mapped s.displayed.curPcb ∧ Mapped s.currentPcb) ∨
      (s.pcbs s.displayed.curPcb).argSize = 0 ∨ (s.pcbs s.currentPcb).pcbArg.length < room
  | .vidmap screenStart => ¬ InUserPage screenStart ∨ 4 ≤ room
  | .halt _ | .execute _ | .write _ _ _ | .open _ | .close _ => True

/-- The number of bytes from an address to the end of the user page. -/
def roomFrom (buf : Nat) : Nat :=
  0x08400000 - buf

/-- Some page from that of an address to the one behind the user page is absent. -/
def FaultsOnTheWay (env : Env) (s : Kernel) (buf : Nat) : Prop :=
  ∃ page, buf / 0x1000 ≤ page ∧ page ≤ 0x8400 ∧ s.translation env.tableAddr page = none

/--
What keeps the stores of a call in its caller's page.

Nothing is stored, or the first byte faults, or they begin in the user page, and end in it or fault
before they leave it.
-/
def KeepsToPage (env : Env) (s : Kernel) (request : Call) (buf : Nat) : Prop :=
  StoresWithin env.image s 0 request ∨ ¬ s.Present env.tableAddr buf ∨
    (InUserPage buf ∧ (StoresWithin env.image s (roomFrom buf) request ∨ FaultsOnTheWay env s buf))

section Stores

variable {env : Env} {s : Kernel} {frame : CallFrame} {request : Call}

/-- A record ends within its own index at the latest. -/
theorem recordBytes_end (term : InitTerminal) : recordBytes term (bufsize + 4) = 0 := by
  unfold recordBytes
  rw [if_neg (by omega)]
  exact List.getD_eq_default _ _ (by simp [wordBytes])

/-- A line fits a number of bytes exactly when its NUL comes no later. -/
theorem lineSize_le_iff (s : Kernel) (room : Nat) :
    lineSize s ≤ room ↔ ∃ i ≤ room, recordBytes s.displayed i = 0 := by
  have found : ∀ bound ≤ bufsize + 5, lineSize s < bound ↔
      ∃ i < bound, recordBytes s.displayed i = 0 := fun bound fits => strlen_lt_iff _ fits
  by_cases short : room + 1 ≤ bufsize + 5
  · rw [← Nat.lt_succ_iff, found (room + 1) short]
    simp only [Nat.lt_succ_iff]
  · -- Past the index of the record both sides hold.
    have ends : lineSize s < bufsize + 5 := (found _ (Nat.le_refl _)).mpr
      ⟨bufsize + 4, by omega, recordBytes_end _⟩
    exact iff_of_true (by omega) ⟨bufsize + 4, by omega, recordBytes_end _⟩

/-- A driver that answers stores no more than a number of bytes exactly when that many hold it. -/
theorem driverStoresWithin_iff {img : Image} {fd : Nat} {nbytes : Int} {table : OpTable}
    {read : DriverRead} (answered : readOp img s fd nbytes table = some read) (room : Nat) :
    read.bytes.length ≤ room ↔
      DriverStoresWithin img s (s.curPcb.fd fd) nbytes room table := by
  rw [readOp_stored answered]
  cases table with
  | rtc | stdout | noOp => exact iff_of_true (Nat.zero_le _) trivial
  | dir =>
    simp only [storedByDriver, DriverStoresWithin]
    split <;> omega
  | file =>
    simp only [storedByDriver, DriverStoresWithin]
    split <;> omega
  | stdin =>
    -- The driver has answered, so its waiting loop is over.
    have ready : s.displayed.readFlag ∧ s.currTerminal = s.currentId := by
      simp only [readOp, terminalRead] at answered
      split at answered
      · assumption
      · cases answered
    simp only [storedByDriver, DriverStoresWithin, lineSize_le_iff]
    exact ⟨.inr, fun fits => fits.resolve_left (not_not_intro ready)⟩

/-- A call that has a result stores no more than a number of bytes exactly when that many hold it. -/
theorem storesWithin_iff {result : CallResult} {buf : Nat} (pointer : request.pointer = some buf)
    (done : syscall env s frame request = some result) (room : Nat) :
    result.stores.length ≤ room ↔ StoresWithin env.image s room request := by
  cases request with
  | halt | execute | write | «open» | close => cases pointer
  | read fd buf nbytes =>
    simp only [StoresWithin]
    cases readFile_cases done with
    | range outside => exact iff_of_true (Nat.zero_le _) (.inl outside)
    | closed _ _ free => exact iff_of_true (Nat.zero_le _) (.inr (.inr (.inl free)))
    | driver inside mapped used points answered =>
      -- Only the driver of the descriptor's own table is asked.
      rw [driverStoresWithin_iff answered room]
      constructor
      · intro within
        refine .inr (.inr (.inr fun table there => ?_))
        rw [points, Option.some.injEq] at there
        exact there ▸ within
      · rintro (outside | away | free | within)
        · exact absurd inside outside
        · exact absurd mapped away
        · exact absurd free used
        · exact within _ points
  | getargs buf nbytes =>
    simp only [StoresWithin]
    cases getargs_cases done with
    | null zero => exact iff_of_true (Nat.zero_le _) (.inl zero)
    | empty _ _ _ none => exact iff_of_true (Nat.zero_le _) (.inr (.inr (.inl none)))
    | copied buffer shown last some =>
      -- The NUL behind the arguments is stored as well.
      have length : ((s.pcbs s.currentPcb).pcbArg ++ [0]).length =
          (s.pcbs s.currentPcb).pcbArg.length + 1 := by simp
      rw [show (CallResult.mk (.returned 0) ((s.pcbs s.currentPcb).pcbArg ++ [0]) s).stores =
        (s.pcbs s.currentPcb).pcbArg ++ [0] from rfl, length]
      constructor
      · exact fun within => .inr (.inr (.inr within))
      · rintro (zero | away | none | within)
        · exact absurd zero buffer
        · exact absurd ⟨shown, last⟩ away
        · exact absurd none some
        · exact within
  | vidmap screenStart =>
    simp only [StoresWithin]
    cases vidmap_cases done with
    | refused outside => exact iff_of_true (Nat.zero_le _) (.inl outside)
    | mapped inside =>
      exact ⟨.inr, fun within => within.resolve_left (not_not_intro inside)⟩

/-- A read without a result waits for its line, or follows a pointer that leads nowhere. -/
theorem readWithin_of_none {fd nbytes : Int} {buf : Nat}
    (none : readFile env.image s fd nbytes = none) (room : Nat) :
    StoresWithin env.image s room (.read fd buf nbytes) := by
  simp only [StoresWithin]
  unfold readFile at none
  split at none
  · rename_i outside
    exact .inl fun inside => inside outside
  split at none
  · rename_i inside mapped
    simp only at none
    split at none
    · rename_i free
      exact .inr (.inr (.inl free))
    · refine .inr (.inr (.inr fun table points => ?_))
      rw [points] at none
      -- Every driver but that of the keyboard answers at once.
      cases table with
      | stdin =>
        refine .inl fun ready => ?_
        simp [readOp, terminalRead, ready] at none
      | rtc | stdout | noOp => trivial
      | dir | file => simp [readOp] at none
  · rename_i away
    exact .inr (.inl away)

/-- A call without a result meets the condition: it waits, or it faults before its first byte. -/
theorem keepsToPage_of_none {buf : Nat} (pointer : request.pointer = some buf)
    (none : syscall env s frame request = none) : KeepsToPage env s request buf := by
  cases request with
  | halt | execute | write | «open» | close => cases pointer
  | read fd buf nbytes => exact .inl (readWithin_of_none none 0)
  | getargs buf nbytes =>
    refine .inl (.inr (.inl fun mapped => ?_))
    have answers : getargs s buf = Option.none := none
    unfold getargs at answers
    rw [if_pos mapped] at answers
    split at answers
    · cases answers
    · split at answers
      · cases answers
      · cases answers
  | vidmap screenStart =>
    obtain rfl := Option.some.inj pointer
    have faults : vidmap env s screenStart = Option.none := none
    unfold vidmap at faults
    split at faults
    · cases faults
    · rename_i inside
      split at faults
      · cases faults
      · rename_i absent
        by_cases first : s.Present env.tableAddr screenStart
        · -- The last of the four bytes lies in the absent page.
          have last : ¬ s.Present env.tableAddr (screenStart + 3) := fun there =>
            absent ⟨first, there⟩
          refine .inr (.inr ⟨inside, .inr ⟨(screenStart + 3) / 0x1000, by omega, by omega, ?_⟩⟩)
          simpa [Kernel.Present] using last
        · exact .inr (.inl first)

end Stores

section Confinement

variable {env : Env} {s : Kernel} {frame : CallFrame} {request : Call} {buf : Nat}

/-- Where a call that has a result stores. -/
theorem storesTo_iff {result : CallResult} (pointer : request.pointer = some buf)
    (done : syscall env s frame request = some result) (address : Nat) :
    StoresTo env s frame request address ↔ ∃ i < result.stores.length, address = u32 (buf + i) ∧
      ∀ j ≤ i, s.Present env.tableAddr (u32 (buf + j)) := by
  constructor
  · rintro ⟨place, result', points, done', stored⟩
    rw [pointer, Option.some.injEq] at points
    rw [done, Option.some.injEq] at done'
    subst points done'
    exact stored
  · exact fun stored => ⟨buf, result, pointer, done, stored⟩

/-- Before a call leaves the user page, every page from its pointer's to the one behind is passed. -/
theorem present_of_leaves {i : Nat}
    (present : ∀ j ≤ i, s.Present env.tableAddr (u32 (buf + j))) (leaves : 0x08400000 ≤ buf + i) :
    ¬ FaultsOnTheWay env s buf := by
  rintro ⟨page, first, last, absent⟩
  -- The pointer lies in its own page, and in every later one the first byte is passed.
  obtain ⟨j, passed, there⟩ : ∃ j ≤ i, (buf + j) / 0x1000 = page := by
    by_cases own : buf / 0x1000 = page
    · exact ⟨0, Nat.zero_le _, own⟩
    · exact ⟨page * 0x1000 - buf, by omega, by omega⟩
  have seen := present j passed
  rw [u32_of_lt (by omega), Kernel.Present, there, absent] at seen
  cases seen

/-- The view is mapped from the first page behind the user page on, so a store reaches behind it. -/
theorem sampleView_behind : ∃ result,
    syscall sampleEnv sampleViewed sampleFrame (.vidmap 0x83FFFFD) = some result ∧
      result.stores.length = 4 :=
  ⟨_, vidmap_accepted (by decide) (by decide +kernel), rfl⟩

end Confinement

end SmallOs
