import SmallOs.Proofs.FileSystem.Directory
import SmallOs.Proofs.FileSystem.ReadData

/-! How many bytes the read drivers store, against the size of the buffer they are given. -/

namespace SmallOs

open Foundation

/-- How many bytes a read driver stores, from the state before it and the request. -/
def storedByDriver (img : Image) (s : Kernel) (descriptor : FileDescriptor) (nbytes : Int) :
    OpTable → Nat
  -- A line is stored whole, and so is the space of a directory entry's name.
  | .stdin => lineSize s
  | .dir => if s.dirReadLoc < img.numDentry then 33 else 0
  | .file =>
    if descriptor.inode ≤ img.numInode ∧
        descriptor.filePosition < img.inodeLength descriptor.inode then
      min (ofInt32 nbytes) (img.inodeLength descriptor.inode)
    else 0
  | .rtc | .stdout | .noOp => 0

/-- What `read_data` returns and stores, for every inode and every offset. -/
theorem readData_length (img : Image) (inode offset length : Nat) :
    (readData img inode offset length).bytes.length =
        (if inode ≤ img.numInode ∧ offset < img.inodeLength inode then
          min length (img.inodeLength inode) else 0) ∧
      ((readData img inode offset length).ret = 2 ^ 32 - 1 ∧ img.numInode < inode ∨
        (readData img inode offset length).ret ≤ length) := by
  -- The two refusals come first, and after them the count is the clamped request.
  by_cases known : inode ≤ img.numInode
  · by_cases inside : offset < img.inodeLength inode
    · obtain ⟨ret, bytes, -⟩ := readData_eq length known inside
      rw [if_pos ⟨known, inside⟩, ret, bytes, Image.fileBytes_length]
      exact ⟨rfl, .inr (by omega)⟩
    · rw [readData_ended length known (Nat.le_of_not_lt inside), if_neg fun both => inside both.2]
      exact ⟨rfl, .inr (Nat.zero_le _)⟩
  · rw [readData_unknown offset length (Nat.lt_of_not_le known), if_neg fun both => known both.1]
    exact ⟨rfl, .inl ⟨rfl, by omega⟩⟩

/-- A read driver stores as many bytes as it is said to. -/
theorem readOp_stored {img : Image} {s : Kernel} {fd : Nat} {nbytes : Int} {table : OpTable}
    {read : DriverRead} (answered : readOp img s fd nbytes table = some read) :
    read.bytes.length = storedByDriver img s (s.curPcb.fd fd) nbytes table := by
  cases table with
  | rtc | stdout | noOp =>
    obtain rfl := Option.some.inj answered
    rfl
  | dir =>
    obtain rfl := Option.some.inj answered
    change (dirRead img s).bytes.length = if s.dirReadLoc < img.numDentry then 33 else 0
    unfold dirRead readDentryByIndex
    by_cases past : img.numDentry ≤ s.dirReadLoc
    · rw [if_pos past, if_neg (by omega)]
      rfl
    · rw [if_neg past, if_pos (by omega)]
      -- The name and its NUL never fill more than the thirty-three bytes that were cleared.
      have short := strlen_le (dentryBytes ⟨strncpy (img.entryName s.dirReadLoc) 32,
        img.entryType s.dirReadLoc, img.entryInode s.dirReadLoc⟩) 32
      simp only [List.length_append, strncpy_length, List.length_replicate]
      omega
  | file =>
    obtain rfl := Option.some.inj answered
    have stored := (readData_length img (s.curPcb.fd fd).inode (s.curPcb.fd fd).filePosition
      (ofInt32 nbytes)).1
    change (fileRead img s fd nbytes).bytes.length = _
    unfold fileRead
    simp only
    -- Whether the position is reset or not, the same bytes were stored.
    split
    · exact stored
    · exact stored
  | stdin =>
    simp only [readOp, terminalRead] at answered
    split at answered
    · obtain rfl := Option.some.inj answered
      simp [takeLine, storedByDriver]
    · cases answered

/-- What the contract of `read` promises for a buffer of some size. -/
def ReadContract (nbytes : Int) (result : CallResult) : Prop :=
  (∃ eax, result.outcome = .returned eax ∧ (eax = -1 ∨ 0 ≤ eax ∧ eax ≤ nbytes)) ∧
    (result.stores.length : Int) ≤ nbytes

/-- What a driver that looks at no size needs: the line, or the space of a name, fits the buffer. -/
def DriverFits (img : Image) (s : Kernel) (nbytes : Int) : OpTable → Prop
  | .stdin => (lineSize s : Int) ≤ nbytes
  | .dir => s.dirReadLoc < img.numDentry → 33 ≤ nbytes
  | .file | .rtc | .stdout | .noOp => True

/-- A file's read returns what fits the request. -/
theorem fileRead_ret {img : Image} {s : Kernel} {fd : Nat} {nbytes : Int} (nonneg : 0 ≤ nbytes)
    (fits : nbytes < 2 ^ 31) : (fileRead img s fd nbytes).ret = -1 ∨
      0 ≤ (fileRead img s fd nbytes).ret ∧ (fileRead img s fd nbytes).ret ≤ nbytes := by
  -- The count is passed as an unsigned word, which is the request itself here.
  have request := ofInt32_of_nonneg nonneg (by omega)
  unfold fileRead
  simp only
  split
  · exact .inr ⟨Int.le_refl 0, nonneg⟩
  · simp only
    rcases (readData_length img (s.curPcb.fd fd).inode (s.curPcb.fd fd).filePosition
      (ofInt32 nbytes)).2 with ⟨refused, -⟩ | small
    · -- The unsigned count of a refused read is the word that holds minus one.
      rw [refused]
      exact .inl (by decide)
    · rw [toInt32_of_lt (by omega)]
      exact .inr ⟨by omega, by omega⟩

/-- A directory's read returns the length of a name. -/
theorem dirRead_ret (img : Image) (s : Kernel) :
    0 ≤ (dirRead img s).ret ∧
      (dirRead img s).ret ≤ if s.dirReadLoc < img.numDentry then 32 else 0 := by
  unfold dirRead readDentryByIndex
  -- At the end of the listing nothing is returned, and before it the length of a name.
  by_cases past : img.numDentry ≤ s.dirReadLoc
  · rw [if_pos past, if_neg (by omega)]
    exact ⟨Int.le_refl 0, Int.le_refl 0⟩
  · rw [if_neg past, if_pos (by omega)]
    have short := strlen_le (dentryBytes ⟨strncpy (img.entryName s.dirReadLoc) 32,
      img.entryType s.dirReadLoc, img.entryInode s.dirReadLoc⟩) 32
    simp only
    omega

/--
A read keeps to its buffer exactly when its driver looks at the size, or what it stores fits anyway.
-/
theorem read_contract_iff {env : Env} {s : Kernel} {frame : CallFrame} {fd nbytes : Int} {buf : Nat}
    {table : OpTable} {result : CallResult} (inside : ValidFd fd)
    (used : (s.curPcb.fd fd.toNat).flags ≠ 0)
    (points : (s.curPcb.fd fd.toNat).opTable = some table) (nonneg : 0 ≤ nbytes)
    (fits : nbytes < 2 ^ 31) (done : syscall env s frame (.read fd buf nbytes) = some result) :
    ReadContract nbytes result ↔ DriverFits env.image s nbytes table := by
  cases readFile_cases done with
  | range outside => exact absurd inside outside
  | closed _ _ free => exact absurd free used
  | driver _ _ _ there answered =>
    rw [points, Option.some.injEq] at there
    subst there
    have stored := readOp_stored answered
    unfold ReadContract DriverFits
    simp only [Outcome.returned.injEq, exists_eq_left', stored]
    cases table with
    -- These drivers store nothing, and return zero.
    | rtc | stdout | noOp =>
      obtain rfl := Option.some.inj answered
      simp [storedByDriver, rtcRead, nonneg]
    | file =>
      obtain rfl := Option.some.inj answered
      have request := ofInt32_of_nonneg nonneg (by omega)
      refine ⟨fun _ => trivial, fun _ => ⟨fileRead_ret nonneg fits, ?_⟩⟩
      -- What is stored is cut to the request.
      simp only [storedByDriver]
      split <;> omega
    | dir =>
      obtain rfl := Option.some.inj answered
      have length := dirRead_ret env.image s
      -- Before the end a whole entry is stored, and at the end nothing is.
      simp only [storedByDriver]
      split at length <;> rename_i place
      · simp only [place, if_true]
        refine ⟨fun kept _ => by omega, fun large => ?_⟩
        have space := large trivial
        exact ⟨.inr (by omega), by omega⟩
      · simp only [place, if_false]
        exact ⟨fun _ none => none.elim, fun _ => ⟨.inr (by omega), by omega⟩⟩
    | stdin =>
      simp only [readOp, terminalRead] at answered
      split at answered
      · obtain rfl := Option.some.inj answered
        simp only [storedByDriver, takeLine]
        omega
      · cases answered

/-- The sample's directory is read into a buffer with space for a whole name. -/
theorem read_contract_iff_sample : ∃ result,
    syscall sampleEnv sampleOnce sampleFrame (.read 2 0x8000000 33) = some result ∧
      (ReadContract 33 result ↔ DriverFits sampleEnv.image sampleOnce 33 .dir) := by
  have directory : ReadsDirectory sampleOnce 2 := by decide +kernel
  have done : syscall sampleEnv sampleOnce sampleFrame (.read 2 0x8000000 33) = _ :=
    readFile_directory sampleEnv.image 33 (by decide +kernel) directory
  obtain ⟨inside, used, points⟩ := directory
  exact ⟨_, done, read_contract_iff inside used points (by decide) (by decide) done⟩

/-- Opening a directory is a step of the sample's machine. -/
theorem sampleOnce_reachable : Reachable sampleEnv sampleOnce := by
  have opened := sampleDirectory_observed sampleBooted Listings.initial 2
    (by decide +kernel) (by decide +kernel)
  have run := (Run.snoc (.nil _) trivial opened : Run _ Always _ _ _).unobserved
  exact ⟨_, _, sample_boot, run⟩

/-- A name of one letter is stored over thirty-three bytes, whatever the size of the buffer is. -/
theorem directory_overruns_buffer : Reachable sampleEnv sampleOnce ∧ ReadsDirectory sampleOnce 2 ∧
    ∃ result, syscall sampleEnv sampleOnce sampleFrame (.read 2 0x8000000 1) = some result ∧
      result.outcome = .returned 1 ∧ result.stores.length = 33 ∧ ¬ ReadContract 1 result := by
  have directory : ReadsDirectory sampleOnce 2 := by decide +kernel
  have done := readFile_directory sampleEnv.image 1 (by decide +kernel) directory
  -- The driver clears thirty-three bytes before it copies the name.
  have stored : (dirRead sampleEnv.image sampleOnce).bytes.length = 33 := by decide +kernel
  have length : (dirRead sampleEnv.image sampleOnce).ret = 1 := by decide +kernel
  refine ⟨sampleOnce_reachable, directory, _, done, congrArg _ length, stored, ?_⟩
  rintro ⟨-, kept⟩
  rw [stored] at kept
  exact absurd kept (by decide)

end SmallOs
