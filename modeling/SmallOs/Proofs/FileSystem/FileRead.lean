import SmallOs.Proofs.FileSystem.ReadData

/-! Reading a file to its end through `file_read`, request by request. -/

namespace SmallOs

open Foundation

/--
Call `file_read` until it returns zero, and keep the bytes of every positive result.

The fuel bounds the number of calls.
-/
def readToEnd (img : Image) (fd : Nat) : Nat → (Nat → Int) → Kernel → Option (List Byte)
  | 0, _, _ => none
  | fuel + 1, requests, s =>
    let read := fileRead img s fd (requests 0)
    if read.ret = 0 then some []
    else (readToEnd img fd fuel (fun i => requests (i + 1)) read.kernel).map fun rest =>
      -- Only the reported part of the buffer belongs to the file.
      read.bytes.take read.ret.toNat ++ rest

/-- A descriptor of the running process stands at a position of a file. -/
structure StandsAt (s : Kernel) (fd inode position : Nat) : Prop where
  inode : (s.curPcb.fd fd).inode = inode
  position : (s.curPcb.fd fd).filePosition = position

/-- The bytes that the first requests ask for, when none may ask for more than the whole file. -/
def served (requests : Nat → Int) (size count : Nat) : Nat :=
  ((List.range count).map fun i => min (requests i).toNat size).sum

theorem served_succ (requests : Nat → Int) (size count : Nat) :
    served requests size (count + 1) =
      min (requests 0).toNat size + served (fun i => requests (i + 1)) size count := by
  simp [served, List.range_succ_eq_map, Function.comp_def]

/-- Moving a descriptor changes its position only. -/
theorem setFilePosition_standsAt {s : Kernel} {fd inode position : Nat}
    (stands : StandsAt s fd inode position) (target : Nat) :
    StandsAt (setFilePosition s fd target) fd inode target := by
  constructor
  · -- The inode and the position are different fields of the descriptor.
    simpa [setFilePosition, Kernel.curPcb, Kernel.scheduled, Kernel.setPcb] using stands.inode
  · simp [setFilePosition, Kernel.curPcb, Kernel.scheduled, Kernel.setPcb]

section FileRead

variable {img : Image} {s : Kernel} {fd inode position : Nat} {nbytes : Int}

/-- At the end of the file nothing is read, and the descriptor stays where it is. -/
theorem fileRead_end (known : inode ≤ img.numInode) (size : img.inodeLength inode < 2 ^ 31)
    (stands : StandsAt s fd inode (img.inodeLength inode)) :
    (fileRead img s fd nbytes).ret = 0 := by
  have none : (readData img inode (img.inodeLength inode) (ofInt32 nbytes)).ret = 0 :=
    congrArg ReadData.ret (readData_ended _ known (Nat.le_refl _))
  -- A read of nothing adds nothing to the position.
  have stay : u32 (img.inodeLength inode + 0) = img.inodeLength inode := u32_of_lt (by omega)
  simp only [fileRead, stands.inode, stands.position, none, stay, fileSize]
  rw [if_neg (by omega)]
  rfl

/-- A request that passes the end of the file is reported as nothing. -/
theorem fileRead_past (known : inode ≤ img.numInode) (size : img.inodeLength inode < 2 ^ 31)
    (stands : StandsAt s fd inode position) (inside : position < img.inodeLength inode)
    (positive : 0 < nbytes) (fits : nbytes < 2 ^ 31)
    (past : img.inodeLength inode < position + min nbytes.toNat (img.inodeLength inode)) :
    (fileRead img s fd nbytes).ret = 0 := by
  have request := ofInt32_eq_toNat (le_of_lt positive) (show nbytes < 2 ^ 32 by omega)
  obtain ⟨ret, -, -⟩ := readData_eq nbytes.toNat known inside
  have moved : u32 (position + min nbytes.toNat (img.inodeLength inode)) =
      position + min nbytes.toNat (img.inodeLength inode) := u32_of_lt (by omega)
  simp only [fileRead, stands.inode, stands.position, request, ret, moved, fileSize]
  -- The new position is past the end, so it is reset, and zero is returned.
  rw [if_pos past]

/-- A request that stays within the file is served, and moves the descriptor. -/
theorem fileRead_within (known : inode ≤ img.numInode) (size : img.inodeLength inode < 2 ^ 31)
    (stands : StandsAt s fd inode position) (inside : position < img.inodeLength inode)
    (positive : 0 < nbytes) (fits : nbytes < 2 ^ 31)
    (within : position + min nbytes.toNat (img.inodeLength inode) ≤ img.inodeLength inode) :
    (fileRead img s fd nbytes).ret = (min nbytes.toNat (img.inodeLength inode) : Nat) ∧
      (fileRead img s fd nbytes).bytes =
        img.fileBytes inode position (min nbytes.toNat (img.inodeLength inode)) ∧
      StandsAt (fileRead img s fd nbytes).kernel fd inode
        (position + min nbytes.toNat (img.inodeLength inode)) := by
  have request := ofInt32_eq_toNat (le_of_lt positive) (show nbytes < 2 ^ 32 by omega)
  obtain ⟨ret, bytes, -⟩ := readData_eq nbytes.toNat known inside
  have moved : u32 (position + min nbytes.toNat (img.inodeLength inode)) =
      position + min nbytes.toNat (img.inodeLength inode) := u32_of_lt (by omega)
  simp only [fileRead, stands.inode, stands.position, request, ret, bytes, moved, fileSize]
  -- The new position is not past the end, so the count is returned.
  rw [if_neg (by omega)]
  exact ⟨toInt32_of_lt (by omega), rfl, setFilePosition_standsAt stands _⟩

end FileRead

section Drain

variable {img : Image} {fd inode : Nat}

/-- Requests that come out even read the rest of the file. -/
theorem readToEnd_of_served {requests : Nat → Int} {s : Kernel} {position count : Nat}
    (known : inode ≤ img.numInode) (size : img.inodeLength inode < 2 ^ 31)
    (stands : StandsAt s fd inode position) (positive : ∀ i, 0 < requests i)
    (fits : ∀ i, requests i < 2 ^ 31)
    (even : position + served requests (img.inodeLength inode) count = img.inodeLength inode) :
    readToEnd img fd (count + 1) requests s =
      some (img.fileBytes inode position (img.inodeLength inode - position)) := by
  -- The induction is on the number of requests it takes to reach the end.
  induction count generalizing requests s position with
  | zero =>
    have ended : position = img.inodeLength inode := by simpa [served] using even
    subst ended
    simp [readToEnd, fileRead_end known size stands, Image.fileBytes]
  | succ count ih =>
    rw [served_succ] at even
    rcases Nat.eq_or_lt_of_le (show position ≤ img.inodeLength inode by omega) with ended | inside
    · subst ended
      simp [readToEnd, fileRead_end known size stands, Image.fileBytes]
    · have first := positive 0
      obtain ⟨ret, bytes, next⟩ := fileRead_within known size stands inside first (fits 0)
        (by omega)
      have rest := ih next (fun i => positive (i + 1)) (fun i => fits (i + 1)) (by omega)
      have some' : (fileRead img s fd (requests 0)).ret ≠ 0 := by omega
      rw [readToEnd]
      rw [if_neg some', rest, ret, bytes, Int.toNat_natCast, Option.map_some,
        List.take_of_length_le (by simp)]
      have split : img.inodeLength inode - position =
          min (requests 0).toNat (img.inodeLength inode) + (img.inodeLength inode -
            (position + min (requests 0).toNat (img.inodeLength inode))) := by omega
      rw [split, img.fileBytes_append]

/-- Whoever read the whole rest of the file made requests that come out even. -/
theorem served_of_readToEnd {requests : Nat → Int} {s : Kernel} {position fuel : Nat}
    {read : List Byte} (known : inode ≤ img.numInode) (size : img.inodeLength inode < 2 ^ 31)
    (stands : StandsAt s fd inode position) (before : position ≤ img.inodeLength inode)
    (positive : ∀ i, 0 < requests i) (fits : ∀ i, requests i < 2 ^ 31)
    (ended : readToEnd img fd fuel requests s = some read)
    (whole : read.length = img.inodeLength inode - position) :
    ∃ count, position + served requests (img.inodeLength inode) count =
      img.inodeLength inode := by
  -- A call that passes the end reports nothing, so what was kept falls short.
  induction fuel generalizing requests s position read with
  | zero => simp [readToEnd] at ended
  | succ fuel ih =>
    rcases Nat.eq_or_lt_of_le before with same | inside
    · exact ⟨0, by simpa [served] using same⟩
    · rw [readToEnd] at ended
      by_cases past : img.inodeLength inode <
          position + min (requests 0).toNat (img.inodeLength inode)
      · have nothing := fileRead_past known size stands inside (positive 0) (fits 0) past
        simp only [nothing, ↓reduceIte, Option.some.injEq] at ended
        subst ended
        simp only [List.length_nil] at whole
        omega
      · have first := positive 0
        obtain ⟨ret, bytes, next⟩ := fileRead_within known size stands inside first (fits 0)
          (by omega)
        have some' : (fileRead img s fd (requests 0)).ret ≠ 0 := by omega
        simp only [some', ↓reduceIte, Option.map_eq_some_iff] at ended
        obtain ⟨rest, later, rfl⟩ := ended
        simp only [ret, bytes, Int.toNat_natCast, List.length_append, List.length_take,
          Image.fileBytes_length, Nat.min_self] at whole
        obtain ⟨count, even⟩ := ih next (by omega) (fun i => positive (i + 1))
          (fun i => fits (i + 1)) later (by omega)
        exact ⟨count + 1, by rw [served_succ]; omega⟩

/-- A file is read whole exactly when some of the first requests come out even with its size. -/
theorem readToEnd_whole_iff {requests : Nat → Int} {s : Kernel} (wellFormed : img.WellFormed)
    (known : inode < img.numInode) (opened : StandsAt s fd inode 0)
    (positive : ∀ i, 0 < requests i) (fits : ∀ i, requests i < 2 ^ 31) :
    (∃ fuel, readToEnd img fd fuel requests s =
        some (img.fileBytes inode 0 (img.inodeLength inode))) ↔
      ∃ count, served requests (img.inodeLength inode) count = img.inodeLength inode := by
  -- The size fits a signed word, so no count is taken for an error.
  have size : img.inodeLength inode < 2 ^ 31 := by
    have bound := wellFormed.lengths inode known
    simp only [blockSize] at bound
    omega
  constructor
  · rintro ⟨fuel, read⟩
    obtain ⟨count, even⟩ := served_of_readToEnd (Nat.le_of_lt known) size opened (Nat.zero_le _)
      positive fits read (by simp)
    exact ⟨count, by omega⟩
  · rintro ⟨count, even⟩
    exact ⟨count + 1, readToEnd_of_served (Nat.le_of_lt known) size opened positive fits
      (by omega)⟩

end Drain

/-- The name of the sample's file of five bytes. -/
def sampleFile : List Byte :=
  ascii ['a']

/-- The sample after its shell opened the file, with the descriptor it was given. -/
def sampleOpened : Kernel :=
  setDescriptor (startProcess sampleEnv (initialKernel sampleEnv) bootFrame sampleShell [] 0) 2
    (openDescriptor ⟨sampleFile ++ List.replicate 31 0, 2, 1⟩)

/-- Opening the file leads there, so the state is reachable. -/
theorem sampleOpened_reachable : Reachable sampleEnv sampleOpened := by
  have opened : openFile sampleImage
      (startProcess sampleEnv (initialKernel sampleEnv) bootFrame sampleShell [] 0) sampleFile =
      some (plainReturn 2 sampleOpened) := by
    have found : readDentryByName sampleImage (cstr sampleFile) =
        some ⟨sampleFile ++ List.replicate 31 0, 2, 1⟩ := by decide +kernel
    have mapped : Mapped (startProcess sampleEnv (initialKernel sampleEnv) bootFrame sampleShell
        [] 0).scheduled.curPcb := by decide +kernel
    rw [openFile, if_neg (by decide), found]
    simp only [mapped, ↓reduceIte]
    rfl
  have taken : step sampleEnv (startProcess sampleEnv (initialKernel sampleEnv) bootFrame
      sampleShell [] 0) (.call bootFrame (.open sampleFile)) = some sampleOpened :=
    congrArg (Option.map CallResult.kernel) opened
  exact sample_reachable.step taken

/-- The descriptor stands at the beginning of the file. -/
theorem sampleOpened_standsAt : StandsAt sampleOpened 2 1 0 :=
  ⟨by decide +kernel, by decide +kernel⟩

/-- One request for all five bytes reads the whole file. -/
theorem readToEnd_whole_iff_sample :
    ∃ fuel, readToEnd sampleImage 2 fuel (fun _ => 5) sampleOpened =
      some (sampleImage.fileBytes 1 0 (sampleImage.inodeLength 1)) :=
  (readToEnd_whole_iff sampleImage_wellFormed (by decide +kernel) sampleOpened_standsAt
    (fun _ => by decide) (fun _ => by decide)).mpr ⟨1, by decide +kernel⟩

/-- Requests of three bytes never read the whole file of five: the last two bytes are lost. -/
theorem readToEnd_loses_tail : sampleImage.WellFormed ∧ Reachable sampleEnv sampleOpened ∧
    StandsAt sampleOpened 2 1 0 ∧
    ¬ ∃ fuel, readToEnd sampleImage 2 fuel (fun _ => 3) sampleOpened =
      some (sampleImage.fileBytes 1 0 (sampleImage.inodeLength 1)) := by
  refine ⟨sampleImage_wellFormed, sampleOpened_reachable, sampleOpened_standsAt, ?_⟩
  rintro ⟨fuel, read⟩
  have five : sampleImage.inodeLength 1 = 5 := by decide +kernel
  obtain ⟨count, even⟩ := served_of_readToEnd (by decide +kernel) (by rw [five]; decide)
    sampleOpened_standsAt (Nat.zero_le _) (fun _ => by decide) (fun _ => by decide) read (by simp)
  -- Multiples of three never add up to five.
  have multiple : served (fun _ => 3) 5 count = 3 * count := by
    simp [served, Nat.mul_comm]
  rw [five, multiple] at even
  omega

/-- A read is refused: it returns `-1`, stores nothing, and leaves its descriptor where it was. -/
def ReadRefused (img : Image) (s : Kernel) (fd : Nat) (nbytes : Int) : Prop :=
  (fileRead img s fd nbytes).ret = -1 ∧ (fileRead img s fd nbytes).bytes = [] ∧
    ((fileRead img s fd nbytes).kernel.curPcb.fd fd).filePosition =
      (s.curPcb.fd fd).filePosition

instance (img : Image) (s : Kernel) (fd : Nat) (nbytes : Int) :
    Decidable (ReadRefused img s fd nbytes) :=
  inferInstanceAs (Decidable (_ ∧ _ ∧ _))

section BadInode

variable {img : Image} {s : Kernel} {fd : Nat} {nbytes : Int}

/-- Past the count of inodes the error is added to the position before it is returned. -/
theorem fileRead_beyond (beyond : img.numInode < (s.curPcb.fd fd).inode) :
    ¬ ReadRefused img s fd nbytes := by
  have failed := readData_unknown (s.curPcb.fd fd).filePosition (ofInt32 nbytes) beyond
  have stands : StandsAt s fd (s.curPcb.fd fd).inode (s.curPcb.fd fd).filePosition := ⟨rfl, rfl⟩
  intro refused
  unfold ReadRefused fileRead at refused
  simp only [failed] at refused
  split at refused
  · -- The reset reports zero, which is no error.
    have ret : (0 : Int) = -1 := refused.1
    omega
  · -- Adding all ones takes one away, which is never where the descriptor was.
    have moved := (setFilePosition_standsAt stands
      (u32 ((s.curPcb.fd fd).filePosition + (2 ^ 32 - 1)))).position
    have same := moved.symm.trans refused.2.2
    unfold u32 at same
    omega

/-- The count of inodes itself passes the test, and whatever stands there is read as a file. -/
theorem fileRead_first_unused (unused : img.numInode = (s.curPcb.fd fd).inode) (nonneg : 0 ≤ nbytes)
    (fits : nbytes < 2 ^ 31) : ¬ ReadRefused img s fd nbytes := by
  have request := ofInt32_eq_toNat nonneg (show nbytes < 2 ^ 32 by omega)
  -- No more is reported than was asked for, which is no error.
  have small : (readData img (s.curPcb.fd fd).inode (s.curPcb.fd fd).filePosition
      (ofInt32 nbytes)).ret < 2 ^ 31 := by
    by_cases inside : (s.curPcb.fd fd).filePosition < img.inodeLength (s.curPcb.fd fd).inode
    · rw [(readData_eq _ (Nat.le_of_eq unused.symm) inside).1, request]
      omega
    · rw [readData_ended _ (Nat.le_of_eq unused.symm) (Nat.le_of_not_lt inside)]
      decide
  intro refused
  have ret := refused.1
  unfold fileRead at ret
  simp only at ret
  split at ret
  · have zero : (0 : Int) = -1 := ret
    omega
  · have count : toInt32 _ = -1 := ret
    rw [toInt32_of_lt small] at count
    omega

end BadInode

/-- No read of a descriptor whose inode the image does not have is refused as it should be. -/
theorem fileRead_never_refused {img : Image} {s : Kernel} {fd : Nat} {nbytes : Int}
    (bad : img.numInode ≤ (s.curPcb.fd fd).inode) (nonneg : 0 ≤ nbytes) (fits : nbytes < 2 ^ 31) :
    ¬ ReadRefused img s fd nbytes := by
  -- The test admits the count itself, and beyond it the error is lost.
  rcases Nat.eq_or_lt_of_le bad with unused | beyond
  · exact fileRead_first_unused unused nonneg fits
  · exact fileRead_beyond beyond

/-- The sample with a file whose entry names the first inode the image does not have. -/
def sampleBadInode : Image :=
  { sampleImage with mem := Function.update sampleImage.mem (0x100000 + 228) 2 }

/-- The sample's shell after it opened that file. -/
def sampleBadOpened : Kernel :=
  setDescriptor sampleBooted 2 (openDescriptor ⟨sampleFile ++ List.replicate 31 0, 2, 2⟩)

/-- A read of that file. -/
theorem fileRead_never_refused_sample : ¬ ReadRefused sampleBadInode sampleBadOpened 2 4 :=
  fileRead_never_refused (by decide +kernel) (by decide) (by decide)

/-- The read of an inode the image does not have returns four bytes of the block behind the inodes. -/
theorem bad_inode_is_read : sampleBadInode.numInode = 2 ∧
    readDentryByName sampleBadInode (cstr sampleFile) =
      some ⟨sampleFile ++ List.replicate 31 0, 2, 2⟩ ∧
    (fileRead sampleBadInode sampleBadOpened 2 4).ret = 4 ∧
    ¬ ReadRefused sampleBadInode sampleBadOpened 2 4 := by
  -- Two inodes are numbered zero and one, and the test admits two.
  have four : (fileRead sampleBadInode sampleBadOpened 2 4).ret = 4 := by decide +kernel
  refine ⟨by decide +kernel, by decide +kernel, four, fun refused => ?_⟩
  rw [refused.1] at four
  exact absurd four (by decide)

end SmallOs
