import Mathlib.Tactic.IntervalCases
import SmallOs.Proofs.Process.Boot

/-! One closed form for `read_data`: what it returns, what it copies, and which block entries it uses. -/

namespace SmallOs

open Foundation

namespace Image

variable (img : Image)

/-- Byte `i` of a file: the inode's block list names its block, and the rest is its place there. -/
def fileByte (inode i : Nat) : Byte :=
  img.mem (img.blockAddr (img.blockEntry inode (i / blockSize)) (i % blockSize))

/-- A range of the bytes of a file. -/
def fileBytes (inode offset count : Nat) : List Byte :=
  (List.range count).map fun k => img.fileByte inode (offset + k)

/-- An image whose counts, block numbers, and file lengths fit together. -/
structure WellFormed : Prop where
  /-- The directory has no more entries than its block has room for. -/
  entries : img.numDentry ≤ 63
  /-- The whole image lies in memory. -/
  fits : img.dentryAddr + blockSize * (img.numInode + 1 + img.dataBlock) ≤ 2 ^ 32
  /-- An inode's block has room for the length and the numbers of 1023 blocks. -/
  lengths : ∀ inode < img.numInode, img.inodeLength inode ≤ 1023 * blockSize
  /-- Every block a file uses is in the image. -/
  blocks : ∀ inode < img.numInode, ∀ number, blockSize * number < img.inodeLength inode →
    img.blockEntry inode number < img.dataBlock
  /-- Every entry of a regular file names an inode. -/
  inodes : ∀ i < img.numDentry, img.entryType i = 2 → img.entryInode i < img.numInode

@[simp] theorem fileBytes_length (inode offset count : Nat) :
    (img.fileBytes inode offset count).length = count := by
  simp [fileBytes]

/-- Reading byte `k` of a range. -/
theorem fileBytes_getD {inode offset count k : Nat} (inside : k < count) (default : Byte) :
    (img.fileBytes inode offset count).getD k default = img.fileByte inode (offset + k) := by
  simp [fileBytes, List.getD_eq_getElem?_getD, inside]

/-- Consecutive ranges join into one. -/
theorem fileBytes_append (inode offset first second : Nat) :
    img.fileBytes inode offset (first + second) =
      img.fileBytes inode offset first ++ img.fileBytes inode (offset + first) second := by
  -- The second range starts where the first one ends.
  simp only [fileBytes, List.range_add, List.map_append, List.map_map]
  congr 1
  refine List.map_congr_left fun k _ => ?_
  simp only [Function.comp_apply, Nat.add_assoc]

/-- A copy within one block of a file takes a range of the file. -/
theorem bytesAt_block {inode number pos count : Nat} (fits : pos + count ≤ blockSize) :
    img.bytesAt (img.blockAddr (img.blockEntry inode number) pos) count =
      img.fileBytes inode (blockSize * number + pos) count := by
  -- No position of the copy leaves the block it started in.
  refine List.map_congr_left fun k member => ?_
  have inside : k < count := List.mem_range.mp member
  have block : (blockSize * number + pos + k) / blockSize = number := by
    rw [Nat.add_assoc, Nat.mul_add_div (by decide), Nat.div_eq_of_lt (by omega)]
    rfl
  have place : (blockSize * number + pos + k) % blockSize = pos + k := by
    rw [Nat.add_assoc, Nat.mul_add_mod, Nat.mod_eq_of_lt (by omega)]
  simp only [fileByte, block, place, blockAddr, u32]
  rw [Nat.mod_add_mod, Nat.add_assoc]

end Image

/-- An inode past the count is refused, with the word that stands for minus one. -/
theorem readData_unknown {img : Image} {inode : Nat} (offset length : Nat)
    (unknown : img.numInode < inode) : readData img inode offset length = ⟨2 ^ 32 - 1, [], []⟩ :=
  if_pos unknown

/-- From the end of a file on nothing is read. -/
theorem readData_ended {img : Image} {inode offset : Nat} (length : Nat)
    (known : inode ≤ img.numInode) (ended : img.inodeLength inode ≤ offset) :
    readData img inode offset length = ⟨0, [], []⟩ := by
  rw [readData, if_neg (Nat.not_lt.mpr known), if_pos ended]

/-- The loop invariant of `read_data`, after the first block was copied. -/
structure Copied (img : Image) (inode offset total : Nat) (st : ReadState) : Prop where
  /-- The bytes copied so far are those of the file, from the offset on. -/
  bytes : st.bytes = img.fileBytes inode offset st.dataRead
  /-- No more was copied than is to be read. -/
  within : st.dataRead ≤ total
  /-- While something is left, the last copy ended where its block ends. -/
  aligned : st.dataRead < total → offset + st.dataRead = blockSize * (st.dataBlockNum + 1)
  /-- Every entry used is that of the first byte, or of a byte before the end of the request. -/
  entries : ∀ number ∈ st.entries, number = offset / blockSize ∨ blockSize * number < offset + total

/-- Copying from the next block keeps the invariant, if it fills the block or ends the request. -/
theorem Copied.readBlock {img : Image} {inode offset total count : Nat} {st : ReadState}
    (copied : Copied img inode offset total st) (fits : total < 2 ^ 32)
    (small : count ≤ blockSize) (positive : 0 < count) (room : st.dataRead + count ≤ total)
    (whole : count = blockSize ∨ st.dataRead + count = total) :
    Copied img inode offset total (readBlock img inode count st) := by
  have left : st.dataRead < total := by omega
  have start := copied.aligned left
  have read : u32 (st.dataRead + count) = st.dataRead + count := u32_of_lt (by omega)
  refine ⟨?_, ?_, ?_, ?_⟩
  · simp only [SmallOs.readBlock, read]
    rw [img.fileBytes_append, ← copied.bytes, img.bytesAt_block (by omega), start]
    rfl
  · simp only [SmallOs.readBlock, read]
    exact room
  · simp only [SmallOs.readBlock, read]
    -- A copy that does not end the request filled its block.
    intro more
    have full : count = blockSize := whole.resolve_right (by omega)
    simp only [blockSize] at *
    omega
  · intro number member
    simp only [SmallOs.readBlock, List.mem_append, List.mem_singleton] at member
    rcases member with old | rfl
    · exact copied.entries number old
    · exact .inr (by omega)

/-- The loop over whole blocks keeps the invariant, and leaves less than one block to copy. -/
theorem Copied.readWhole {img : Image} {inode offset total fuel : Nat} {st : ReadState}
    (copied : Copied img inode offset total st) (fits : total < 2 ^ 32)
    (enough : total - st.dataRead ≤ fuel) :
    Copied img inode offset total (readWhole img inode total fuel st) ∧
      total - (readWhole img inode total fuel st).dataRead < blockSize := by
  -- Every turn of the loop copies one more block, so the fuel never runs out.
  induction fuel generalizing st with
  | zero =>
    refine ⟨copied, ?_⟩
    simp only [SmallOs.readWhole, blockSize]
    omega
  | succ fuel ih =>
    have remaining := sub32_of_le fits copied.within
    unfold SmallOs.readWhole
    rw [remaining]
    split
    · rename_i more
      have within := copied.within
      have positive : 0 < blockSize := by decide
      have next := copied.readBlock fits (Nat.le_refl blockSize) positive (by omega) (.inl rfl)
      have read : (SmallOs.readBlock img inode blockSize st).dataRead =
          st.dataRead + blockSize := u32_of_lt (by omega)
      refine ih next ?_
      rw [read]
      simp only [blockSize]
      omega
    · exact ⟨copied, by omega⟩

/-- The last copy completes the request. -/
theorem Copied.finish {img : Image} {inode offset total : Nat} {st last : ReadState}
    (copied : Copied img inode offset total st) (fits : total < 2 ^ 32)
    (rest : total - st.dataRead < blockSize)
    (ended : last = if 0 < sub32 total st.dataRead then
      SmallOs.readBlock img inode (sub32 total st.dataRead) st else st) :
    last.dataRead = total ∧ last.bytes = img.fileBytes inode offset total ∧
      ∀ number ∈ last.entries, number = offset / blockSize ∨
        blockSize * number < offset + total := by
  have within := copied.within
  rw [sub32_of_le fits within] at ended
  -- Either a part of a block is left, or the loop already copied everything.
  split at ended
  · rename_i more
    have done := copied.readBlock fits (Nat.le_of_lt rest) more (by omega) (.inr (by omega))
    rw [← ended] at done
    have read : last.dataRead = total := by
      rw [ended]
      exact (u32_of_lt (by omega)).trans (by omega)
    refine ⟨read, ?_, done.entries⟩
    rw [done.bytes, read]
  · have full : last.dataRead = total := by
      rw [ended]
      omega
    refine ⟨full, ?_, ended ▸ copied.entries⟩
    rw [← full, ended]
    exact copied.bytes

/-- The first block of a file's request: what is left of the block, or the whole request. -/
theorem blockRemain_eq (offset : Nat) :
    sub32 (blockSize * (offset / blockSize + 1)) offset = blockSize - offset % blockSize := by
  -- The subtraction does not borrow, since the offset lies before the end of its block.
  have split := Nat.div_add_mod offset blockSize
  have small := Nat.mod_lt offset (show 0 < blockSize by decide)
  simp only [sub32, blockSize] at *
  omega

/--
What `read_data` does once the inode and the offset pass its tests.

It serves the smaller of the request and the whole file, wherever the offset stands.
-/
theorem readData_eq {img : Image} {inode offset : Nat} (length : Nat) (known : inode ≤ img.numInode)
    (inside : offset < img.inodeLength inode) :
    (readData img inode offset length).ret = min length (img.inodeLength inode) ∧
      (readData img inode offset length).bytes =
        img.fileBytes inode offset (min length (img.inodeLength inode)) ∧
      ∀ number ∈ (readData img inode offset length).entries, number = offset / blockSize ∨
        blockSize * number < offset + min length (img.inodeLength inode) := by
  -- The invariant holds after the first block, through the loop, and after the last block.
  have bound : img.inodeLength inode < 2 ^ 32 := word32_lt _ _
  have place : blockSize * (offset / blockSize) + offset % blockSize = offset :=
    Nat.div_add_mod offset blockSize
  have small := Nat.mod_lt offset (show 0 < blockSize by decide)
  have toRead : (if length ≤ img.inodeLength inode then length else img.inodeLength inode) =
      min length (img.inodeLength inode) := by
    split <;> omega
  have remain : (if length < img.inodeLength inode then
        (if blockSize - offset % blockSize > length then length
          else blockSize - offset % blockSize)
      else (if blockSize - offset % blockSize > img.inodeLength inode then img.inodeLength inode
        else blockSize - offset % blockSize)) =
      min (blockSize - offset % blockSize) (min length (img.inodeLength inode)) := by
    split <;> split <;> omega
  unfold readData
  rw [if_neg (by omega), if_neg (by omega)]
  simp only [blockRemain_eq offset, toRead, remain]
  generalize total_eq : min length (img.inodeLength inode) = total
  have fits : total < 2 ^ 32 := by omega
  have first : Copied img inode offset total ⟨offset / blockSize,
      min (blockSize - offset % blockSize) total,
      img.bytesAt (img.blockAddr (img.blockEntry inode (offset / blockSize))
        (offset % blockSize)) (min (blockSize - offset % blockSize) total),
      [offset / blockSize]⟩ := by
    refine ⟨?_, Nat.min_le_right _ _, ?_, ?_⟩
    · simp only
      rw [img.bytesAt_block (by omega), place]
    · simp only
      intro more
      simp only [blockSize] at *
      omega
    · intro number member
      exact .inl (List.mem_singleton.mp member)
  obtain ⟨middle, rest⟩ := first.readWhole fits (Nat.sub_le total _)
  exact middle.finish fits rest rfl

/-- A request within the file is served exactly, from the file's own blocks. -/
theorem readData_within {img : Image} {inode offset length : Nat} (known : inode < img.numInode)
    (inside : offset < img.inodeLength inode) (fits : offset + length ≤ img.inodeLength inode) :
    (readData img inode offset length).ret = length ∧
      (∀ old k, overlay (readData img inode offset length).bytes old k =
        if k < length then img.fileByte inode (offset + k) else old k) ∧
      ∀ number ∈ (readData img inode offset length).entries,
        blockSize * number < img.inodeLength inode := by
  -- Within the file the clamp has no effect.
  have clamp : min length (img.inodeLength inode) = length := by omega
  obtain ⟨ret, bytes, entries⟩ := readData_eq length (Nat.le_of_lt known) inside
  rw [clamp] at ret bytes entries
  refine ⟨ret, fun old k => ?_, fun number member => ?_⟩
  · rw [bytes]
    split
    · rename_i within
      exact img.fileBytes_getD within _
    · rename_i beyond
      simp [overlay, Image.fileBytes, List.getD_eq_getElem?_getD, beyond]
  · have start := Nat.mul_div_le offset blockSize
    rcases entries number member with rfl | before
    · omega
    · omega

/-- What a read past the end of a file ought to do: return and copy the tail, and nothing else. -/
structure ServesTail (img : Image) (inode offset length : Nat) : Prop where
  ret : (readData img inode offset length).ret = img.inodeLength inode - offset
  copied : offset + (readData img inode offset length).bytes.length ≤ img.inodeLength inode
  entries : ∀ number ∈ (readData img inode offset length).entries,
    blockSize * number < img.inodeLength inode

/-- A request past the end of the file is served right exactly when it starts at the beginning. -/
theorem servesTail_iff {img : Image} {inode offset length : Nat} (known : inode < img.numInode)
    (inside : offset < img.inodeLength inode) (past : img.inodeLength inode < offset + length) :
    ServesTail img inode offset length ↔ offset = 0 := by
  obtain ⟨ret, bytes, entries⟩ := readData_eq length (Nat.le_of_lt known) inside
  constructor
  · -- Anywhere else the smaller of the request and the whole file is more than the tail.
    intro served
    have tail := served.ret
    rw [ret] at tail
    omega
  · rintro rfl
    have clamp : min length (img.inodeLength inode) = img.inodeLength inode := by omega
    rw [clamp] at ret bytes entries
    refine ⟨by rw [ret]; rfl, by simp [bytes], fun number member => ?_⟩
    rcases entries number member with rfl | before
    · simpa using inside
    · simpa using before

/-- The sample's image is well formed. -/
theorem sampleImage_wellFormed : sampleImage.WellFormed := by
  have inodes : sampleImage.numInode = 2 := by decide +kernel
  have first : sampleImage.inodeLength 0 = 40 := by decide +kernel
  have second : sampleImage.inodeLength 1 = 5 := by decide +kernel
  refine ⟨by decide +kernel, by decide +kernel, ?_, ?_, by decide +kernel⟩
  · rw [inodes]
    intro inode small
    interval_cases inode
    · rw [first]
      decide
    · rw [second]
      decide
  · rw [inodes]
    intro inode small number used
    -- Both files fit into their first block.
    have zero : number = 0 := by
      interval_cases inode
      · rw [first, blockSize] at used
        omega
      · rw [second, blockSize] at used
        omega
    subst zero
    interval_cases inode <;> decide +kernel

/-- Three bytes from the middle of the sample's file. -/
theorem readData_within_sample : (readData sampleImage 1 1 3).ret = 3 :=
  (readData_within (by decide +kernel) (by decide +kernel) (by decide +kernel)).1

/-- Ten bytes from the beginning of the sample's file of five. -/
theorem servesTail_iff_sample : ServesTail sampleImage 1 0 10 :=
  (servesTail_iff (by decide +kernel) (by decide +kernel) (by decide +kernel)).mpr rfl

/-- Five bytes from the second byte on are reported, although only four are left. -/
theorem servesTail_fails : sampleImage.WellFormed ∧ 1 < sampleImage.numInode ∧
    1 < sampleImage.inodeLength 1 ∧ sampleImage.inodeLength 1 < 1 + 5 ∧
    (readData sampleImage 1 1 5).ret = 5 ∧ ¬ ServesTail sampleImage 1 1 5 := by
  refine ⟨sampleImage_wellFormed, by decide +kernel, by decide +kernel, by decide +kernel,
    by decide +kernel, fun served => ?_⟩
  -- The clamp compares with the whole file, and five is its size.
  have five : (readData sampleImage 1 1 5).ret = 5 := by decide +kernel
  have four : sampleImage.inodeLength 1 - 1 = 4 := by decide +kernel
  exact absurd (five.symm.trans (served.ret.trans four)) (by decide)

end SmallOs
