import SmallOs.Kernel.Strings

/-! The read-only file system of `filesystem.c`: lookups, block reads, and its two read drivers. -/

namespace SmallOs

open Foundation

/-- `block_size`. -/
def blockSize : Nat := 4096

/-- The file system image in memory, and the address `dentry_addr` at which it was loaded. -/
structure Image where
  mem : Nat → Byte
  dentryAddr : Nat

/-- `dentry_t`, less its reserved bytes. -/
structure Dentry where
  /-- The thirty-two bytes of `file_name`. -/
  fileName : List Byte
  fileType : Nat
  inode : Nat
  deriving DecidableEq, Repr

namespace Image

/-- `file_sys->num_dentry`. -/
def numDentry (img : Image) : Nat :=
  word32 img.mem img.dentryAddr

/-- `file_sys->num_inode`. -/
def numInode (img : Image) : Nat :=
  word32 img.mem (img.dentryAddr + 4)

/-- `file_sys->data_block`. -/
def dataBlock (img : Image) : Nat :=
  word32 img.mem (img.dentryAddr + 8)

/-- The address of `file_sys->dentry[i]`. -/
def entryAddr (img : Image) (i : Nat) : Nat :=
  img.dentryAddr + 64 + 64 * i

/-- The memory behind `file_sys->dentry[i].file_name`. -/
def entryName (img : Image) (i : Nat) : Nat → Byte :=
  fun k => img.mem (img.entryAddr i + k)

/-- `file_sys->dentry[i].file_type`. -/
def entryType (img : Image) (i : Nat) : Nat :=
  word32 img.mem (img.entryAddr i + 32)

/-- `file_sys->dentry[i].inode`. -/
def entryInode (img : Image) (i : Nat) : Nat :=
  word32 img.mem (img.entryAddr i + 36)

/-- The word at the start of an inode's block, computed with wrapping addresses. -/
def inodeLength (img : Image) (inode : Nat) : Nat :=
  word32 img.mem (u32 (img.dentryAddr + blockSize * (inode + 1)))

/-- The block list entry `number` of an inode. -/
def blockEntry (img : Image) (inode number : Nat) : Nat :=
  word32 img.mem (u32 (img.dentryAddr + blockSize * (inode + 1) + 4 * (number + 1)))

/-- The address of position `pos` of a data block. -/
def blockAddr (img : Image) (index pos : Nat) : Nat :=
  u32 (img.dentryAddr + blockSize * (img.numInode + 1 + index) + pos)

/-- The bytes `memcpy` takes from the image. -/
def bytesAt (img : Image) (address count : Nat) : List Byte :=
  (List.range count).map fun k => img.mem (u32 (address + k))

end Image

/-- `read_dentry_by_name` from slot `i` on, with the number of slots still to search. -/
def readDentryByNameFrom (img : Image) (fname : Nat → Byte) (i : Nat) : Nat → Option Dentry
  | 0 => none
  | remaining + 1 =>
    if strncmp fname (img.entryName i) 32 = 0 then
      -- The copied name is the one asked for, not the one in the slot.
      some ⟨strncpy fname 32, img.entryType i, img.entryInode i⟩
    else readDentryByNameFrom img fname (i + 1) remaining

/-- `read_dentry_by_name`, where `none` is the return value `-1`. -/
def readDentryByName (img : Image) (fname : Nat → Byte) : Option Dentry :=
  readDentryByNameFrom img fname 0 63

/-- `read_dentry_by_index`, where `none` is the return value `-1`. -/
def readDentryByIndex (img : Image) (index : Nat) : Option Dentry :=
  if img.numDentry ≤ index then none
  else some ⟨strncpy (img.entryName index) 32, img.entryType index, img.entryInode index⟩

/-- What `read_data` did: its result, the bytes stored from `buf[0]` on, and the block list entries it read. -/
structure ReadData where
  ret : Nat
  bytes : List Byte
  entries : List Nat
  deriving DecidableEq

/-- The variables of the copying loop of `read_data`. -/
structure ReadState where
  dataBlockNum : Nat
  dataRead : Nat
  bytes : List Byte
  entries : List Nat

/-- Advance to the next block of the file and copy its first `count` bytes. -/
def readBlock (img : Image) (inode count : Nat) (st : ReadState) : ReadState :=
  let number := st.dataBlockNum + 1
  { dataBlockNum := number
    dataRead := u32 (st.dataRead + count)
    bytes := st.bytes ++ img.bytesAt (img.blockAddr (img.blockEntry inode number) 0) count
    entries := st.entries ++ [number] }

/-- The loop of `read_data` over whole blocks, with fuel for its iterations. -/
def readWhole (img : Image) (inode dataToRead : Nat) : Nat → ReadState → ReadState
  | 0, st => st
  | fuel + 1, st =>
    if blockSize ≤ sub32 dataToRead st.dataRead then
      readWhole img inode dataToRead fuel (readBlock img inode blockSize st)
    else st

/-- `read_data`. -/
def readData (img : Image) (inode offset length : Nat) : ReadData :=
  let inodeLength := img.inodeLength inode
  if inode > img.numInode then ⟨2 ^ 32 - 1, [], []⟩
  else if offset ≥ inodeLength then ⟨0, [], []⟩
  else
    let dataBlockNum := offset / blockSize
    let dataBlockPos := offset % blockSize
    -- The clamp compares with the whole file and leaves the offset out.
    let dataToRead := if length ≤ inodeLength then length else inodeLength
    let blockRemain := sub32 (blockSize * (dataBlockNum + 1)) offset
    let dataRemain :=
      if length < inodeLength then (if blockRemain > length then length else blockRemain)
      else (if blockRemain > inodeLength then inodeLength else blockRemain)
    let curPos := img.blockAddr (img.blockEntry inode dataBlockNum) dataBlockPos
    let first : ReadState :=
      ⟨dataBlockNum, dataRemain, img.bytesAt curPos dataRemain, [dataBlockNum]⟩
    -- The loop takes at least one byte a turn, so the request itself is enough fuel.
    let middle := readWhole img inode dataToRead dataToRead first
    let rest := sub32 dataToRead middle.dataRead
    let last := if 0 < rest then readBlock img inode rest middle else middle
    ⟨last.dataRead, last.bytes, last.entries⟩

/-- `file_size`. -/
def fileSize (img : Image) (inode : Nat) : Nat :=
  img.inodeLength inode

/-- What a read driver did: its result, the bytes stored from the start of the buffer on, and the state after. -/
structure DriverRead where
  ret : Int
  bytes : List Byte
  kernel : Kernel

/-- Store a file position into a descriptor of the scheduled process. -/
def setFilePosition (s : Kernel) (fd position : Nat) : Kernel :=
  s.setPcb s.scheduled.curPcb fun pcb =>
    { pcb with fd := Function.update pcb.fd fd { pcb.fd fd with filePosition := position } }

/-- `file_read`. -/
def fileRead (img : Image) (s : Kernel) (fd : Nat) (nbytes : Int) : DriverRead :=
  let descriptor := s.curPcb.fd fd
  let read := readData img descriptor.inode descriptor.filePosition (ofInt32 nbytes)
  let position := u32 (descriptor.filePosition + read.ret)
  -- A position past the end is reset, and the bytes just read are reported as none.
  if position > fileSize img descriptor.inode then
    ⟨0, read.bytes, setFilePosition s fd 0⟩
  else ⟨toInt32 read.ret, read.bytes, setFilePosition s fd position⟩

/-- The bytes of a directory entry from its name on, up to the type that follows the name. -/
def dentryBytes (d : Dentry) : Nat → Byte :=
  fun k => (d.fileName ++ wordBytes d.fileType).getD k 0

/-- `dir_read`, which keeps its place in one counter for all descriptors. -/
def dirRead (img : Image) (s : Kernel) : DriverRead :=
  match readDentryByIndex img s.dirReadLoc with
  | none => ⟨0, [], { s with dirReadLoc := 0 }⟩
  | some d =>
    -- A longer length is cut to thirty-two, so the scan is followed no farther than that.
    let fileLength := strlen (dentryBytes d) 32
    -- All thirty-three bytes are cleared before the name is copied over them.
    let copied := strncpy (dentryBytes d) (fileLength + 1)
    ⟨fileLength, copied ++ List.replicate (33 - copied.length) 0,
      { s with dirReadLoc := s.dirReadLoc + 1 }⟩

end SmallOs
