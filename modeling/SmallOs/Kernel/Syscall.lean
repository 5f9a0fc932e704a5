import SmallOs.Kernel.Process

/-! The remaining system calls of `syscall.c`, with the clock driver behind two of them. -/

namespace SmallOs

open Foundation

/--
What a system call did: how it left, the bytes it stores from its pointer argument on, and the state
after.

The bytes are listed apart from the state: `CallResult.commit` puts them into memory.
-/
structure CallResult where
  outcome : Outcome
  stores : List Byte
  kernel : Kernel

/-- A call that returns a value and stores nothing. -/
def plainReturn (eax : Int) (s : Kernel) : CallResult :=
  ⟨.returned eax, [], s⟩

/-- Change one descriptor of the scheduled process. -/
def setDescriptor (s : Kernel) (i : Nat) (change : FileDescriptor → FileDescriptor) : Kernel :=
  s.setPcb s.scheduled.curPcb fun pcb =>
    { pcb with fd := Function.update pcb.fd i (change (pcb.fd i)) }

/-- The operation table `open` picks for a file type, where every other type is a regular file. -/
def tableFor (fileType : Nat) : OpTable :=
  if fileType = 0 then .rtc else if fileType = 1 then .dir else .file

/-- The changes `open` makes to the descriptor it hands out. -/
def openDescriptor (d : Dentry) (descriptor : FileDescriptor) : FileDescriptor :=
  match tableFor d.fileType with
  | .file =>
    { descriptor with filePosition := 0, opTable := some .file, inode := d.inode, flags := 1 }
  -- Only a regular file stores its inode, so other descriptors keep an old one.
  | table => { descriptor with filePosition := 0, opTable := some table, flags := 1 }

/-- `open`, where `none` means a fault on the control block. -/
def openFile (img : Image) (s : Kernel) (filename : List Byte) : Option CallResult :=
  if filename = [] then some (plainReturn (-1) s)
  else match readDentryByName img (cstr filename) with
    | none => some (plainReturn (-1) s)
    | some d =>
      if Mapped s.scheduled.curPcb then
        -- Standard input and output are left out of the search.
        match [2, 3, 4, 5, 6, 7].find? fun i => (s.curPcb.fd i).flags = 0 with
        | some i => some (plainReturn i (setDescriptor s i (openDescriptor d)))
        | none => some (plainReturn (-1) s)
      else none

/-- The result of the `close` entry of an operation table. -/
def closeOp : OpTable → Int
  | .noOp => -1
  | _ => 0

/-- `close`, where `none` means a fault on the control block or on a null table. -/
def closeFile (s : Kernel) (fd : Int) : Option CallResult :=
  if fd < 0 ∨ fd > maxFd then some (plainReturn (-1) s)
  else if Mapped s.scheduled.curPcb then
    let i := fd.toNat
    if (s.curPcb.fd i).flags = 0 ∨ fd = 0 ∨ fd = 1 then some (plainReturn (-1) s)
    else
      -- The flags are cleared first, and the table is kept for the driver.
      let s := setDescriptor s i fun descriptor => { descriptor with flags := 0 }
      (s.curPcb.fd i).opTable.map fun table => plainReturn (closeOp table) s
  else none

/-- `rtc_read`, once an interrupt has ended its waiting loop. -/
def rtcRead (s : Kernel) : DriverRead :=
  ⟨0, [], { s with rtcInterruptFlag := false }⟩

/-- The `read` entry of an operation table, where `none` means that the driver still waits. -/
def readOp (img : Image) (s : Kernel) (fd : Nat) (nbytes : Int) : OpTable → Option DriverRead
  | .rtc => some (rtcRead s)
  | .dir => some (dirRead img s)
  | .file => some (fileRead img s fd nbytes)
  | .stdin => terminalRead s
  | .stdout | .noOp => some ⟨-1, [], s⟩

/-- `read`, where `none` means a fault or a driver that still waits. -/
def readFile (img : Image) (s : Kernel) (fd nbytes : Int) : Option CallResult :=
  if fd < 0 ∨ fd > maxFd then some (plainReturn (-1) s)
  else if Mapped s.scheduled.curPcb then
    let descriptor := s.curPcb.fd fd.toNat
    if descriptor.flags = 0 then some (plainReturn (-1) s)
    else do
      let table ← descriptor.opTable
      let result ← readOp img s fd.toNat nbytes table
      some ⟨.returned result.ret, result.bytes, result.kernel⟩
  else none

/-- The rate `rtc_write` programs for a frequency, where `none` is the return value `-1`. -/
def rtcRate (frequency : Nat) : Option Nat :=
  -- Zero passes the test for a power of two, and matches no frequency below.
  if frequency &&& sub32 frequency 1 ≠ 0 then none
  else if toInt32 frequency < 0 ∨ toInt32 frequency > 1024 then none
  else match frequency with
    | 2 => some 0xF
    | 4 => some 0xE
    | 8 => some 0xD
    | 16 => some 0xC
    | 32 => some 0xB
    | 64 => some 0xA
    | 128 => some 0x9
    | 256 => some 0x8
    | 512 => some 0x7
    | 1024 => some 0x6
    | _ => none

/-- `rtc_write`: the upper half of register A is kept. -/
def rtcWrite (s : Kernel) (buf : List Byte) : Int × Kernel :=
  match rtcRate (word32 (cstr buf) 0) with
  | none => (-1, s)
  | some rate => (0, { s with rtcRegisterA := (s.rtcRegisterA &&& 0xF0) ||| rate })

/-- The `write` entry of an operation table. -/
def writeOp (s : Kernel) (buf : List Byte) (nbytes : Int) : OpTable → Int × Kernel
  | .rtc => rtcWrite s buf
  | .stdout => terminalWrite s buf nbytes
  | .dir | .file | .stdin | .noOp => (-1, s)

/-- `write`, which looks the descriptor up in the displayed terminal's process. -/
def writeFile (s : Kernel) (fd : Int) (buf : Option (List Byte)) (nbytes : Int) :
    Option CallResult :=
  if fd < 0 ∨ fd > maxFd then some (plainReturn (-1) s)
  else match buf with
    | none => some (plainReturn (-1) s)
    | some text =>
      if Mapped s.displayed.curPcb then
        let descriptor := (s.pcbs s.displayed.curPcb).fd fd.toNat
        if descriptor.flags = 0 then some (plainReturn (-1) s)
        else do
          let table ← descriptor.opTable
          let (ret, s) := writeOp s text nbytes table
          some (plainReturn ret s)
      else none

/-- `getargs`, which tests one control block for arguments and copies those of another. -/
def getargs (s : Kernel) (buf : Nat) : Option CallResult :=
  if buf = 0 then some (plainReturn (-1) s)
  else if Mapped s.displayed.curPcb ∧ Mapped s.currentPcb then
    -- The size is that of the displayed process, and the text that of the current block.
    if (s.pcbs s.displayed.curPcb).argSize = 0 then some (plainReturn (-1) s)
    else some ⟨.returned 0, (s.pcbs s.currentPcb).pcbArg ++ [0], s⟩
  else none

/-- The address at which `vidmap` puts the user's view of the screen. -/
def vidAddr : Nat := 0x400000 + 128 * 1024 * 1024

/-- `vidmap`, where `none` means that its store faults: all four bytes need pages that are present. -/
def vidmap (env : Env) (s : Kernel) (screenStart : Nat) : Option CallResult :=
  -- Only the first byte of the place is tested.
  if screenStart < 0x08000000 ∨ screenStart ≥ 0x08000000 + 0x00400000 then
    some (plainReturn (-1) s)
  else if s.Present env.tableAddr screenStart ∧ s.Present env.tableAddr (screenStart + 3) then
    -- The address is stored first, and the page is mapped after it.
    some ⟨.returned vidAddr, wordBytes vidAddr, mapToVid s env.tableAddr (videoPtr s.currentId)⟩
  else none

/-- A system call, with the arguments a program loads into the registers. -/
inductive Call where
  | halt (status : Byte)
  | execute (command : Option (List Byte))
  /-- `read`, with the address of the buffer. -/
  | read (fd : Int) (buf : Nat) (nbytes : Int)
  /-- `write`, with the memory behind the buffer, or `none` for a null pointer. -/
  | write (fd : Int) (buf : Option (List Byte)) (nbytes : Int)
  | open (filename : List Byte)
  | close (fd : Int)
  | getargs (buf : Nat) (nbytes : Int)
  | vidmap (screenStart : Nat)

/-- The pointer through which a call stores. -/
def Call.pointer : Call → Option Nat
  | .read _ buf _ | .getargs buf _ => some buf
  | .vidmap screenStart => some screenStart
  | .halt _ | .execute _ | .write _ _ _ | .open _ | .close _ => none

/-- The jump through `syscall_jump_table`, with what the call stores listed in its result. -/
def syscall (env : Env) (s : Kernel) (frame : CallFrame) : Call → Option CallResult
  | .halt _ => (halt env s frame).map fun (outcome, s) => ⟨outcome, [], s⟩
  | .execute command => (execute env s frame command).map fun (outcome, s) => ⟨outcome, [], s⟩
  | .read fd _ nbytes => readFile env.image s fd nbytes
  | .write fd buf nbytes => writeFile s fd buf nbytes
  | .open filename => openFile env.image s filename
  | .close fd => closeFile s fd
  | .getargs buf _ => getargs s buf
  | .vidmap screenStart => vidmap env s screenStart

/-- The state after a call, with its bytes in the memory of its caller from an address on. -/
def CallResult.stored (result : CallResult) (s : Kernel) (buf : Nat) : Kernel :=
  let place := userFrame s + (buf - 0x08000000)
  { result.kernel with
    frames := storeAll (storesFrom place result.stores) result.kernel.frames }

/--
Put the bytes of a call into the memory of its caller, from the call's pointer on.

There is no result unless all of them lie in the user page: most other pages are absent, so that the
call faults, and in the present ones it overwrites what the kernel itself runs on.
-/
def CallResult.commit (result : CallResult) (s : Kernel) (request : Call) : Option Kernel :=
  match result.stores, request.pointer with
  | [], _ => some result.kernel
  | _ :: _, some buf =>
    if 0x08000000 ≤ buf ∧ buf + result.stores.length ≤ 0x08000000 + 0x00400000 then
      some (result.stored s buf)
    else none
  | _ :: _, none => none

end SmallOs
