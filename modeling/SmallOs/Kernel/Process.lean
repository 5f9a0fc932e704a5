import SmallOs.Kernel.Paging
import SmallOs.Kernel.Terminal

/-! Starting and ending processes: `execute` and `halt` of `syscall.c`. -/

namespace SmallOs

open Foundation

/-- What the surroundings fix: the file system image, a link address, and memory as it was at power-on. -/
structure Env where
  image : Image
  /-- The link address of `first_page_table`. -/
  tableAddr : Nat
  pcbMemory : Nat → Pcb
  frameMemory : Nat → Byte
  videoMemory : Nat → Byte

/-- What a call finds on its kernel stack: its registers, and old bytes in arrays it does not clear. -/
structure CallFrame where
  esp : Nat
  ebp : Nat
  stack : Nat → Byte

/-- How a system call leaves the kernel. -/
inductive Outcome where
  /-- It returns to its caller with a value. -/
  | returned (eax : Int)
  /-- `execute` enters the new program at its entry point. -/
  | entered (entryPoint : Nat)
  /-- `halt` returns on the frame of the `execute` call that started the process. -/
  | resumed (esp ebp : Nat) (eax : Int)
  deriving DecidableEq, Repr

/-- The name of the shell, as the kernel itself passes it. -/
def shell : List Byte :=
  ascii ['s', 'h', 'e', 'l', 'l']

/-- The text printed when the process table is full. -/
def maximumProcesses : List Byte :=
  ascii ['M', 'a', 'x', 'i', 'm', 'u', 'm', ' ', 'P', 'r', 'o', 'c', 'e', 's', 's', 'e', 's', '\n']

/--
The two copying loops at the start of `execute`: the first word, and the text after the first space.

A command that does not fit `file_name[32]` or `arg[128]` is stored past the arrays, and
nothing can be said about the call.
-/
def parseCommand (command : List Byte) : Option (List Byte × List Byte) :=
  let fileName := command.takeWhile (· ≠ 0x20)
  let arg := (command.dropWhile (· ≠ 0x20)).drop 1
  -- The command ends at its NUL, and with it the text of the arguments.
  if fileName.length ≤ 32 ∧ arg.length < bufsize then some (fileName, arg) else none

/-- The test on the first four letters of the name, and what it changes. -/
def markFish (s : Kernel) (fileName : List Byte) : Kernel :=
  if fileName.take 4 = ascii ['f', 'i', 's', 'h'] then
    let s := s.setConsole fun con =>
      { con with video := copyBlock (videoPtr s.currentId) videoBase onepage con.video }
    s.setTerminal s.currentId fun term => { term with fish := true }
  else s

/-- A stack buffer after the bytes of a read were stored from its start on. -/
def overlay (bytes : List Byte) (old : Nat → Byte) : Nat → Byte :=
  fun i => bytes.getD i (old i)

/-- The four bytes `executable[4]`, compared with the start of the file. -/
def isExecutable (buf : Nat → Byte) : Prop :=
  buf 0 = 0x7F ∧ buf 1 = 0x45 ∧ buf 2 = 0x4C ∧ buf 3 = 0x46

instance (buf : Nat → Byte) : Decidable (isExecutable buf) :=
  inferInstanceAs (Decidable (_ ∧ _))

/-- The lookup and header test of `execute`: the directory entry and the entry point, or `-1`. -/
def findProgram (img : Image) (frame : CallFrame) (fileName : List Byte) : Option (Dentry × Nat) :=
  match readDentryByName img (cstr fileName) with
  | none => none
  | some dentry =>
    let header := readData img dentry.inode 0 4
    if header.ret = 2 ^ 32 - 1 then none
    else
      let buf := overlay header.bytes frame.stack
      if isExecutable buf then
        -- The second read reuses the buffer, and its own result is not tested.
        let buf := overlay (readData img dentry.inode 24 4).bytes buf
        some (dentry, word32 buf 0)
      else none

/-- The process table has no free slot among those for children. -/
def TableFull (s : Kernel) : Prop :=
  s.processArray 3 = 1 ∧ s.processArray 4 = 1 ∧ s.processArray 5 = 1

instance (s : Kernel) : Decidable (TableFull s) :=
  inferInstanceAs (Decidable (_ ∧ _))

/-- The slot `execute` takes: the displayed terminal's own, or the first free one for children. -/
def pickProcess (s : Kernel) : Option Nat :=
  -- The first process of a terminal has the slot of the terminal's number.
  if s.displayed.firstProcess then [3, 4, 5].find? fun i => s.processArray i = 0
  else some s.currentId.val

/-- The program is loaded at `read_buf` in the user page that was just mapped. -/
def loadProgram (img : Image) (s : Kernel) (inode : Nat) : Kernel :=
  let bytes := (readData img inode 0 (fileSize img inode)).bytes
  let start := 0x48000 + userFrame s
  { s with frames := fun a =>
      if start ≤ a ∧ a < start + bytes.length then bytes.getD (a - start) 0 else s.frames a }

/-- The user page holds the program from `read_buf` on; a longer one faults while it is loaded. -/
def FitsPage (img : Image) (inode : Nat) : Prop :=
  0x48000 + (readData img inode 0 (fileSize img inode)).bytes.length ≤ 0x400000

instance (img : Image) (inode : Nat) : Decidable (FitsPage img inode) :=
  inferInstanceAs (Decidable (_ ≤ _))

/-- The descriptors `execute` gives a new process. -/
def initialFd : Nat → FileDescriptor :=
  fun i =>
    if i = 0 then ⟨some .stdin, noParent, 0, 1⟩
    else if i = 1 then ⟨some .stdout, noParent, 0, 1⟩
    else ⟨none, noParent, 0, 0⟩

/-- The control block `execute` fills in, once it has chosen a slot and a parent. -/
def newPcb (frame : CallFrame) (processNum parentPid : Nat) (arg : List Byte) : Pcb :=
  { pid := processNum
    parentPid := parentPid
    fd := initialFd
    oldEsp := frame.esp
    oldEbp := frame.ebp
    pcbArg := arg
    argSize := arg.length }

/-- The part of `execute` after its last failure path: the process is created and entered. -/
def startProcess (env : Env) (s : Kernel) (frame : CallFrame) (dentry : Dentry)
    (arg : List Byte) (processNum : Nat) : Kernel :=
  -- The terminal that is displayed becomes the one that is scheduled.
  let s := { s with processArray := Function.update s.processArray processNum 1 }
  let s := mapToUserPhy s processNum 0x400000
  let s := loadProgram env.image s dentry.inode
  let s := { s with currentPcb := pcbAddr processNum }
  -- A base shell has no parent, any other process the one its terminal ran so far.
  let parentPid := if s.displayed.firstProcess then s.displayed.currentPid else noParent
  let s := s.setPcb (pcbAddr processNum) fun _ => newPcb frame processNum parentPid arg
  let s := s.setTerminal s.currentId fun term =>
    { term with curPcb := pcbAddr processNum, firstProcess := true, currentPid := processNum }
  { s with
    currTerminal := s.currentId
    tss := ⟨sub32 size8MB (size8KB * (processNum + 1)), kernelDs⟩ }

/-- `execute`, where `none` means a store past one of its arrays or past the user page. -/
def execute (env : Env) (s : Kernel) (frame : CallFrame) (command : Option (List Byte)) :
    Option (Outcome × Kernel) :=
  match command with
  | none => some (.returned (-1), s)
  | some command =>
    match parseCommand command with
    | none => none
    | some (fileName, arg) =>
      -- The mark is made before the program is looked up.
      let s := markFish s fileName
      match findProgram env.image frame fileName with
      | none => some (.returned (-1), s)
      | some (dentry, entryPoint) =>
        if s.displayed.firstProcess ∧ TableFull s then
          some (.returned (-1), putText s maximumProcesses)
        else match pickProcess s with
          | none => none
          | some processNum =>
            -- A longer program is stored past the page that was mapped for it.
            if FitsPage env.image dentry.inode then
              some (.entered entryPoint, startProcess env s frame dentry arg processNum)
            else none

/-- The first part of `halt`: the process is taken out of the table and its descriptors are closed. -/
def endProcess (s : Kernel) : Kernel :=
  let s := s.setTerminal s.currTerminal fun term => { term with fish := false }
  -- The block is found through the scheduled terminal, and the slot through the block.
  let s := { s with currentPcb := s.scheduled.curPcb }
  let s := { s with
    processArray := Function.update s.processArray (s.pcbs s.currentPcb).pid 0 }
  s.setPcb s.currentPcb fun pcb =>
    { pcb with fd := fun i =>
        if i ≤ maxFd then { pcb.fd i with opTable := some .noOp, flags := 0 } else pcb.fd i }

/-- The end of a base shell: its terminal is also left without a process. -/
def endBaseShell (s : Kernel) : Kernel :=
  let s := endProcess s
  s.setTerminal s.currTerminal fun term => { term with firstProcess := false }

/-- The last part of `halt`: the parent is mapped and becomes the terminal's process again. -/
def resumeParent (s : Kernel) (parentId : Nat) : Kernel :=
  -- The parent is read again from the block, and the address is wrapped where there is none.
  let s := mapToUserPhy s (s.pcbs s.currentPcb).parentPid 0x400000
  let s := { s with
    tss := ⟨sub32 size8MB (size8KB * u32 ((s.pcbs s.currentPcb).parentPid + 1)), kernelDs⟩ }
  s.setTerminal s.currTerminal fun term =>
    { term with curPcb := pcbAddr parentId, currentPid := parentId }

/-- `halt`, where `none` means a fault on the control block or an overrun in the restart. -/
def halt (env : Env) (s : Kernel) (frame : CallFrame) : Option (Outcome × Kernel) :=
  if Mapped s.scheduled.curPcb then
    let old := s.curPcb
    -- The C epilogue after the assembly returns zero, whatever the status was.
    let leave (s : Kernel) := (Outcome.resumed old.oldEsp old.oldEbp 0, resumeParent s old.parentPid)
    if old.parentPid = noParent then
      match execute env (endBaseShell s) frame (some shell) with
      | some (.returned _, s) => some (leave s)
      | restarted => restarted
    else some (leave (endProcess s))
  else none

end SmallOs
