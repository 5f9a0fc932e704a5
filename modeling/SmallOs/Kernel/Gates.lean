import SmallOs.Foundation.Gates
import SmallOs.Kernel.Linkage

/-! The interrupt table of `idt.c`, the segments it leads into, and the way into a program. -/

namespace SmallOs

open Foundation.I386

/-- `NUM_VEC`: the entries of the interrupt table. -/
def numVec : Nat := 256

/-- `interrupt_32`: the first entry that is none of an exception. -/
def interrupt32 : Nat := 32

/-- `keyb_interrupt`. -/
def keybInterrupt : Nat := 0x21

/-- `interrupt_rtc`. -/
def interruptRtc : Nat := 0x28

/-- `interrupt_pit`. -/
def interruptPit : Nat := 0x20

/-- `USER_CS`: the selector of the code of programs. -/
def userCs : BitVec 16 := 0x0023

/-- `USER_DS`: the selector of the data of programs. -/
def userDs : BitVec 16 := 0x002B

/-- The functions the interrupt table leads to. -/
inductive Handler where
  | exceptionDe | exceptionDb | exceptionNmi | exceptionBp | exceptionOf | exceptionBr
  | exceptionUd | exceptionNm | exceptionDf | exceptionCs | exceptionTs | exceptionNp
  | exceptionSs | exceptionGp | exceptionPf | exceptionMf | exceptionAc | exceptionMc
  | exceptionXf | generalInterrupt | keyboardInterrupt | rtcInterrupt | syscallHandler
  | pitInterrupt
  deriving DecidableEq, Repr

/-- `idt_desc_t`, with its fields from the lowest bit up. -/
structure IdtDesc where
  offset15_00 : BitVec 16
  segSelector : BitVec 16
  reserved4 : BitVec 8
  reserved3 : BitVec 1
  reserved2 : BitVec 1
  reserved1 : BitVec 1
  size : BitVec 1
  reserved0 : BitVec 1
  dpl : BitVec 2
  present : BitVec 1
  offset31_16 : BitVec 16
  deriving DecidableEq, Repr

/-- The two words of an entry, as the processor reads them. -/
def IdtDesc.pack (d : IdtDesc) : Descriptor :=
  d.offset31_16 ++ d.present ++ d.dpl ++ d.reserved0 ++ d.size ++ d.reserved1 ++ d.reserved2 ++
    d.reserved3 ++ d.reserved4 ++ d.segSelector ++ d.offset15_00

/-- An entry of the table in `x86_desc.S`, before anything is stored. -/
def IdtDesc.zero : IdtDesc :=
  ⟨0, 0, 0, 0, 0, 0, 0, 0, 0, 0, 0⟩

/-- `SET_IDT_ENTRY`. -/
def IdtDesc.setIdtEntry (str : IdtDesc) (handler : Word) : IdtDesc :=
  { str with
    offset31_16 := ((handler &&& 0xFFFF0000) >>> 16).setWidth 16
    offset15_00 := (handler &&& 0xFFFF).setWidth 16 }

/-- The first loop of `idt_init`, for one entry. -/
def IdtDesc.initException (d : IdtDesc) : IdtDesc :=
  { d with
    present := 1
    dpl := 0
    size := 1
    reserved0 := 0
    reserved1 := 1
    reserved2 := 1
    reserved3 := 1
    reserved4 := 0
    segSelector := kernelCs }

/-- The second loop of `idt_init`, for one entry. -/
def IdtDesc.initInterrupt (generalInterrupt : Word) (d : IdtDesc) : IdtDesc :=
  { d with
    present := 1
    dpl := 0
    size := 1
    reserved0 := 0
    reserved1 := 1
    reserved2 := 1
    reserved3 := 0
    reserved4 := 0
    segSelector := kernelCs : IdtDesc }.setIdtEntry generalInterrupt

/-- The uses of `SET_IDT_ENTRY` after the loops of `idt_init`, in their order. -/
def idtEntries : List (Nat × Handler) :=
  [(0, .exceptionDe), (1, .exceptionDb), (2, .exceptionNmi), (3, .exceptionBp), (4, .exceptionOf),
    (5, .exceptionBr), (6, .exceptionUd), (7, .exceptionNm), (8, .exceptionDf),
    (9, .exceptionCs), (10, .exceptionTs), (11, .exceptionNp), (12, .exceptionSs),
    (13, .exceptionGp), (14, .exceptionPf), (16, .exceptionMf), (17, .exceptionAc),
    (18, .exceptionMc), (19, .exceptionXf), (keybInterrupt, .keyboardInterrupt),
    (interruptRtc, .rtcInterrupt), (0x80, .syscallHandler), (interruptPit, .pitInterrupt)]

/-- The two loops of `idt_init`. -/
def idtLoops (link : Handler → Word) (idt : Nat → IdtDesc) : Nat → IdtDesc :=
  let idt := (List.range' 0 interrupt32).foldl
    (fun idt i => Function.update idt i (idt i).initException) idt
  (List.range' interrupt32 (numVec - interrupt32)).foldl
    (fun idt i => Function.update idt i ((idt i).initInterrupt (link .generalInterrupt))) idt

/-- `idt_init`, where the link addresses of the functions are given. -/
def idtInit (link : Handler → Word) (idt : Nat → IdtDesc) : Nat → IdtDesc :=
  let idt := idtEntries.foldl
    (fun idt entry => Function.update idt entry.1 ((idt entry.1).setIdtEntry (link entry.2)))
    (idtLoops link idt)
  -- Only the system calls may be raised by programs.
  Function.update idt 0x80 { idt 0x80 with reserved3 := 0, dpl := 3, present := 1 }

/-- The handler of a vector: the exceptions nobody handles have none. -/
def handlerOf (n : Nat) : Option Handler :=
  ((idtEntries.find? fun entry => entry.1 = n).map Prod.snd).or
    (if n < interrupt32 then none else some .generalInterrupt)

/-- The address behind a vector. -/
def handlerAddress (link : Handler → Word) (n : Nat) : Word :=
  (handlerOf n).elim 0 link

/-- The segments of `x86_desc.S`, the last two of which `entry` fills in. -/
def gdt (tssDesc ldtDesc : Descriptor) : List Descriptor :=
  [0, 0, 0x00CF9A000000FFFF, 0x00CF92000000FFFF, 0x00CFFA000000FFFF, 0x00CFF2000000FFFF, tssDesc,
    ldtDesc]

/-- The tables of the kernel, where the task state segment has a stack for the innermost ring only. -/
def kernelTables (link : Handler → Word) (tssDesc ldtDesc : Descriptor) (tss : Tss) : Tables :=
  { gdt := gdt tssDesc ldtDesc
    idt := (List.range numVec).map fun n => (idtInit link (fun _ => .zero) n).pack
    innerStack := fun ring =>
      if ring = 0 then (BitVec.ofNat 16 tss.ss0, BitVec.ofNat 32 tss.esp0) else (0, 0) }

/-- `asm_hex`: the stack `execute` means to give a program. -/
def asmHex : Word := 0x83FFFFC

/-- The pushes at the end of `execute`, less the segment registers for data. -/
def pushProgram (entryPoint : Word) (c : Cpu) : Cpu :=
  -- The selector of the data is moved through the register that holds the stack.
  let c := { c with eax := asmHex.extractLsb' 16 16 ++ userDs, ebx := entryPoint }
  let c := (c.push (userDs.setWidth 32)).push c.eax
  let c := exec (fun _ : Empty => id) c .pushfl
  let c := { c.drop 1 with eax := c.word 0 ||| interruptFlag }
  ((c.push c.eax).push (userCs.setWidth 32)).push c.ebx

/-- The way into a program: `iret` on what was pushed. -/
def enterProgram (entryPoint : Word) (c : Cpu) : Cpu :=
  exec (fun _ : Empty => id) (pushProgram entryPoint c) .iret

end SmallOs
