import SmallOs.Foundation.Assembly

/-! The block primitives of `lib.c`, whose bodies are inline assembly. -/

namespace SmallOs

open Foundation.Assembly
open Foundation.I386 (Word)

/-- The labels of `memset` and of `memcpy`, without the name of the function. -/
inductive BlockLabel where
  | top | aligned | bottom | done
  deriving DecidableEq, Repr

/-- The label of `memmove`. -/
inductive MoveLabel where
  | go
  deriving DecidableEq, Repr

/-- The part of `memset` and `memcpy` from `bottom` on, which writes what the words leave. -/
def bottomCode (byte : List (Instr BlockLabel)) : List (Line BlockLabel) :=
  [ .label .bottom,
    .instr (.testl (.reg .edx) .edx),
    .instr (.jz .done) ] ++ (byte.map .instr ++
  [ .instr (.subl (.imm 1) .edx),
    .instr (.jmp .bottom),
    .label .done ])

/-- What comes before the words: `ecx` is to count them, and `edx` the bytes that they leave. -/
def wordSetup : List (Instr BlockLabel) :=
  [ .movwDsDx,
    .movwDxEs,
    .movl (.reg .ecx) .edx,
    .shrl 2 .ecx,
    .andl (.imm 0x3) .edx,
    .cld ]

/-- The part of `memset` and `memcpy` from `aligned` on, which writes the words. -/
def alignedCode (byte : List (Instr BlockLabel)) (words : StringOp) : List (Line BlockLabel) :=
  .label .aligned :: (wordSetup.map .instr ++
  .instr (.rep words) :: bottomCode byte)

/--
The assembly of `memset` and of `memcpy`.

The two differ in how they write one byte, and in the instruction that writes the words.
-/
def blockCode (byte : List (Instr BlockLabel)) (words : StringOp) : List (Line BlockLabel) :=
  [ .label .top,
    .instr (.testl (.reg .ecx) .ecx),
    .instr (.jz .done),
    .instr (.testl (.imm 0x3) .edi),
    .instr (.jz .aligned) ] ++ (byte.map .instr ++
  ([ .instr (.subl (.imm 1) .ecx),
    .instr (.jmp .top) ] ++ alignedCode byte words))

/-- How `memset` writes one byte. -/
def memset.byte : List (Instr BlockLabel) :=
  [ .storeAl .edi,
    .addl (.imm 1) .edi ]

/-- The assembly of `memset`. -/
def memset.code : List (Line BlockLabel) :=
  blockCode memset.byte .stosl

/-- `memset`, which spreads the low byte of its argument over a word. -/
def memset (start : Core) (s c n : Word) (fuel : Nat) : Option (Word × Core) :=
  let c := c &&& 0xFF
  let core := ((start.set .eax (c <<< 24 ||| c <<< 16 ||| c <<< 8 ||| c)).set .edi s).set .ecx n
  (exec memset.code fuel memset.code core).map fun core => (s, core)

/-- How `memcpy` writes one byte. -/
def memcpy.byte : List (Instr BlockLabel) :=
  [ .loadAl .esi,
    .storeAl .edi,
    .addl (.imm 1) .edi,
    .addl (.imm 1) .esi ]

/-- The assembly of `memcpy`. -/
def memcpy.code : List (Line BlockLabel) :=
  blockCode memcpy.byte .movsl

/-- `memcpy`. -/
def memcpy (start : Core) (dest src n : Word) (fuel : Nat) : Option (Word × Core) :=
  let core := ((start.set .esi src).set .edi dest).set .ecx n
  (exec memcpy.code fuel memcpy.code core).map fun core => (dest, core)

/-- The assembly of `memmove`. -/
def memmove.code : List (Line MoveLabel) :=
  [ .instr .movwDsDx,
    .instr .movwDxEs,
    .instr .cld,
    .instr (.cmpl (.reg .edi) .esi),
    .instr (.jae .go),
    .instr (.leal (-1) .esi .ecx .esi),
    .instr (.leal (-1) .edi .ecx .edi),
    .instr .std,
    .label .go,
    .instr (.rep .movsb) ]

/-- `memmove`, which leaves the direction flag as its copy needed it. -/
def memmove (start : Core) (dest src n : Word) (fuel : Nat) : Option (Word × Core) :=
  let core := ((start.set .edi dest).set .esi src).set .ecx n
  (exec memmove.code fuel memmove.code core).map fun core => (dest, core)

end SmallOs
