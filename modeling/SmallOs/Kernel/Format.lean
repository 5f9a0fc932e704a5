import SmallOs.Kernel.Console
import SmallOs.Kernel.Strings

/-! The number and format functions of `lib.c`: `strrev`, `itoa`, `puts`, and `printf`. -/

namespace SmallOs

open Foundation

/-- The loop of `strrev`, where the two ends move towards each other. -/
def strrevLoop (s : Nat → Byte) (beg : Nat) : Nat → (Nat → Byte)
  | 0 => s
  | last + 1 =>
    if beg < last + 1 then
      let tmp := s (last + 1)
      let s := Function.update s (last + 1) (s beg)
      strrevLoop (Function.update s beg tmp) (beg + 1) last
    else s

/-- `strrev`, of a string known to end within `bound` bytes. -/
def strrev (s : Nat → Byte) (bound : Nat) : Nat → Byte :=
  -- An empty string has no last character, and the loop is not entered.
  strrevLoop s 0 (strlen s bound - 1)

/-- `lookup`: the characters of the digits. -/
def itoa.lookup : List Byte :=
  ascii ['0', '1', '2', '3', '4', '5', '6', '7', '8', '9', 'A', 'B', 'C', 'D', 'E', 'F', 'G', 'H',
    'I', 'J', 'K', 'L', 'M', 'N', 'O', 'P', 'Q', 'R', 'S', 'T', 'U', 'V', 'W', 'X', 'Y', 'Z']

/-- The digit loop of `itoa`, which leaves the place after the last digit; `none` if it goes on longer. -/
def itoaLoop (radix : Nat) (buf : Nat → Byte) (newbuf newval : Nat) : Nat → Option ((Nat → Byte) × Nat)
  | 0 => none
  | fuel + 1 =>
    if newval > 0 then
      itoaLoop radix (Function.update buf newbuf (itoa.lookup.getD (newval % radix) 0)) (newbuf + 1)
        (newval / radix) fuel
    else some (buf, newbuf)

/-- `itoa`, over a buffer numbered from the pointer it is given; a word has at most 32 digits. -/
def itoa (value : Nat) (buf : Nat → Byte) (radix : Nat) : Option (Nat → Byte) :=
  if value = 0 then some (Function.update (Function.update buf 0 0x30) 1 0)
  else (itoaLoop radix buf 0 value 33).map fun (buf, newbuf) =>
    strrev (Function.update buf newbuf 0) 33

/-- The loop of `puts` from an index on, where `none` means that no NUL is found. -/
def putsFrom (str : Nat → Byte) (s : Kernel) (index : Nat) : Nat → Option (Nat × Kernel)
  | 0 => none
  | fuel + 1 =>
    if str index ≠ 0 then putsFrom str (putc s (str index)) (index + 1) fuel else some (index, s)

/-- `puts`: after as many bytes as there are addresses every one has been looked at. -/
def puts (s : Kernel) (str : Nat → Byte) : Option (Nat × Kernel) :=
  putsFrom str s 0 (2 ^ 32)

/-- What a call of `printf` finds: memory, the format, and the words behind it on the stack. -/
structure FormatCall where
  /-- Memory by address, where the screen is no part of it. -/
  mem : Nat → Byte
  /-- The address of the format. -/
  format : Nat
  args : Nat → Nat
  /-- What an array on the stack holds before it is written. -/
  stack : Nat → Byte

/-- A pointer into memory, as a function of the distance from it. -/
def FormatCall.pointer (call : FormatCall) (address : Nat) : Nat → Byte :=
  fun i => call.mem (u32 (address + i))

/-- The progress of `printf`. -/
structure Printing where
  kernel : Kernel
  /-- The pointer into the format, as the distance from its start. -/
  buf : Nat
  /-- The number of the next argument. -/
  esp : Nat
  /-- The distances at which the format was read. -/
  reads : List Nat

namespace Printing

/-- The character `buf` points at. -/
def char (call : FormatCall) (p : Printing) : Byte :=
  call.pointer call.format p.buf

/-- The next argument. -/
def arg (call : FormatCall) (p : Printing) : Nat :=
  u32 (call.args p.esp)

/-- The character `buf` points at is read. -/
def look (p : Printing) : Printing :=
  { p with reads := p.reads ++ [p.buf] }

/-- `buf++`. -/
def next (p : Printing) : Printing :=
  { p with buf := p.buf + 1 }

/-- `putc` of one character. -/
def putc (p : Printing) (c : Byte) : Printing :=
  { p with kernel := SmallOs.putc p.kernel c }

/-- `puts` of a string, after which one argument is used up. -/
def putsArg (p : Printing) (str : Nat → Byte) : Option Printing :=
  (puts p.kernel str).map fun (_, s) => { p with kernel := s, esp := p.esp + 1 }

end Printing

/-- The `x` conversion. -/
def printHex (call : FormatCall) (p : Printing) (alternate : Bool) : Option Printing := do
  if alternate then
    let conv ← itoa (p.arg call) (fun i => call.stack (8 + i)) 16
    let startingIndex := strlen conv 33
    -- The digits stand from the ninth byte on, and zeros are put before them.
    let convBuf := fun i => if i < 8 then call.stack i else conv (i - 8)
    let convBuf := (List.range' startingIndex (8 - startingIndex)).foldl
      (fun convBuf i => Function.update convBuf i 0x30) convBuf
    p.putsArg fun i => convBuf (startingIndex + i)
  else
    let convBuf ← itoa (p.arg call) call.stack 16
    p.putsArg convBuf

/-- The `u` conversion. -/
def printUnsigned (call : FormatCall) (p : Printing) : Option Printing := do
  let convBuf ← itoa (p.arg call) call.stack 10
  p.putsArg convBuf

/-- The `d` conversion. -/
def printSigned (call : FormatCall) (p : Printing) : Option Printing := do
  if toInt32 (p.arg call) < 0 then
    -- The sign is stored first, and the negation wraps.
    let conv ← itoa (sub32 0 (p.arg call)) (fun i => call.stack (1 + i)) 10
    p.putsArg fun i => if i = 0 then 0x2D else conv (i - 1)
  else
    let convBuf ← itoa (p.arg call) call.stack 10
    p.putsArg convBuf

/-- The switch at `format_char_switch`, where `none` means that it is not left in so many steps. -/
def formatCharSwitch (call : FormatCall) (p : Printing) (alternate : Bool) : Nat → Option Printing
  | 0 => none
  | fuel + 1 =>
    let c := p.char call
    let p := p.look
    if c = 0x25 then some (p.putc 0x25)
    -- The source jumps back with the pointer on the next character.
    else if c = 0x23 then formatCharSwitch call p.next true fuel
    else if c = 0x78 then printHex call p alternate
    else if c = 0x75 then printUnsigned call p
    else if c = 0x64 then printSigned call p
    else if c = 0x63 then
      some { p.putc (UInt8.ofNat (p.arg call)) with esp := p.esp + 1 }
    else if c = 0x73 then p.putsArg (call.pointer (p.arg call))
    -- Every other character is dropped, the terminating NUL too.
    else some p

/-- The loop of `printf`. -/
def printfLoop (call : FormatCall) (p : Printing) : Nat → Option Printing
  | 0 => none
  | fuel + 1 =>
    let c := p.char call
    let p := p.look
    if c = 0 then some p
    else if c = 0x25 then do
      let p ← formatCharSwitch call p.next false fuel
      printfLoop call p.next fuel
    else printfLoop call (p.putc c).next fuel

/-- `printf`, which returns the distance its pointer has moved. -/
def printf (call : FormatCall) (s : Kernel) (fuel : Nat) : Option (Nat × Printing) :=
  (printfLoop call ⟨s, 0, 0, []⟩ fuel).map fun p => (p.buf, p)

end SmallOs
