import SmallOs.Kernel.Syscall

/-! The search of one file in `ece391grep.c`, with the functions of `ece391support.c` it calls. -/

namespace SmallOs

/-- `BUFSIZE` of `ece391grep.c`. -/
def grepBufsize : Nat := 1024

/-- The loop of `ece391_strncmp` from offset `i` on, with the characters still to compare. -/
def ece391StrncmpFrom (s1 s2 : Nat → Byte) (i : Nat) : Nat → Int
  | 0 => 0
  | n + 1 =>
    if s1 i = s2 i then
      if s1 i = 0 ∨ n = 0 then 0 else ece391StrncmpFrom s1 s2 (i + 1) n
    else (s1 i).toNat - (s2 i).toNat

/-- `ece391_strcpy` within one array, where the fuel bounds the bytes that are copied. -/
def ece391Strcpy (data : Nat → Byte) (dst src : Nat) : Nat → Nat → Byte
  | 0 => data
  | fuel + 1 =>
    -- The byte that was copied is tested, and a NUL is copied as well.
    if data src ≠ 0 then
      ece391Strcpy (Function.update data dst (data src)) (dst + 1) (src + 1) fuel
    else Function.update data dst (data src)

/-- A system call that returns to the program: its value, the bytes it stores, and the new state. -/
def userCall (env : Env) (frame : CallFrame) (s : Kernel) (call : Call) :
    Option (Int × List Byte × Kernel) :=
  match syscall env s frame call with
  | some ⟨.returned eax, stores, next⟩ => some (eax, stores, next)
  | _ => none

/-- `ece391_fdputs` to the standard output, whose result is dropped. -/
def ece391Fdputs (env : Env) (frame : CallFrame) (s : Kernel) (text : List Byte) : Option Kernel :=
  (userCall env frame s (.write 1 (some text) text.length)).map fun result => result.2.2

/-- The array `data`, and the variable `last`. -/
structure GrepBuffer where
  data : Nat → Byte
  last : Nat

/-- The array after a read stored bytes from an index on. -/
def storeRead (data : Nat → Byte) (start : Nat) (bytes : List Byte) : Nat → Byte :=
  fun i => if start ≤ i then bytes.getD (i - start) (data i) else data i

/-- The scan for the end of a line, with the bytes still to look at. -/
def lineEndFrom (data : Nat → Byte) (lineEnd : Nat) : Nat → Nat
  | 0 => lineEnd
  | left + 1 => if data lineEnd ≠ 0x0A then lineEndFrom data (lineEnd + 1) left else lineEnd

/-- The `for` loop over the bytes of a line, which ends at the first match. -/
def findsFrom (data pattern : Nat → Byte) (sLen check : Nat) : Nat → Bool
  | 0 => false
  | left + 1 =>
    if pattern 0 = data check ∧
        ece391StrncmpFrom (fun k => data (check + k)) pattern 0 sLen = 0 then true
    else findsFrom data pattern sLen (check + 1) left

section Search

variable (env : Env) (frame : CallFrame)

/-- The four texts that report a line. -/
def reportLine (s : Kernel) (fname line : List Byte) : Option Kernel := do
  let s ← ece391Fdputs env frame s fname
  let s ← ece391Fdputs env frame s (ascii [':'])
  let s ← ece391Fdputs env frame s line
  ece391Fdputs env frame s (ascii ['\n'])

/-- The search of one line, which is reported at its first match. -/
def searchLine (pattern : Nat → Byte) (sLen : Nat) (fname : List Byte) (s : Kernel)
    (data : Nat → Byte) (lineStart lineEnd : Nat) : Option Kernel :=
  if findsFrom data pattern sLen lineStart (lineEnd - lineStart) then
    reportLine env frame s fname (textFrom data lineStart (grepBufsize + 1))
  else some s

/-- The inner loop of `do_one_file` from `line_start` on, with fuel for the lines. -/
def searchLines (pattern : Nat → Byte) (sLen : Nat) (fname : List Byte) (cnt : Int) :
    Nat → Kernel → GrepBuffer → Nat → Option (GrepBuffer × Kernel)
  | 0, _, _, _ => none
  | fuel + 1, s, buf, lineStart =>
    let lineEnd := lineEndFrom buf.data lineStart (buf.last - lineStart)
    -- Both branches end the line with a NUL.
    let data := Function.update buf.data lineEnd 0
    if buf.data lineEnd ≠ 0x0A ∧ cnt ≠ 0 ∧ lineStart ≠ 0 then
      some (⟨ece391Strcpy data 0 lineStart (grepBufsize + 1), buf.last - lineStart⟩, s)
    else do
      let s ← searchLine env frame pattern sLen fname s data lineStart lineEnd
      let lineStart := lineEnd + 1
      if lineStart ≥ buf.last then some (⟨data, 0⟩, s)
      else searchLines pattern sLen fname cnt fuel s ⟨data, buf.last⟩ lineStart

/-- The outer loop of `do_one_file`, with fuel for the reads: whether all of them succeeded. -/
def searchFile (address : Nat) (pattern : Nat → Byte) (sLen : Nat) (fname : List Byte) (fd : Int) :
    Nat → Kernel → GrepBuffer → Option (Bool × Kernel)
  | 0, _, _ => none
  | fuel + 1, s, buf => do
    let (cnt, bytes, s) ←
      userCall env frame s (.read fd (address + buf.last) ((grepBufsize : Int) - buf.last))
    if cnt = -1 then
      let s ← ece391Fdputs env frame s (ascii ['f', 'i', 'l', 'e', ' ', 'r', 'e', 'a', 'd', ' ',
        'f', 'a', 'i', 'l', 'e', 'd', '\n'])
      some (false, s)
    else
      let (buf, s) ← searchLines env frame pattern sLen fname cnt (grepBufsize + 1) s
        ⟨storeRead buf.data buf.last bytes, ((buf.last : Int) + cnt).toNat⟩ 0
      if cnt = 0 then some (true, s)
      else searchFile address pattern sLen fname fd fuel s buf

/-- `do_one_file`, with the place of its array and what stands in it before the first read. -/
def doOneFile (address : Nat) (stack : Nat → Byte) (pattern fname : List Byte) (fuel : Nat)
    (s : Kernel) : Option (Int × Kernel) := do
  let (fd, _, s) ← userCall env frame s (.open fname)
  if fd = -1 then
    let s ← ece391Fdputs env frame s (ascii ['f', 'i', 'l', 'e', ' ', 'o', 'p', 'e', 'n', ' ',
      'f', 'a', 'i', 'l', 'e', 'd', '\n'])
    some (-1, s)
  else
    let (complete, s) ← searchFile env frame address (cstr pattern) pattern.length fname fd fuel s
      ⟨stack, 0⟩
    if complete then
      let (closed, _, s) ← userCall env frame s (.close fd)
      if closed = -1 then
        let s ← ece391Fdputs env frame s (ascii ['f', 'i', 'l', 'e', ' ', 'c', 'l', 'o', 's',
          'e', ' ', 'f', 'a', 'i', 'l', 'e', 'd', '\n'])
        some (-1, s)
      else some (0, s)
    else some (-1, s)

end Search

end SmallOs
