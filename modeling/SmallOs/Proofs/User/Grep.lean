import Mathlib.Data.List.GetD
import SmallOs.Foundation.Pieces
import SmallOs.Proofs.FileSystem.FileRead
import SmallOs.Proofs.Terminal.Printing
import SmallOs.User.Grep

/-! What `grep` reports of a file: the pieces of its text that contain the pattern. -/

namespace SmallOs

open Foundation

/-- A pattern is found in a piece, where the empty pattern is found nowhere. -/
def Found (pattern piece : List Byte) : Prop :=
  pattern ≠ [] ∧ pattern <:+: piece

instance (pattern piece : List Byte) : Decidable (Found pattern piece) :=
  inferInstanceAs (Decidable (_ ∧ _))

/-- The pieces of a text: its lines, cut wherever one fills the buffer. -/
def grepPieces (piece text : List Byte) : List (List Byte) :=
  pieces 0x0A grepBufsize piece text

/-- The report on a piece in which the pattern is found. -/
def reportOf (name pattern piece : List Byte) : List Byte :=
  if Found pattern piece then name ++ ascii [':'] ++ piece ++ ascii ['\n'] else []

/-- The report on a text. -/
def report (name pattern : List Byte) (found : List (List Byte)) : List Byte :=
  found.flatMap (reportOf name pattern)

@[simp] theorem report_nil (name pattern : List Byte) : report name pattern [] = [] := rfl

@[simp] theorem report_cons (name pattern piece : List Byte) (rest : List (List Byte)) :
    report name pattern (piece :: rest) = reportOf name pattern piece ++ report name pattern rest :=
  rfl

/-- Nothing is found in an empty piece. -/
@[simp] theorem reportOf_empty (name pattern : List Byte) : reportOf name pattern [] = [] :=
  if_neg fun found => found.1 (List.infix_nil.mp found.2)

section Array

/-- An array holds some bytes from an index on. -/
def HoldsAt (data : Nat → Byte) (i : Nat) (bytes : List Byte) : Prop :=
  ∀ k (inside : k < bytes.length), data (i + k) = bytes[k]

variable {data : Nat → Byte} {i : Nat} {bytes : List Byte}

theorem HoldsAt.tail {c : Byte} (holds : HoldsAt data i (c :: bytes)) :
    data i = c ∧ HoldsAt data (i + 1) bytes := by
  refine ⟨holds 0 (by simp), fun k inside => ?_⟩
  have next := holds (k + 1) (by simpa using inside)
  rwa [show i + (k + 1) = i + 1 + k by omega] at next

/-- The front of the bytes is held, and so is the rest behind it. -/
theorem HoldsAt.append {rest : List Byte} (holds : HoldsAt data i (bytes ++ rest)) :
    HoldsAt data i bytes ∧ HoldsAt data (i + bytes.length) rest := by
  constructor
  · intro k inside
    have here := holds k (by simp only [List.length_append]; omega)
    rwa [List.getElem_append_left inside] at here
  · intro k inside
    have here := holds (bytes.length + k) (by simp only [List.length_append]; omega)
    rw [List.getElem_append_right (Nat.le_add_right _ _), ← Nat.add_assoc] at here
    simpa using here

/-- A store beside the bytes leaves them. -/
theorem HoldsAt.update {a : Nat} (holds : HoldsAt data i bytes)
    (apart : a < i ∨ i + bytes.length ≤ a) (c : Byte) :
    HoldsAt (Function.update data a c) i bytes := by
  intro k inside
  rw [Function.update_of_ne (by omega)]
  exact holds k inside

/-- The text of an array ends at its NUL. -/
theorem HoldsAt.text (holds : HoldsAt data i bytes) (solid : 0 ∉ bytes)
    (ends : data (i + bytes.length) = 0) {n : Nat} (within : bytes.length < n) :
    textFrom data i n = bytes := by
  -- The induction follows the bytes, none of which is NUL.
  induction bytes generalizing i n with
  | nil =>
    obtain ⟨m, rfl⟩ : ∃ m, n = m + 1 := ⟨n - 1, by omega⟩
    rw [textFrom_succ, if_neg (by simpa using ends)]
  | cons c bytes ih =>
    obtain ⟨m, rfl⟩ : ∃ m, n = m + 1 := ⟨n - 1, by omega⟩
    obtain ⟨first, rest⟩ := holds.tail
    simp only [List.mem_cons, not_or] at solid
    simp only [List.length_cons] at ends within
    rw [textFrom_succ, first, if_pos fun zero => solid.1 zero.symm,
      ih rest solid.2 (by rwa [show i + 1 + bytes.length = i + (bytes.length + 1) by omega])
        (by omega)]

/-- The bytes before a bound are read up to the bound. -/
theorem HoldsAt.text_cut (holds : HoldsAt data i bytes) (solid : 0 ∉ bytes)
    (ends : data (i + bytes.length) = 0) (n : Nat) : textFrom data i n = bytes.take n := by
  rcases Nat.lt_or_ge bytes.length n with longer | shorter
  · rw [holds.text solid ends longer, List.take_of_length_le (Nat.le_of_lt longer)]
  · induction n generalizing i bytes with
    | zero => simp [textFrom]
    | succ n ih =>
      cases bytes with
      | nil => simp at shorter
      | cons c bytes =>
        obtain ⟨first, rest⟩ := holds.tail
        simp only [List.mem_cons, not_or] at solid
        simp only [List.length_cons] at ends shorter
        rw [textFrom_succ, first, if_pos fun zero => solid.1 zero.symm, List.take_succ_cons,
          ih rest solid.2 (by rwa [show i + 1 + bytes.length = i + (bytes.length + 1) by omega])
            (by omega)]

/-- The copy leaves the bytes at their new place, and what lies behind them as it was. -/
theorem ece391Strcpy_eq {dst fuel : Nat} (holds : HoldsAt data i bytes) (solid : 0 ∉ bytes)
    (ends : data (i + bytes.length) = 0) (down : dst < i) (enough : bytes.length < fuel) :
    HoldsAt (ece391Strcpy data dst i fuel) dst bytes ∧
      (∀ a < dst, ece391Strcpy data dst i fuel a = data a) ∧
      ∀ a, dst + bytes.length < a → ece391Strcpy data dst i fuel a = data a := by
  -- The copy moves down, so a byte is read before the place it stands at is written.
  induction bytes generalizing data dst i fuel with
  | nil =>
    obtain ⟨fuel, rfl⟩ : ∃ rest, fuel = rest + 1 := ⟨fuel - 1, by omega⟩
    have last : ece391Strcpy data dst i (fuel + 1) = Function.update data dst (data i) :=
      if_neg (by simpa using ends)
    rw [last]
    exact ⟨fun k inside => absurd inside (Nat.not_lt_zero k),
      fun a below => Function.update_of_ne (by omega) _ _,
      fun a above => Function.update_of_ne (by simp only [List.length_nil] at above; omega) _ _⟩
  | cons c bytes ih =>
    obtain ⟨fuel, rfl⟩ : ∃ rest, fuel = rest + 1 := ⟨fuel - 1, by omega⟩
    obtain ⟨first, rest⟩ := holds.tail
    simp only [List.mem_cons, not_or] at solid
    simp only [List.length_cons] at ends enough
    have turn : ece391Strcpy data dst i (fuel + 1) =
        ece391Strcpy (Function.update data dst (data i)) (dst + 1) (i + 1) fuel :=
      if_pos fun zero => solid.1 (zero.symm.trans first)
    have later : HoldsAt (Function.update data dst (data i)) (i + 1) bytes :=
      rest.update (.inl (by omega)) _
    have other : i + 1 + bytes.length ≠ dst := by omega
    obtain ⟨copied, below, above⟩ := ih later solid.2
      (by rwa [Function.update_of_ne other, show i + 1 + bytes.length =
        i + (bytes.length + 1) by omega]) (show dst + 1 < i + 1 by omega)
      (show bytes.length < fuel by omega)
    rw [turn]
    refine ⟨fun k inside => ?_, fun a less => ?_, fun a more => ?_⟩
    · cases k with
      | zero => exact (below dst (by omega)).trans ((Function.update_self _ _ _).trans first)
      | succ k =>
        rw [show dst + (k + 1) = dst + 1 + k by omega]
        exact copied k (by simpa using inside)
    · rw [below a (by omega), Function.update_of_ne (by omega)]
    · simp only [List.length_cons] at more
      rw [above a (by omega), Function.update_of_ne (by omega)]

/-- The scan for the end of a line passes the bytes before its newline. -/
theorem lineEndFrom_eq (holds : HoldsAt data i bytes) :
    lineEndFrom data i bytes.length = i + (bytes.takeWhile (· ≠ 0x0A)).length := by
  induction bytes generalizing i with
  | nil => rfl
  | cons c bytes ih =>
    obtain ⟨first, rest⟩ := holds.tail
    rw [List.length_cons, lineEndFrom, first]
    by_cases newline : c = 0x0A
    · simp [newline]
    · rw [if_pos newline, ih rest, List.takeWhile_cons_of_pos (by simpa using newline),
        List.length_cons]
      omega

end Array

section Find

variable {data : Nat → Byte} {pattern line : List Byte}

/-- A bounded comparison finds nothing exactly when the two texts are equal. -/
theorem ece391StrncmpFrom_eq_zero (s1 s2 : Nat → Byte) (i n : Nat) :
    ece391StrncmpFrom s1 s2 i n = 0 ↔ textFrom s1 i n = textFrom s2 i n := by
  -- The loop leaves one turn earlier than the kernel's, which decides nothing more by then.
  induction n generalizing i with
  | zero => exact iff_of_true rfl rfl
  | succ n ih =>
    rw [textFrom_succ, textFrom_succ, ece391StrncmpFrom]
    by_cases same : s1 i = s2 i
    · rw [if_pos same, ← same]
      by_cases ends : s1 i = 0
      · rw [if_pos (.inl ends), if_neg (not_not.mpr ends), if_neg (not_not.mpr ends)]
        exact iff_of_true rfl rfl
      · rw [if_pos ends, if_pos ends, List.cons.injEq, ← ih]
        by_cases last : n = 0
        · subst last
          simp [ece391StrncmpFrom]
        · rw [if_neg (by simp [ends, last])]
          exact ⟨fun rest => ⟨rfl, rest⟩, And.right⟩
    · rw [if_neg same]
      have apart : (s1 i).toNat ≠ (s2 i).toNat := fun equal => same (UInt8.toNat_inj.mp equal)
      refine iff_of_false (by omega) fun texts => ?_
      -- Different bytes start different texts, and so do a byte and the end.
      by_cases left : s1 i = 0
      · by_cases right : s2 i = 0
        · exact same (left.trans right.symm)
        · simp [left, right] at texts
      · by_cases right : s2 i = 0
        · simp [left, right] at texts
        · rw [if_pos left, if_pos right, List.cons.injEq] at texts
          exact same texts.1

/-- The test at one place of a line: the pattern, which is not empty, starts there. -/
theorem matches_iff {text : List Byte} {i j : Nat} (holds : HoldsAt data i text) (solid : 0 ∉ text)
    (ends : data (i + text.length) = 0) (plain : 0 ∉ pattern) (inside : j < text.length) :
    (cstr pattern 0 = data (i + j) ∧
        ece391StrncmpFrom (fun k => data (i + j + k)) (cstr pattern) 0 pattern.length = 0) ↔
      pattern ≠ [] ∧ pattern <+: text.drop j := by
  have here : data (i + j) = text[j] := holds j inside
  have rest : HoldsAt (fun k => data (i + j + k)) 0 (text.drop j) := by
    intro k within
    simp only [List.length_drop] at within
    simp only [Nat.zero_add, List.getElem_drop]
    rw [Nat.add_assoc]
    exact holds (j + k) (by omega)
  have stops : data (i + j + (0 + (text.drop j).length)) = 0 := by
    rw [Nat.zero_add, List.length_drop, show i + j + (text.length - j) = i + text.length by omega]
    exact ends
  have texts := rest.text_cut (fun member => solid (List.mem_of_mem_drop member)) stops
    pattern.length
  rw [ece391StrncmpFrom_eq_zero, texts, textFrom_cstr plain, List.drop_zero, List.take_length,
    List.prefix_iff_eq_take]
  constructor
  · rintro ⟨first, same⟩
    refine ⟨?_, same.symm⟩
    rintro rfl
    -- The empty pattern starts with its NUL, and a line has none.
    have nul : text[j] = 0 := here.symm.trans first.symm
    exact solid (nul ▸ List.getElem_mem inside)
  · rintro ⟨some, same⟩
    refine ⟨?_, same.symm⟩
    obtain ⟨c, later, rfl⟩ := List.exists_cons_of_ne_nil some
    rw [List.drop_eq_getElem_cons inside, List.length_cons, List.take_succ_cons,
      List.cons.injEq] at same
    rw [here, ← same.1]
    rfl

/-- The loop over a line finds the pattern exactly where it is a part of the line. -/
theorem findsFrom_iff {i j : Nat} (holds : HoldsAt data i line) (solid : 0 ∉ line)
    (ends : data (i + line.length) = 0) (plain : 0 ∉ pattern) (within : j ≤ line.length) :
    findsFrom data (cstr pattern) pattern.length (i + j) (line.length - j) = true ↔
      pattern ≠ [] ∧ ∃ k, j ≤ k ∧ k < line.length ∧ pattern <+: line.drop k := by
  -- The induction is on the places that are left.
  induction left : line.length - j generalizing j with
  | zero =>
    refine iff_of_false Bool.false_ne_true ?_
    rintro ⟨-, k, above, below, -⟩
    omega
  | succ left ih =>
    have next := ih (j := j + 1) (by omega) (by omega)
    have inside : j < line.length := by omega
    have here := matches_iff holds solid ends plain inside
    rw [findsFrom]
    split
    · rename_i found
      obtain ⟨some, start⟩ := here.mp found
      exact iff_of_true rfl ⟨some, j, Nat.le_refl j, inside, start⟩
    · rename_i missed
      have none := mt here.mpr missed
      rw [Nat.add_assoc, next]
      constructor
      · rintro ⟨some, k, above, rest⟩
        exact ⟨some, k, by omega, rest⟩
      · rintro ⟨some, k, above, below, start⟩
        refine ⟨some, k, ?_, below, start⟩
        -- It does not start at the first of the places.
        rcases Nat.eq_or_lt_of_le above with rfl | more
        · exact absurd ⟨some, start⟩ none
        · exact more

theorem finds_iff {i : Nat} (holds : HoldsAt data i line) (solid : 0 ∉ line)
    (ends : data (i + line.length) = 0) (plain : 0 ∉ pattern) :
    findsFrom data (cstr pattern) pattern.length i line.length = true ↔ Found pattern line := by
  have loop := findsFrom_iff holds solid ends plain (Nat.zero_le _)
  rw [Nat.add_zero, Nat.sub_zero] at loop
  rw [loop]
  refine and_congr_right fun some => ?_
  constructor
  · rintro ⟨k, -, -, start⟩
    exact start.isInfix.trans (List.drop_suffix k line).isInfix
  · rintro ⟨front, back, rfl⟩
    -- A pattern that is not empty starts before the end of the line.
    have positive := List.length_pos_of_ne_nil some
    refine ⟨front.length, Nat.zero_le _, ?_, ⟨back, by simp⟩⟩
    simp only [List.length_append]
    omega

end Find

section Print

variable {s middle next : Kernel}

/-- What a write to the standard output needs. -/
structure CanPrint (s : Kernel) : Prop where
  range : s.positions.InRange
  mapped : Mapped s.displayed.curPcb
  opened : ((s.pcbs s.displayed.curPcb).fd 1).flags ≠ 0
  table : ((s.pcbs s.displayed.curPcb).fd 1).opTable = some .stdout

namespace CanPrint

/-- CanPrint leaves everything it needs. -/
theorem after {text : List Byte} (ready : CanPrint s) (printed : Printed s text next) :
    CanPrint next := by
  have place : next.displayed.curPcb = s.displayed.curPcb := by
    unfold Kernel.displayed
    rw [printed.shown, printed.curPcb]
  refine ⟨printed.range, ?_, ?_, ?_⟩
  · rw [place]
    exact ready.mapped
  · rw [place, printed.pcbs]
    exact ready.opened
  · rw [place, printed.pcbs]
    exact ready.table

theorem fdputs (ready : CanPrint s) (env : Env) (frame : CallFrame) (text : List Byte) : ∃ next,
    ece391Fdputs env frame s text = some next ∧ Printed s text next ∧ CanPrint next := by
  have printed : Printed s text (terminalWrite s text text.length).2 := by
    have written := terminalWrite_printed ready.range text text.length
    rwa [Int.toNat_natCast, map_cstr] at written
  refine ⟨_, ?_, printed, ready.after printed⟩
  have number : ¬ ((1 : Int) < 0 ∨ (1 : Int) > maxFd) := by decide
  have place : Int.toNat 1 = 1 := rfl
  simp only [ece391Fdputs, userCall, syscall, writeFile, number, ready.mapped, place, ready.opened,
    ready.table, writeOp, plainReturn, if_true, if_false, Option.bind_eq_bind, Option.bind_some,
    Option.map_some]

/-- A line is reported in one piece. -/
theorem reportLine (ready : CanPrint s) (env : Env) (frame : CallFrame) (name line : List Byte) :
    ∃ next,
    reportLine env frame s name line = some next ∧
      Printed s (name ++ ascii [':'] ++ line ++ ascii ['\n']) next ∧ CanPrint next := by
  -- The four texts are printed one after the other.
  obtain ⟨s1, put1, printed1, ready1⟩ := ready.fdputs env frame name
  obtain ⟨s2, put2, printed2, ready2⟩ := ready1.fdputs env frame (ascii [':'])
  obtain ⟨s3, put3, printed3, ready3⟩ := ready2.fdputs env frame line
  obtain ⟨s4, put4, printed4, ready4⟩ := ready3.fdputs env frame (ascii ['\n'])
  refine ⟨s4, ?_, ((printed1.trans printed2).trans printed3).trans printed4, ready4⟩
  simp only [SmallOs.reportLine, put1, put2, put3, put4, Option.bind_eq_bind, Option.bind_some]

end CanPrint

end Print

section Lines

variable {s : Kernel} {buf : GrepBuffer} {cnt : Int} {name pattern : List Byte}

/-- The buffer between two reads: a line that has begun, and no more. -/
structure Carried (buf : GrepBuffer) (carried : List Byte) : Prop where
  holds : HoldsAt buf.data 0 carried
  last : buf.last = carried.length
  below : carried.length < grepBufsize
  plain : 0x0A ∉ carried
  solid : 0 ∉ carried
  /-- The byte behind the buffer, which is looked at when the buffer is full, ends no line. -/
  guard : buf.data grepBufsize ≠ 0x0A

/-- What may follow the buffer in the file: nothing, unless the buffer was filled. -/
structure Follows (last : Nat) (cnt : Int) (later : List Byte) : Prop where
  ended : cnt = 0 → later = []
  short : last < grepBufsize → later = []

/-- A line that is ended in the array is searched, and reported where the pattern is found. -/
theorem searchLine_eq {data : Nat → Byte} {i : Nat} {line : List Byte} (ready : CanPrint s)
    (env : Env) (frame : CallFrame) (name : List Byte) (plain : 0 ∉ pattern)
    (holds : HoldsAt data i line) (solid : 0 ∉ line) (ends : data (i + line.length) = 0)
    (fits : line.length ≤ grepBufsize) : ∃ next,
    searchLine env frame (cstr pattern) pattern.length name s data i (i + line.length) = some next ∧
      Printed s (reportOf name pattern line) next ∧ CanPrint next := by
  have found := finds_iff holds solid ends plain
  unfold searchLine reportOf
  rw [Nat.add_sub_cancel_left, holds.text solid ends (Nat.lt_succ_of_le fits)]
  split
  · rename_i yes
    rw [if_pos (found.mp yes)]
    exact ready.reportLine env frame name line
  · rename_i no
    rw [if_neg fun yes => no (found.mpr yes)]
    exact ⟨s, rfl, .refl ready.range, ready⟩

/-- What the inner loop leaves of a buffer: the start of its last line, the rest being reported. -/
structure Searched (name pattern : List Byte) (s : Kernel) (last : Nat) (cnt : Int)
    (rest : List Byte) (after : GrepBuffer) (next : Kernel) : Prop where
  ready : CanPrint next
  left : ∃ carried out, Carried after carried ∧ (cnt = 0 → carried = []) ∧ Printed s out next ∧
    ∀ later, Follows last cnt later → report name pattern (grepPieces [] (rest ++ later)) =
      out ++ report name pattern (grepPieces carried later)

/-- The end of a line is stored, and its bytes and the guard stay as they are. -/
theorem holdsAt_ended {data : Nat → Byte} {i : Nat} {line : List Byte} (holds : HoldsAt data i line)
    (guard : data grepBufsize ≠ 0x0A) :
    HoldsAt (Function.update data (i + line.length) 0) i line ∧
      Function.update data (i + line.length) 0 grepBufsize ≠ 0x0A := by
  refine ⟨holds.update (.inr (Nat.le_refl _)) 0, ?_⟩
  by_cases here : grepBufsize = i + line.length
  · rw [here, Function.update_self]
    decide
  · rwa [Function.update_of_ne here]

/-- A turn of the inner loop at a line that ends in the buffer. -/
theorem searchLines_line {lineStart : Nat} {line rest : List Byte} (ready : CanPrint s) (env : Env)
    (frame : CallFrame) (name : List Byte) (cnt : Int) (fuel : Nat)
    (plain : 0 ∉ pattern) (holds : HoldsAt buf.data lineStart (line ++ 0x0A :: rest))
    (ends : lineStart + (line ++ 0x0A :: rest).length = buf.last) (fits : buf.last ≤ grepBufsize)
    (solid : 0 ∉ line) (unbroken : 0x0A ∉ line) : ∃ next,
    searchLines env frame (cstr pattern) pattern.length name cnt (fuel + 1) s buf lineStart =
      (if rest = [] then
        some (⟨Function.update buf.data (lineStart + line.length) 0, 0⟩, next)
      else searchLines env frame (cstr pattern) pattern.length name cnt fuel next
        ⟨Function.update buf.data (lineStart + line.length) 0, buf.last⟩
        (lineStart + line.length + 1)) ∧
    Printed s (reportOf name pattern line) next ∧ CanPrint next := by
  have size : buf.last - lineStart = (line ++ 0x0A :: rest).length := by omega
  have scan := lineEndFrom_eq holds
  have front : ∀ c ∈ line, decide (c ≠ (0x0A : Byte)) = true := by
    intro c member
    simp only [decide_eq_true_eq]
    rintro rfl
    exact unbroken member
  rw [List.takeWhile_append_of_pos front, List.takeWhile_cons_of_neg (by decide),
    List.append_nil] at scan
  -- The line is ended by its own newline, so it is not carried over.
  obtain ⟨first, second⟩ := holds.append
  have newline : buf.data (lineStart + line.length) = 0x0A := second.tail.1
  simp only [List.length_append, List.length_cons] at ends
  obtain ⟨next, searched, printed, ready⟩ := searchLine_eq ready env frame name plain
    (first.update (.inr (Nat.le_refl _)) 0) solid (Function.update_self _ _ _) (by omega)
  refine ⟨next, ?_, printed, ready⟩
  rw [searchLines, size, scan]
  simp only [newline, ne_eq, not_true_eq_false, false_and, if_false]
  rw [Option.bind_eq_bind, searched, Option.bind_some]
  by_cases last : rest = []
  · subst last
    rw [if_pos rfl, if_pos (by simp only [List.length_nil] at ends; omega)]
  · have positive := List.length_pos_of_ne_nil last
    rw [if_neg last, if_neg (by omega)]

/-- A turn of the inner loop at a line that goes on behind the buffer, or behind the file. -/
theorem searchLines_tail {lineStart : Nat} {rest : List Byte} (ready : CanPrint s) (env : Env)
    (frame : CallFrame) (name : List Byte) (cnt : Int) (fuel : Nat)
    (plain : 0 ∉ pattern) (holds : HoldsAt buf.data lineStart rest)
    (ends : lineStart + rest.length = buf.last) (fits : buf.last ≤ grepBufsize) (solid : 0 ∉ rest)
    (unbroken : 0x0A ∉ rest) (guard : buf.data grepBufsize ≠ 0x0A)
    (content : rest = [] → lineStart = 0) : ∃ after next,
    searchLines env frame (cstr pattern) pattern.length name cnt (fuel + 1) s buf lineStart =
        some (after, next) ∧ Searched name pattern s buf.last cnt rest after next := by
  have size : buf.last - lineStart = rest.length := by omega
  have scan := lineEndFrom_eq holds
  have whole : rest.takeWhile (· ≠ 0x0A) = rest := by
    refine List.takeWhile_eq_self_iff.mpr fun c member => ?_
    simp only [decide_eq_true_eq]
    rintro rfl
    exact unbroken member
  rw [whole] at scan
  obtain ⟨kept, guarded⟩ := holdsAt_ended holds guard
  rw [searchLines, size, scan]
  simp only
  split
  · -- The line is moved to the start of the buffer, which it does not fill.
    rename_i carries
    obtain ⟨copied, -, behind⟩ := ece391Strcpy_eq kept solid (Function.update_self _ _ _)
      (Nat.pos_of_ne_zero carries.2.2) (show rest.length < grepBufsize + 1 by omega)
    have below : rest.length < grepBufsize := by
      have start := Nat.pos_of_ne_zero carries.2.2
      omega
    refine ⟨_, s, rfl, ready, rest, [], ⟨copied, rfl, below, unbroken, solid, ?_⟩,
      fun none => absurd none carries.2.1, .refl ready.range, fun later _ => ?_⟩
    · have past : 0 + rest.length < grepBufsize := by omega
      exact fun same => guarded ((behind grepBufsize past).symm.trans same)
    · rw [grepPieces, pieces_open later unbroken (by simpa using below)]
      rfl
  · rename_i searches
    obtain ⟨next, searched, printed, ready⟩ := searchLine_eq ready env frame name plain kept solid
      (Function.update_self _ _ _) (by omega)
    rw [Option.bind_eq_bind]
    rw [searched, Option.bind_some, if_pos (by omega)]
    refine ⟨_, next, rfl, ready, [], _, ⟨fun k inside => absurd inside (Nat.not_lt_zero k), rfl,
      by decide, List.not_mem_nil, List.not_mem_nil, guarded⟩, fun _ => rfl, printed,
      fun later follows => ?_⟩
    -- A line that is searched fills the buffer, or is the last one of the file.
    by_cases none : rest = []
    · subst none
      simp
    rcases Nat.eq_or_lt_of_le (show rest.length ≤ grepBufsize by omega) with full | below
    · rw [grepPieces, pieces_full later unbroken full none]
      rfl
    · have ended : later = [] := by
        by_cases zero : cnt = 0
        · exact follows.ended zero
        · refine follows.short ?_
          by_contra filled
          have last : buf.last = grepBufsize := by omega
          have place : lineStart + rest.length = grepBufsize := by omega
          have start : lineStart ≠ 0 := by omega
          rw [place] at searches
          exact searches ⟨guard, zero, start⟩
      subst ended
      rw [List.append_nil, grepPieces, pieces_last unbroken below none]
      simp [grepPieces, pieces]

/-- The inner loop reports the lines of the buffer, and keeps the one that goes on behind it. -/
theorem searchLines_eq {fuel lineStart : Nat} {rest : List Byte} (ready : CanPrint s) (env : Env)
    (frame : CallFrame) (name : List Byte) (cnt : Int)
    (plain : 0 ∉ pattern) (holds : HoldsAt buf.data lineStart rest)
    (ends : lineStart + rest.length = buf.last) (fits : buf.last ≤ grepBufsize) (solid : 0 ∉ rest)
    (guard : buf.data grepBufsize ≠ 0x0A) (content : rest = [] → lineStart = 0)
    (enough : rest.length < fuel) : ∃ after next,
    searchLines env frame (cstr pattern) pattern.length name cnt fuel s buf lineStart =
        some (after, next) ∧ Searched name pattern s buf.last cnt rest after next := by
  -- The induction is on the fuel, of which every line takes one.
  induction fuel generalizing s buf lineStart rest with
  | zero => omega
  | succ fuel ih =>
    by_cases newline : 0x0A ∈ rest
    · obtain ⟨line, more, rfl, unbroken⟩ := List.eq_append_cons_of_mem newline
      simp only [List.mem_append, List.mem_cons, not_or] at solid
      obtain ⟨next, turn, printed, ready⟩ := searchLines_line ready env frame name cnt fuel plain
        holds ends fits solid.1 unbroken
      obtain ⟨first, second⟩ := holds.append
      have guarded := (holdsAt_ended first guard).2
      simp only [List.length_append, List.length_cons] at ends enough
      have piece : ∀ later, grepPieces [] ((line ++ 0x0A :: more) ++ later) =
          line :: grepPieces [] (more ++ later) := by
        intro later
        rw [List.append_assoc, List.cons_append]
        exact pieces_line _ unbroken (by omega)
      rw [turn]
      by_cases last : more = []
      · subst last
        rw [if_pos rfl]
        refine ⟨_, next, rfl, ready, [], _, ⟨fun k inside => absurd inside (Nat.not_lt_zero k),
          rfl, by decide, List.not_mem_nil, List.not_mem_nil, guarded⟩, fun _ => rfl, printed,
          fun later _ => ?_⟩
        rw [piece, report_cons, List.nil_append]
      · rw [if_neg last]
        have rest : HoldsAt (GrepBuffer.mk (Function.update buf.data (lineStart + line.length) 0)
            buf.last).data (lineStart + line.length + 1) more :=
          second.tail.2.update (.inl (by omega)) 0
        obtain ⟨after, final, searched, last, carried, out, carries, empty, reported, rule⟩ :=
          ih ready rest (by simp only; omega) fits solid.2.2 guarded (fun none => absurd none last)
            (by omega)
        refine ⟨after, final, searched, last, carried, _, carries, empty,
          printed.trans reported, fun later follows => ?_⟩
        rw [piece, report_cons, rule later follows, List.append_assoc]
    · exact searchLines_tail ready env frame name cnt fuel plain holds ends fits solid newline guard
        content

end Lines

section File

variable {env : Env} {s middle next : Kernel} {fd inode position : Nat} {pattern : List Byte}

/-- The running process may print, and reads a regular file through a descriptor of its own. -/
structure Reads (s : Kernel) (fd inode position : Nat) : Prop where
  print : CanPrint s
  mapped : Mapped s.scheduled.curPcb
  opened : (s.curPcb.fd fd).flags ≠ 0
  table : (s.curPcb.fd fd).opTable = some .file
  stands : StandsAt s fd inode position

/-- A text has come to the screen of the running process, and every other screen is as it was. -/
structure Reported (s : Kernel) (text : List Byte) (next : Kernel) : Prop where
  running : next.currTerminal = s.currTerminal
  sheets : ∀ u, next.sheet u = if u = s.currTerminal then (s.sheet u).prints text else s.sheet u

theorem Printed.reported {text : List Byte} (printed : Printed s text next) :
    Reported s text next :=
  ⟨printed.running, printed.sheets⟩

theorem Reported.trans {first second : List Byte} (front : Reported s first middle)
    (back : Reported middle second next) : Reported s (first ++ second) next := by
  refine ⟨back.running.trans front.running, fun u => ?_⟩
  rw [back.sheets, front.running, front.sheets]
  split
  · simp [Sheet.prints, List.foldl_append]
  · rfl

namespace Reads

/-- Printing moves no descriptor. -/
theorem after {text : List Byte} (reads : Reads s fd inode position)
    (printed : Printed s text next) : Reads next fd inode position := by
  have place : next.scheduled.curPcb = s.scheduled.curPcb := by
    unfold Kernel.scheduled
    rw [printed.running, printed.curPcb]
  have block : next.curPcb = s.curPcb := by
    unfold Kernel.curPcb
    rw [place, printed.pcbs]
  refine ⟨reads.print.after printed, ?_, ?_, ?_, ⟨?_, ?_⟩⟩
  · rw [place]
    exact reads.mapped
  · rw [block]
    exact reads.opened
  · rw [block]
    exact reads.table
  · rw [block]
    exact reads.stands.inode
  · rw [block]
    exact reads.stands.position

/-- Moving the descriptor changes nothing else that is needed. -/
theorem moved (reads : Reads s fd inode position) (file : 2 ≤ fd) (target : Nat) :
    Reads (setFilePosition s fd target) fd inode target := by
  -- The standard output is another descriptor, even where it is one of the same process.
  have output : ∀ address, ((setFilePosition s fd target).pcbs address).fd 1 =
      (s.pcbs address).fd 1 := by
    intro address
    by_cases here : address = s.scheduled.curPcb
    · subst here
      simp only [setFilePosition, Kernel.setPcb, Function.update_self]
      exact Function.update_of_ne (by omega) _ _
    · simp [setFilePosition, Kernel.setPcb, here]
  have descriptor : (setFilePosition s fd target).curPcb.fd fd =
      { s.curPcb.fd fd with filePosition := target } := by
    simp [setFilePosition, Kernel.setPcb, Kernel.curPcb, Kernel.scheduled]
  refine ⟨⟨reads.print.range, reads.print.mapped, ?_, ?_⟩, reads.mapped, ?_, ?_,
    setFilePosition_standsAt reads.stands target⟩
  · exact (congrArg FileDescriptor.flags (output _)).symm ▸ reads.print.opened
  · exact (congrArg FileDescriptor.opTable (output _)).trans reads.print.table
  · rw [descriptor]
    exact reads.opened
  · rw [descriptor]
    exact reads.table

/-- A read of the program is a call of the file driver. -/
theorem read (reads : Reads s fd inode position) (low : fd ≤ 7) (env : Env) (frame : CallFrame)
    (address : Nat) (nbytes : Int) :
    userCall env frame s (.read fd address nbytes) =
      some ((fileRead env.image s fd nbytes).ret, (fileRead env.image s fd nbytes).bytes,
        (fileRead env.image s fd nbytes).kernel) := by
  have number : ¬ ((fd : Int) < 0 ∨ (fd : Int) > maxFd) := by
    simp only [maxFd]
    omega
  have place : Int.toNat (fd : Int) = fd := Int.toNat_natCast fd
  simp only [userCall, syscall, readFile, number, reads.mapped, place, reads.opened, reads.table,
    readOp, if_true, if_false, Option.bind_eq_bind, Option.bind_some]

end Reads

/-- The file driver moves the descriptor, and nothing else. -/
theorem fileRead_kernel (img : Image) (s : Kernel) (fd : Nat) (nbytes : Int) :
    ∃ target, (fileRead img s fd nbytes).kernel = setFilePosition s fd target := by
  unfold fileRead
  simp only
  split
  · exact ⟨_, rfl⟩
  · exact ⟨_, rfl⟩

/-- The file driver stores no more than was asked for. -/
theorem fileRead_bytes_length {img : Image} (known : inode ≤ img.numInode)
    (stands : StandsAt s fd inode position) (count : Nat) (fits : count < 2 ^ 32) :
    (fileRead img s fd count).bytes.length ≤ count := by
  have stored : (fileRead img s fd count).bytes = (readData img inode position count).bytes := by
    have request : ofInt32 (count : Int) = count := ofInt32_eq_toNat (by omega) (by omega)
    unfold fileRead
    simp only [stands.inode, stands.position, request]
    split
    · rfl
    · rfl
  rw [stored]
  by_cases inside : position < img.inodeLength inode
  · rw [(readData_eq count known inside).2.1, Image.fileBytes_length]
    exact Nat.min_le_left _ _
  · rw [readData_ended _ known (Nat.le_of_not_lt inside)]
    exact Nat.zero_le _

/-- What a read stores is behind what was carried over. -/
theorem Carried.stored {buf : GrepBuffer} {carried : List Byte} (carries : Carried buf carried)
    {bytes : List Byte} (fits : carried.length + bytes.length ≤ grepBufsize) :
    HoldsAt (storeRead buf.data buf.last bytes) 0 (carried ++ bytes) ∧
      storeRead buf.data buf.last bytes grepBufsize ≠ 0x0A := by
  have last := carries.last
  unfold storeRead
  constructor
  · intro k inside
    simp only [List.length_append] at inside
    simp only [Nat.zero_add]
    by_cases old : k < carried.length
    · have here := carries.holds k old
      rw [Nat.zero_add] at here
      rw [if_neg (by omega), here, List.getElem_append_left old]
    · have new : k - carried.length < bytes.length := by omega
      rw [if_pos (by omega), List.getElem_append_right (Nat.le_of_not_lt old), last,
        List.getD_eq_getElem?_getD, List.getElem?_eq_getElem new]
      rfl
  · have below := carries.below
    have behind : bytes.length ≤ grepBufsize - buf.last := by omega
    rw [if_pos (by omega), List.getD_eq_default _ _ behind]
    exact carries.guard

/-- What was carried over is the piece that is open. -/
theorem Carried.pieces {buf : GrepBuffer} {carried : List Byte} (carries : Carried buf carried)
    (text : List Byte) : grepPieces [] (carried ++ text) = grepPieces carried text :=
  pieces_open text carries.plain (by simpa using carries.below)

/-- What `grep` leaves of a file from a position on, after it searched what it was given of it. -/
structure FileSearched (img : Image) (name pattern : List Byte) (s : Kernel)
    (fd inode position : Nat) (carried : List Byte) (next : Kernel) (delivered : List Byte) : Prop
    where
  /-- The bytes that were searched are the next ones of the file. -/
  front : delivered <+: img.fileBytes inode position (img.inodeLength inode - position)
  /-- What is missing would have fitted into the buffer. -/
  missing : img.inodeLength inode < position + delivered.length + grepBufsize
  reported : Reported s (report name pattern (grepPieces carried delivered)) next
  reads : ∃ target, Reads next fd inode target

/-- A turn of the outer loop: a read, and the inner loop over what the buffer holds then. -/
theorem searchFile_turn {buf : GrepBuffer} {carried bytes : List Byte} {count target : Nat}
    (env : Env) (frame : CallFrame) (address : Nat) (name : List Byte) (fuel : Nat)
    (plain : 0 ∉ pattern) (carries : Carried buf carried)
    (call : userCall env frame s (.read fd (address + buf.last) ((grepBufsize : Int) - buf.last)) =
      some ((count : Int), bytes, middle))
    (reads : Reads middle fd inode target) (solid : 0 ∉ bytes.take count)
    (counted : count ≤ bytes.length) (fits : carried.length + bytes.length ≤ grepBufsize) :
    ∃ after next,
      searchFile env frame address (cstr pattern) pattern.length name fd (fuel + 1) s buf =
        (if (count : Int) = 0 then some (true, next)
        else searchFile env frame address (cstr pattern) pattern.length name fd fuel next after) ∧
      Searched name pattern middle (carried.length + count) count (carried ++ bytes.take count)
        after next := by
  obtain ⟨stored, guard⟩ := carries.stored fits
  -- Only the bytes that were reported count as read.
  have holds : HoldsAt (GrepBuffer.mk (storeRead buf.data buf.last bytes)
      (carried.length + count)).data 0 (carried ++ bytes.take count) := by
    rw [← List.take_append_drop count bytes, ← List.append_assoc] at stored
    simpa using stored.append.1
  have length : (carried ++ bytes.take count).length = carried.length + count := by
    simp only [List.length_append, List.length_take]
    omega
  have last : ((buf.last : Int) + count).toNat = carried.length + count := by
    rw [carries.last]
    omega
  have text : 0 ∉ carried ++ bytes.take count := by
    simp only [List.mem_append, not_or]
    exact ⟨carries.solid, solid⟩
  obtain ⟨after, next, turn, searched⟩ := searchLines_eq reads.print env frame name
    (count : Int) plain holds (by simp only [length, Nat.zero_add])
    (show carried.length + count ≤ grepBufsize by omega) text guard (fun _ => rfl)
    (show (carried ++ bytes.take count).length < grepBufsize + 1 by omega)
  refine ⟨after, next, ?_, searched⟩
  have valid : ¬ (count : Int) = -1 := by omega
  rw [searchFile, call]
  simp only [Option.bind_eq_bind, Option.bind_some, valid, if_false, last, turn]

/-- The next read of the program: a request that fills the buffer, and a descriptor that moves. -/
theorem Reads.request {buf : GrepBuffer} {carried : List Byte} (reads : Reads s fd inode position)
    (file : 2 ≤ fd ∧ fd ≤ 7) (carries : Carried buf carried) (env : Env) (frame : CallFrame)
    (address : Nat) : ∃ room target : Nat, 0 < room ∧ carried.length + room = grepBufsize ∧
      userCall env frame s (.read fd (address + buf.last) ((grepBufsize : Int) - buf.last)) =
        some ((fileRead env.image s fd room).ret, (fileRead env.image s fd room).bytes,
          (fileRead env.image s fd room).kernel) ∧
      (fileRead env.image s fd room).kernel = setFilePosition s fd target := by
  have below := carries.below
  have last := carries.last
  have asked : (grepBufsize : Int) - buf.last = (grepBufsize - carried.length : Nat) := by omega
  obtain ⟨target, moved⟩ := fileRead_kernel env.image s fd (grepBufsize - carried.length : Nat)
  refine ⟨grepBufsize - carried.length, target, by omega, by omega, ?_, moved⟩
  rw [asked, reads.read file.2]

/-- Moving a descriptor brings nothing to a screen. -/
theorem reported_setFilePosition (s : Kernel) (fd target : Nat) :
    Reported s [] (setFilePosition s fd target) := by
  refine ⟨rfl, fun u => ?_⟩
  split
  · rfl
  · rfl

/-- A turn that is told of no byte is the last one, and the open line is searched in it. -/
theorem searchFile_end {buf : GrepBuffer} {carried bytes : List Byte} {target : Nat}
    (name : List Byte) (frame : CallFrame) (address fuel : Nat) (plain : 0 ∉ pattern)
    (reads : Reads s fd inode position) (file : 2 ≤ fd ∧ fd ≤ 7) (carries : Carried buf carried)
    (call : userCall env frame s (.read fd (address + buf.last) ((grepBufsize : Int) - buf.last)) =
      some (0, bytes, setFilePosition s fd target))
    (fits : carried.length + bytes.length ≤ grepBufsize) : ∃ next,
      searchFile env frame address (cstr pattern) pattern.length name fd (fuel + 1) s buf =
        some (true, next) ∧
      Reported s (report name pattern (grepPieces carried [])) next ∧
      ∃ target, Reads next fd inode target := by
  have after := reads.moved file.1 target
  have none : userCall env frame s (.read fd (address + buf.last)
      ((grepBufsize : Int) - buf.last)) =
        some (((0 : Nat) : Int), bytes, setFilePosition s fd target) := call
  obtain ⟨last, next, turn, -, rest, out, -, empty, printed, rule⟩ :=
    searchFile_turn env frame address name fuel plain carries none after (by simp)
      (Nat.zero_le _) fits
  have text := rule [] ⟨fun _ => rfl, fun _ => rfl⟩
  rw [empty rfl, List.take_zero, List.append_nil, carries.pieces] at text
  refine ⟨next, ?_, ?_, target, after.after printed⟩
  · rw [turn]
    exact if_pos rfl
  · rw [text]
    simpa [grepPieces, pieces] using (reported_setFilePosition s fd target).trans printed.reported

/-- What was searched after a read was searched after what the read handed out. -/
theorem FileSearched.after {img : Image} {name carried rest : List Byte} {count : Nat}
    {delivered out : List Byte}
    (searched : FileSearched img name pattern middle fd inode (position + count) rest next
      delivered) (within : position + count ≤ img.inodeLength inode)
    (reported : Reported s out middle)
    (rule : report name pattern (grepPieces carried (img.fileBytes inode position count ++
      delivered)) = out ++ report name pattern (grepPieces rest delivered)) :
    FileSearched img name pattern s fd inode position carried next
      (img.fileBytes inode position count ++ delivered) := by
  have whole : img.fileBytes inode position (img.inodeLength inode - position) =
      img.fileBytes inode position count ++
        img.fileBytes inode (position + count) (img.inodeLength inode - (position + count)) := by
    rw [← img.fileBytes_append]
    congr 1
    omega
  refine ⟨?_, ?_, ?_, searched.reads⟩
  · rw [whole]
    exact (List.prefix_append_right_inj _).mpr searched.front
  · have missing := searched.missing
    simp only [List.length_append, Image.fileBytes_length]
    omega
  · rw [rule]
    exact reported.trans searched.reported

/-- The outer loop searches what the file driver hands out, and comes to an end. -/
theorem searchFile_eq {buf : GrepBuffer} {carried : List Byte} {fuel : Nat} (name : List Byte)
    (frame : CallFrame) (address : Nat) (known : inode ≤ env.image.numInode)
    (size : env.image.inodeLength inode < 2 ^ 31) (file : 2 ≤ fd ∧ fd ≤ 7) (plain : 0 ∉ pattern)
    (solid : ∀ k < env.image.inodeLength inode, env.image.fileByte inode k ≠ 0)
    (reads : Reads s fd inode position) (before : position ≤ env.image.inodeLength inode)
    (carries : Carried buf carried) (enough : env.image.inodeLength inode - position < fuel) :
    ∃ next delivered,
      searchFile env frame address (cstr pattern) pattern.length name fd fuel s buf =
        some (true, next) ∧
      FileSearched env.image name pattern s fd inode position carried next delivered ∧
      (position = 0 → carried = [] → env.image.inodeLength inode ≤ grepBufsize →
        delivered.length = env.image.inodeLength inode) := by
  -- The induction is on the fuel, as every read but the last one moves the descriptor.
  induction fuel generalizing s buf carried position with
  | zero => omega
  | succ fuel ih =>
    have bound : grepBufsize < 2 ^ 31 := by decide
    obtain ⟨room, target, positive, filled, call, moved⟩ :=
      reads.request file carries env frame address
    have stored := fileRead_bytes_length known reads.stands room (by omega)
    rw [moved] at call
    by_cases more : position < env.image.inodeLength inode ∧
        position + min room (env.image.inodeLength inode) ≤ env.image.inodeLength inode
    · -- The request is served, and the position moves on.
      obtain ⟨inside, within⟩ := more
      obtain ⟨ret, bytes, stands⟩ := fileRead_within known size reads.stands inside
        (show (0 : Int) < room by omega) (by omega) (by simpa using within)
      rw [Int.toNat_natCast] at ret bytes stands
      rw [moved] at stands
      rw [ret, bytes] at call
      have place : target = position + min room (env.image.inodeLength inode) :=
        (setFilePosition_standsAt reads.stands target).position.symm.trans stands.position
      generalize counted : min room (env.image.inodeLength inode) = count at *
      subst place
      have chunk : (env.image.fileBytes inode position count).take count =
          env.image.fileBytes inode position count := List.take_of_length_le (by simp)
      have text : 0 ∉ env.image.fileBytes inode position count := by
        simp only [Image.fileBytes, List.mem_map, List.mem_range, not_exists, not_and]
        exact fun k below => solid (position + k) (by omega)
      have after := reads.moved file.1 (position + count)
      obtain ⟨buffer, middle, turn, -, rest, out, carriesRest, -, printed, rule⟩ :=
        searchFile_turn env frame address name fuel plain carries call after (by rwa [chunk])
          (by simp) (by simp only [Image.fileBytes_length]; omega)
      rw [chunk] at rule
      obtain ⟨next, delivered, loop, searched, -⟩ :=
        ih (after.after printed) (by omega) carriesRest (by omega)
      -- After the last byte of the file nothing more is handed out.
      have last : position + count = env.image.inodeLength inode → delivered = [] := by
        intro ended
        have front := searched.front
        rw [ended, Nat.sub_self] at front
        exact List.prefix_nil.mp front
      -- A short read is one of the whole file.
      have follows : Follows (carried.length + count) count delivered :=
        ⟨fun none => by omega, fun short => last (by omega)⟩
      have joined := rule delivered follows
      rw [List.append_assoc, carries.pieces] at joined
      refine ⟨next, _, ?_, searched.after (by omega)
        ((reported_setFilePosition s fd (position + count)).trans printed.reported) joined, ?_⟩
      · rw [turn, if_neg (by omega)]
        exact loop
      · intro first none small
        subst none
        simp only [List.length_nil, Nat.zero_add] at filled
        rw [last (by omega), List.append_nil, Image.fileBytes_length]
        omega
    · -- Nothing is reported as read, at the end of the file or past it.
      have ret : (fileRead env.image s fd room).ret = 0 := by
        rcases Nat.eq_or_lt_of_le before with ended | inside
        · subst ended
          exact fileRead_end known size reads.stands
        · exact fileRead_past known size reads.stands inside (by omega) (by omega)
            (by rw [Int.toNat_natCast]; omega)
      rw [ret] at call
      obtain ⟨next, loop, reported, readsNext⟩ :=
        searchFile_end name frame address fuel plain reads file carries call (by omega)
      refine ⟨next, [], loop, ⟨List.nil_prefix, ?_, reported, readsNext⟩, ?_⟩
      · simp only [List.length_nil]
        omega
      · intro first none small
        subst none first
        simp only [List.length_nil, Nat.zero_add] at filled ⊢
        omega

end File

section Call

variable {env : Env} {s next : Kernel} {fd : Nat}

/-- The descriptor a program is given stands at the beginning of its file. -/
theorem open_reads {d : Dentry} {name : List Byte} (frame : CallFrame) (print : CanPrint s)
    (mapped : Mapped s.scheduled.curPcb) (named : name ≠ [])
    (found : readDentryByName env.image (cstr name) = some d)
    (regular : tableFor d.fileType = .file)
    (free : ([2, 3, 4, 5, 6, 7].find? fun i => (s.curPcb.fd i).flags = 0) = some fd) :
    (2 ≤ fd ∧ fd ≤ 7) ∧
    userCall env frame s (.open name) =
        some ((fd : Int), [], setDescriptor s fd (openDescriptor d)) ∧
      Reads (setDescriptor s fd (openDescriptor d)) fd d.inode 0 := by
  have member := List.mem_of_find?_eq_some free
  have low : 2 ≤ fd ∧ fd ≤ 7 := by
    simp only [List.mem_cons, List.not_mem_nil, or_false] at member
    omega
  -- The standard output is another descriptor.
  have output : ∀ address, ((setDescriptor s fd (openDescriptor d)).pcbs address).fd 1 =
      (s.pcbs address).fd 1 := by
    intro address
    by_cases here : address = s.scheduled.curPcb
    · subst here
      simp only [setDescriptor, Kernel.setPcb, Function.update_self]
      exact Function.update_of_ne (by omega) _ _
    · simp [setDescriptor, Kernel.setPcb, here]
  have descriptor : (setDescriptor s fd (openDescriptor d)).curPcb.fd fd =
      openDescriptor d (s.curPcb.fd fd) := by
    simp [setDescriptor, Kernel.setPcb, Kernel.curPcb, Kernel.scheduled]
  have opened : openDescriptor d (s.curPcb.fd fd) =
      { s.curPcb.fd fd with
        filePosition := 0, opTable := some .file, inode := d.inode, flags := 1 } := by
    simp only [openDescriptor, regular]
  refine ⟨low, ?_, ⟨print.range, print.mapped, ?_, ?_⟩, mapped, ?_, ?_, ⟨?_, ?_⟩⟩
  · simp only [userCall, syscall, openFile, named, found, mapped, free, if_true, if_false,
      plainReturn]
  · exact (congrArg FileDescriptor.flags (output _)).symm ▸ print.opened
  · exact (congrArg FileDescriptor.opTable (output _)).trans print.table
  · rw [descriptor, opened]
    exact Nat.one_ne_zero
  · rw [descriptor, opened]
  · rw [descriptor, opened]
  · rw [descriptor, opened]

/-- Closing a regular file succeeds, and changes no screen. -/
theorem close_reads {inode target : Nat} (env : Env) (frame : CallFrame)
    (file : 2 ≤ fd ∧ fd ≤ 7) (reads : Reads s fd inode target) : ∃ next,
    userCall env frame s (.close fd) = some (0, [], next) ∧ Reported s [] next := by
  have number : ¬ ((fd : Int) < 0 ∨ (fd : Int) > maxFd) := by
    simp only [maxFd]
    omega
  have used : ¬ ((s.curPcb.fd fd).flags = 0 ∨ (fd : Int) = 0 ∨ (fd : Int) = 1) := by
    have opened := reads.opened
    omega
  have place : Int.toNat (fd : Int) = fd := Int.toNat_natCast fd
  have table : ((setDescriptor s fd fun descriptor => { descriptor with flags := 0 }).curPcb.fd
      fd).opTable = some .file := by
    have kept : ((setDescriptor s fd fun descriptor => { descriptor with flags := 0 }).curPcb.fd
        fd).opTable = (s.curPcb.fd fd).opTable := by
      simp [setDescriptor, Kernel.setPcb, Kernel.curPcb, Kernel.scheduled]
    exact kept.trans reads.table
  refine ⟨setDescriptor s fd fun descriptor => { descriptor with flags := 0 }, ?_, rfl, fun u => ?_⟩
  · simp only [userCall, syscall, closeFile, number, reads.mapped, place, used, table, if_true,
      if_false, Option.map_some, plainReturn, closeOp]
  · split
    · rfl
    · rfl

/-- The report on the pieces is that on the lines, where no line fills the buffer. -/
theorem report_lines {text : List Byte} (name pattern : List Byte)
    (short : ∀ line ∈ text.splitOn 0x0A, line.length < grepBufsize) :
    report name pattern (grepPieces [] text) = report name pattern (text.splitOn 0x0A) := by
  -- Only what is found is reported, and nothing is found in an empty line.
  have picked : ∀ found : List (List Byte), report name pattern found =
      report name pattern (found.filter fun piece => Found pattern piece) := by
    intro found
    induction found with
    | nil => rfl
    | cons piece rest ih =>
      by_cases yes : Found pattern piece
      · simp [yes, ih]
      · simp [yes, ih, reportOf]
  have head : ∀ lines : List (List Byte), lines.modifyHead ([] ++ ·) = lines := by
    intro lines
    cases lines with
    | nil => rfl
    | cons line rest => rfl
  have same : (pieces 0x0A grepBufsize [] text).filter (fun piece => decide (Found pattern piece)) =
      ((text.splitOn 0x0A).modifyHead ([] ++ ·)).filter fun piece => decide (Found pattern piece) :=
    pieces_of_short (decide_eq_false fun found => found.1 (List.infix_nil.mp found.2)) []
      (by rwa [head])
  rw [picked, picked (text.splitOn 0x0A), grepPieces, same, head]

/--
`do_one_file` on a text file reports the pieces that contain the pattern, in their order.

What it searches is what `file_read` hands out: all of a file that fits the buffer, and of a longer
one all but less than a buffer at its end. The report comes to the screen of the running process,
whether it is displayed or not, and every other screen is as it was.
-/
theorem grep_reports {d : Dentry} {name : List Byte} (frame : CallFrame) (address : Nat)
    (stack : Nat → Byte) (pattern : List Byte) (fuel : Nat) (wellFormed : env.image.WellFormed)
    (print : CanPrint s) (mapped : Mapped s.scheduled.curPcb) (named : name ≠ [])
    (found : readDentryByName env.image (cstr name) = some d)
    (regular : tableFor d.fileType = .file)
    (known : d.inode < env.image.numInode) (free : ∃ i, 2 ≤ i ∧ i ≤ 7 ∧ (s.curPcb.fd i).flags = 0)
    (plain : 0 ∉ pattern)
    (solid : ∀ k < env.image.inodeLength d.inode, env.image.fileByte d.inode k ≠ 0)
    (guard : stack grepBufsize ≠ 0x0A) (enough : env.image.inodeLength d.inode < fuel) :
    ∃ next searched,
      doOneFile env frame address stack pattern name fuel s = some (0, next) ∧
      searched <+: env.image.fileBytes d.inode 0 (env.image.inodeLength d.inode) ∧
      env.image.inodeLength d.inode < searched.length + grepBufsize ∧
      (env.image.inodeLength d.inode ≤ grepBufsize →
        searched = env.image.fileBytes d.inode 0 (env.image.inodeLength d.inode)) ∧
      Reported s (report name pattern (grepPieces [] searched)) next ∧
      ((∀ line ∈ searched.splitOn 0x0A, line.length < grepBufsize) →
        Reported s (report name pattern (searched.splitOn 0x0A)) next) := by
  have size : env.image.inodeLength d.inode < 2 ^ 31 := by
    have bound := wellFormed.lengths d.inode known
    simp only [blockSize] at bound
    omega
  obtain ⟨i, low, high, unused⟩ := free
  have available : ([2, 3, 4, 5, 6, 7].find? fun i => (s.curPcb.fd i).flags = 0).isSome := by
    refine List.find?_isSome.mpr ⟨i, ?_, by simpa using unused⟩
    simp only [List.mem_cons, List.not_mem_nil, or_false]
    omega
  obtain ⟨fd, first⟩ := Option.isSome_iff_exists.mp available
  obtain ⟨file, opened, reads⟩ := open_reads frame print mapped named found regular first
  -- Nothing is carried into the first read.
  have empty : Carried ⟨stack, 0⟩ [] := ⟨fun k inside => absurd inside (Nat.not_lt_zero k), rfl,
    by decide, List.not_mem_nil, List.not_mem_nil, guard⟩
  obtain ⟨middle, searched, loop, ⟨front, missing, reported, target, reads⟩, whole⟩ :=
    searchFile_eq name frame address (Nat.le_of_lt known) size file plain solid reads
      (Nat.zero_le _) empty (by simpa using enough)
  obtain ⟨next, closed, still⟩ := close_reads env frame file reads
  have start : Reported s [] (setDescriptor s fd (openDescriptor d)) :=
    ⟨rfl, fun u => by
      split
      · rfl
      · rfl⟩
  have all : Reported s (report name pattern (grepPieces [] searched)) next := by
    have steps := (start.trans reported).trans still
    rwa [List.nil_append, List.append_nil] at steps
  rw [Nat.sub_zero] at front
  refine ⟨next, searched, ?_, front, by omega, fun small => ?_, all, fun short => ?_⟩
  · have valid : ¬ (fd : Int) = -1 := by omega
    simp only [doOneFile, opened, loop, closed, valid, if_true, if_false, Option.bind_eq_bind,
      Option.bind_some]
    rfl
  · exact front.eq_of_length (by rw [whole rfl rfl small, Image.fileBytes_length])
  · rw [← report_lines name pattern short]
    exact all

/-- The sample's shell searches its file, whose five bytes are the first five letters. -/
theorem grep_reports_sample : ∃ next searched,
    doOneFile sampleEnv sampleFrame 0 (fun _ => 0) (ascii ['c', 'd']) sampleFile 6 sampleBooted =
        some (0, next) ∧
      searched = ascii ['a', 'b', 'c', 'd', 'e'] ∧
      Reported sampleBooted (ascii ['a', ':', 'a', 'b', 'c', 'd', 'e', '\n']) next := by
  have five : sampleEnv.image.inodeLength 1 = 5 := by decide +kernel
  have letters : sampleEnv.image.fileBytes 1 0 5 = ascii ['a', 'b', 'c', 'd', 'e'] := by
    decide +kernel
  have found : readDentryByName sampleEnv.image (cstr sampleFile) =
      some ⟨sampleFile ++ List.replicate 31 0, 2, 1⟩ := by decide +kernel
  have print : CanPrint sampleBooted :=
    ⟨sample_reachable.inRange, by decide +kernel, by decide +kernel, by decide +kernel⟩
  have solid : ∀ k < sampleEnv.image.inodeLength 1, sampleEnv.image.fileByte 1 k ≠ 0 := by
    rw [five]
    decide +kernel
  obtain ⟨next, searched, done, -, -, whole, reported, -⟩ := grep_reports sampleFrame 0 (fun _ => 0)
    (ascii ['c', 'd']) 6 sampleImage_wellFormed print (by decide +kernel) (by decide) found rfl
    (by decide +kernel) ⟨2, by decide, by decide, by decide +kernel⟩ (by decide) solid (by decide)
    (by rw [five]; decide)
  rw [five, letters] at whole
  have all := whole (by decide)
  subst all
  have text : report sampleFile (ascii ['c', 'd'])
      (grepPieces [] (ascii ['a', 'b', 'c', 'd', 'e'])) =
      ascii ['a', ':', 'a', 'b', 'c', 'd', 'e', '\n'] := by decide +kernel
  rw [text] at reported
  exact ⟨next, _, done, rfl, reported⟩

end Call

end SmallOs
