import Mathlib.Tactic.SplitIfs
import SmallOs.User.Frames

/-! The lights of two pictures: one for every cell that is not blank in both, row by row. -/

namespace SmallOs

/-- The lines of a text, with what follows its last newline as a line of its own. -/
def linesOf (text : List Byte) : List (List Byte) :=
  text.splitOn 0x0A

/-- A cell of a line, which is blank from its end on. -/
def cellOf (line : List Byte) (col : Nat) : Byte :=
  line.getD col 0x20

/-- The light of a cell, unless both pictures are blank there. -/
def cellBlink (blinkStruct : Blink) (row col : Nat) (on off : Byte) : Option Blink :=
  if on = 0x20 ∧ off = 0x20 then none
  else some
    { blinkStruct with
      onChar := on
      offChar := off
      onLength := 15
      offLength := 15
      location := BitVec.ofNat 16 (row * 80 + col + 40) }

/-- The lights of a row from a column on. -/
def rowBlinks (blinkStruct : Blink) (row col : Nat) (line0 line1 : List Byte) : List Blink :=
  (List.range (max line0.length line1.length)).filterMap fun k =>
    cellBlink blinkStruct row (col + k) (cellOf line0 k) (cellOf line1 k)

/-- The lights of two pictures from a row on. -/
def pictureBlinks (blinkStruct : Blink) (row : Nat) (rows0 rows1 : List (List Byte)) : List Blink :=
  (List.range (max rows0.length rows1.length)).flatMap fun k =>
    rowBlinks blinkStruct (row + k) 0 (rows0.getD k []) (rows1.getD k [])

/-- What is left of a line, and the lines behind it, while a file is read. -/
inductive FrameFile.InRow : FrameFile → List Byte → List (List Byte) → Prop where
  | within {rest line : List Byte} {later : List (List Byte)} {c : Byte} (more : c ≠ 0x0A)
      (lines : linesOf rest = line :: later) : InRow ⟨rest, c, false⟩ line later
  | behind (rest : List Byte) : InRow ⟨rest, 0x0A, false⟩ [] (linesOf rest)
  | ended (rest : List Byte) : InRow ⟨rest, 0x0A, true⟩ [] []

/-- The lines that are left of a file between two rows. -/
inductive FrameFile.AtRow : FrameFile → List (List Byte) → Prop where
  | more (rest : List Byte) : AtRow ⟨rest, 0x30, false⟩ (linesOf rest)
  | ended (rest : List Byte) : AtRow ⟨rest, 0x0A, true⟩ []

namespace FrameFile

variable {file : FrameFile} {line : List Byte} {later : List (List Byte)}

/-- A read takes the next cell of the line, or finds its end. -/
theorem InRow.read (within : InRow file line later) :
    InRow file.read line.tail later ∧ (file.read.c = 0x0A ↔ line = []) ∧
      (line ≠ [] → file.read.c = cellOf line 0) := by
  cases within with
  | @within rest line later c more lines =>
    simp only [FrameFile.read, more, if_false]
    cases rest with
    | nil =>
      -- Only the empty line is left of a file without bytes.
      cases lines
      exact ⟨.ended [], by simp⟩
    | cons b rest =>
      by_cases newline : b = 0x0A
      · subst newline
        simp only [linesOf, List.splitOn_cons_eq_if_modifyHead, beq_self_eq_true, if_true,
          List.cons.injEq] at lines
        obtain ⟨rfl, rfl⟩ := lines
        exact ⟨.behind rest, by simp⟩
      · cases split : linesOf rest with
        | nil => exact absurd split (List.splitOn_ne_nil _ _)
        | cons first others =>
          unfold linesOf at lines split
          rw [List.splitOn_cons_eq_if_modifyHead, if_neg (by simpa using newline), split,
            List.modifyHead_cons, List.cons.injEq] at lines
          obtain ⟨rfl, rfl⟩ := lines
          exact ⟨.within newline split, by simp [newline], fun _ => rfl⟩
  | behind rest => exact ⟨.behind rest, by simp [FrameFile.read], fun no => absurd rfl no⟩
  | ended rest => exact ⟨.ended rest, by simp [FrameFile.read], fun no => absurd rfl no⟩

/-- Between two rows the next line begins, or the file has ended. -/
theorem InRow.nextRow (within : InRow file line later) (last : file.c = 0x0A) :
    AtRow file.nextRow later := by
  cases within with
  | within more lines => exact absurd last more
  | behind rest => exact .more rest
  | ended rest => exact .ended rest

/-- A row starts with the first line that is left, or blank. -/
theorem AtRow.inRow {rows : List (List Byte)} (at_ : AtRow file rows) :
    InRow file (rows.headD []) rows.tail := by
  cases at_ with
  | more rest =>
    cases lines : linesOf rest with
    | nil => exact absurd lines (List.splitOn_ne_nil _ _)
    | cons first others => exact .within (by decide) lines
  | ended rest => exact .ended rest

/-- A file has ended exactly when it has no more lines. -/
theorem AtRow.eof_iff {rows : List (List Byte)} (at_ : AtRow file rows) :
    file.eof = true ↔ rows = [] := by
  cases at_ with
  | more rest => simp [linesOf]
  | ended rest => simp

end FrameFile

/-- A line that has ended is blank. -/
@[simp] theorem cellOf_nil (col : Nat) : cellOf [] col = 0x20 := by
  simp [cellOf]

/-- The next cell of a line is the first one of what is behind its first cell. -/
theorem cellOf_succ (line : List Byte) (col : Nat) : cellOf line (col + 1) = cellOf line.tail col := by
  cases line with
  | nil => simp
  | cons b line => rfl

/-- A file shows the first cell of what is left of its line. -/
theorem FrameFile.InRow.face {file : FrameFile} {line : List Byte} {later : List (List Byte)}
    (within : InRow file line later) :
    (if file.read.c = 0x0A then 0x20 else file.read.c) = cellOf line 0 ∧
      (file.read.c ≠ 0x20 ∧ file.read.c ≠ 0x0A ↔ cellOf line 0 ≠ 0x20) := by
  obtain ⟨-, last, shows⟩ := within.read
  by_cases ended : line = []
  · subst ended
    simp [last.mpr rfl]
  · have more : file.read.c ≠ 0x0A := fun newline => ended (last.mp newline)
    rw [if_neg more, shows ended]
    rw [shows ended] at more
    exact ⟨rfl, fun both => both.1, fun visible => ⟨visible, more⟩⟩

/-- A cell is put up exactly when one of the two pictures is not blank there. -/
theorem frameBlink_eq (blinkStruct : Blink) (row col : Nat) {file0 file1 : FrameFile}
    {line0 line1 : List Byte} {later0 later1 : List (List Byte)}
    (first : file0.InRow line0 later0) (second : file1.InRow line1 later1) :
    (if (file0.read.c ≠ 0x20 ∧ file0.read.c ≠ 0x0A) ∨ (file1.read.c ≠ 0x20 ∧ file1.read.c ≠ 0x0A)
      then some (frameBlink blinkStruct row col file0.read.c file1.read.c) else none) =
      cellBlink blinkStruct row col (cellOf line0 0) (cellOf line1 0) := by
  obtain ⟨face0, visible0⟩ := first.face
  obtain ⟨face1, visible1⟩ := second.face
  simp only [visible0, visible1, frameBlink, face0, face1, cellBlink]
  -- The two tests are each other's negation.
  by_cases blank : cellOf line0 0 = 0x20 ∧ cellOf line1 0 = 0x20
  · rw [if_pos blank, if_neg (by simp [blank.1, blank.2])]
  · rw [if_neg blank, if_pos (by tauto)]

/-- Of two lists that are not both empty, the longer one loses an element with both heads. -/
theorem max_length_tail {α : Type*} {first second : List α} (more : ¬ (first = [] ∧ second = [])) :
    max first.length second.length = max first.tail.length second.tail.length + 1 := by
  cases first <;> cases second <;> simp at more ⊢

/-- A row of two lines begins with its first cell. -/
theorem rowBlinks_cons (blinkStruct : Blink) (row col : Nat) {line0 line1 : List Byte}
    (more : ¬ (line0 = [] ∧ line1 = [])) :
    rowBlinks blinkStruct row col line0 line1 =
      (cellBlink blinkStruct row col (cellOf line0 0) (cellOf line1 0)).toList ++
        rowBlinks blinkStruct row (col + 1) line0.tail line1.tail := by
  have shifted : ((fun k => cellBlink blinkStruct row (col + k) (cellOf line0 k) (cellOf line1 k)) ∘
      Nat.succ) = fun k => cellBlink blinkStruct row (col + 1 + k) (cellOf line0.tail k)
        (cellOf line1.tail k) := by
    funext k
    have moved : col + Nat.succ k = col + 1 + k := by omega
    rw [Function.comp_apply, moved, cellOf_succ, cellOf_succ]
  unfold rowBlinks
  rw [max_length_tail more, List.range_succ_eq_map, List.filterMap_cons, List.filterMap_map, shifted,
    Nat.add_zero]
  cases cellBlink blinkStruct row col (cellOf line0 0) (cellOf line1 0) <;> rfl

/-- The inner loop puts up the lights of what is left of two lines. -/
theorem frameRow_eq (blinkStruct : Blink) (row : Nat) {line0 line1 : List Byte}
    {later0 later1 : List (List Byte)} {file0 file1 : FrameFile} {fuel : Nat} (col : Nat)
    (first : file0.InRow line0 later0) (second : file1.InRow line1 later1)
    (enough : max line0.length line1.length < fuel) :
    ∃ last0 last1, frameRow blinkStruct row fuel file0 file1 col =
        some (rowBlinks blinkStruct row col line0 line1, last0, last1) ∧
      last0.nextRow.AtRow later0 ∧ last1.nextRow.AtRow later1 := by
  -- Each turn takes a cell off both lines, until both have ended.
  induction fuel generalizing line0 line1 file0 file1 col with
  | zero => omega
  | succ fuel ih =>
    obtain ⟨next0, end0, -⟩ := first.read
    obtain ⟨next1, end1, -⟩ := second.read
    rw [frameRow]
    by_cases both : line0 = [] ∧ line1 = []
    · obtain ⟨rfl, rfl⟩ := both
      rw [if_pos ⟨end0.mpr rfl, end1.mpr rfl⟩]
      exact ⟨_, _, rfl, next0.nextRow (end0.mpr rfl), next1.nextRow (end1.mpr rfl)⟩
    · rw [if_neg fun ends => both ⟨end0.mp ends.1, end1.mp ends.2⟩]
      have shorter := max_length_tail both
      obtain ⟨last0, last1, rest, after0, after1⟩ := ih (col + 1) next0 next1 (by omega)
      refine ⟨last0, last1, ?_, after0, after1⟩
      have cell := frameBlink_eq blinkStruct row col first second
      rw [rest, rowBlinks_cons blinkStruct row col both, ← cell]
      simp only [Option.bind_eq_bind, Option.bind_some]
      split_ifs <;> rfl

/-- The lights of two pictures begin with those of their first lines. -/
theorem pictureBlinks_cons (blinkStruct : Blink) (row : Nat) {rows0 rows1 : List (List Byte)}
    (more : ¬ (rows0 = [] ∧ rows1 = [])) :
    pictureBlinks blinkStruct row rows0 rows1 =
      rowBlinks blinkStruct row 0 (rows0.headD []) (rows1.headD []) ++
        pictureBlinks blinkStruct (row + 1) rows0.tail rows1.tail := by
  have next : ∀ (rows : List (List Byte)) (k : Nat), rows.getD (k + 1) [] = rows.tail.getD k [] :=
    fun rows k => by cases rows <;> rfl
  have head : ∀ rows : List (List Byte), rows.getD 0 [] = rows.headD [] := fun rows => by
    cases rows <;> rfl
  unfold pictureBlinks
  rw [max_length_tail more, List.range_succ_eq_map, List.flatMap_cons, List.flatMap_map, head, head,
    Nat.add_zero]
  congr 2
  funext k
  have moved : row + (k + 1) = row + 1 + k := by omega
  rw [next, next, moved]

/-- The outer loop puts up the lights of what is left of two pictures. -/
theorem frameRows_eq (blinkStruct : Blink) {cells fuel : Nat} {rows0 rows1 : List (List Byte)}
    {file0 file1 : FrameFile} (row : Nat) (first : file0.AtRow rows0) (second : file1.AtRow rows1)
    (narrow0 : ∀ line ∈ rows0, line.length < cells) (narrow1 : ∀ line ∈ rows1, line.length < cells)
    (positive : 0 < cells) (enough : max rows0.length rows1.length < fuel) :
    frameRows blinkStruct cells fuel file0 file1 row =
      some (pictureBlinks blinkStruct row rows0 rows1) := by
  induction fuel generalizing rows0 rows1 file0 file1 row with
  | zero => omega
  | succ fuel ih =>
    rw [frameRows]
    by_cases both : rows0 = [] ∧ rows1 = []
    · rw [if_pos ⟨first.eof_iff.mpr both.1, second.eof_iff.mpr both.2⟩, both.1, both.2]
      rfl
    · rw [if_neg fun ends => both ⟨first.eof_iff.mp ends.1, second.eof_iff.mp ends.2⟩]
      have short : ∀ rows : List (List Byte), (∀ line ∈ rows, line.length < cells) →
          (rows.headD []).length < cells := fun rows narrow => by
        cases rows with
        | nil => exact positive
        | cons line rows => exact narrow line List.mem_cons_self
      obtain ⟨last0, last1, done, after0, after1⟩ := frameRow_eq blinkStruct row 0 first.inRow
        second.inRow (max_lt (short rows0 narrow0) (short rows1 narrow1))
      have fewer := max_length_tail both
      have rest := ih (row + 1) after0 after1
        (fun line member => narrow0 line (List.mem_of_mem_tail member))
        (fun line member => narrow1 line (List.mem_of_mem_tail member))
        (by omega)
      rw [done, pictureBlinks_cons blinkStruct row both]
      simp only [Option.bind_eq_bind, Option.bind_some, rest]

/-- No line is longer than the text, and there are not many more lines than bytes. -/
theorem linesOf_bounds (text : List Byte) :
    (linesOf text).length ≤ text.length + 1 ∧ ∀ line ∈ linesOf text, line.length ≤ text.length := by
  induction text with
  | nil => simp [linesOf]
  | cons b text ih =>
    obtain ⟨count, short⟩ := ih
    unfold linesOf at *
    rw [List.splitOn_cons_eq_if_modifyHead]
    split
    · refine ⟨by simp only [List.length_cons]; omega, fun line member => ?_⟩
      rcases List.mem_cons.mp member with rfl | among
      · simp
      · have bound := short line among
        simp only [List.length_cons]
        omega
    · cases split : List.splitOn 0x0A text with
      | nil => exact absurd split (List.splitOn_ne_nil _ _)
      | cons first others =>
        rw [split] at count short
        rw [List.modifyHead_cons]
        refine ⟨by simp only [List.length_cons] at count ⊢; omega, fun line member => ?_⟩
        rcases List.mem_cons.mp member with rfl | among
        · have bound := short first List.mem_cons_self
          simp only [List.length_cons]
          omega
        · have bound := short line (List.mem_cons_of_mem first among)
          simp only [List.length_cons]
          omega

/--
Two files are put up as one light for every cell that is not blank in both, row by row.

The first file gives the lit characters and the second the dark ones, and lines that are too short are
filled with blanks.
-/
theorem addFrames_eq (blinkStruct : Blink) (text0 text1 : List Byte) {fuel : Nat}
    (enough0 : text0.length + 1 < fuel) (enough1 : text1.length + 1 < fuel) :
    addFrames blinkStruct text0 text1 fuel =
      some (pictureBlinks blinkStruct 0 (linesOf text0) (linesOf text1)) := by
  obtain ⟨count0, short0⟩ := linesOf_bounds text0
  obtain ⟨count1, short1⟩ := linesOf_bounds text1
  exact frameRows_eq blinkStruct 0 (.more text0) (.more text1)
    (fun line member => lt_of_le_of_lt (short0 line member) (by omega))
    (fun line member => lt_of_le_of_lt (short1 line member) (by omega)) (by omega) (by omega)

end SmallOs
