import SmallOs.Abstract.TextTerminal
import SmallOs.Proofs.Library.Numerals
import SmallOs.Proofs.Terminal.Output

/-! The live screen against a text terminal: `putc` prints as one does that has no line wrap. -/

namespace SmallOs

open Foundation

/-- The cell in a row and a column of a page. -/
def cellAt (page : Nat → Byte) (row column : Nat) : Cell :=
  ⟨page (2 * (numCols * row + column)), page (2 * (numCols * row + column) + 1)⟩

/-- A sheet holds the cells and the position of a terminal. -/
structure Shows (p : Sheet) (t : TextTerminal) : Prop where
  cells : ∀ (row : Fin 25) (column : Fin 80), cellAt p.cells row column = t.cell row column
  x : p.x = t.x.val
  y : p.y = t.y.val

section Cells

variable {page : Nat → Byte} {row column r c : Nat} {b : Byte}

/-- A stored cell is seen in its own place only. -/
theorem cellAt_storeCell (narrow : column < 80) (small : c < 80) :
    cellAt (storeCell (2 * (numCols * r + c)) b page) row column =
      if row = r ∧ column = c then ⟨b, attrib⟩ else cellAt page row column := by
  unfold cellAt storeCell
  simp only [Function.update_apply, numCols]
  -- Two bytes belong to one cell exactly when their rows and columns are the same.
  by_cases here : row = r ∧ column = c
  · obtain ⟨rfl, rfl⟩ := here
    simp
  · have apart : 80 * row + column ≠ 80 * r + c := by omega
    rw [if_neg here, if_neg (by omega), if_neg (by omega), if_neg (by omega), if_neg (by omega)]

/-- A part of the scrolling loop over a row leaves the cells to its right as they were. -/
theorem cellAt_scrollCells (narrow : column < 80) {a n : Nat} (small : n ≤ 80) :
    cellAt ((List.range n).foldl (scrollCell 0 a) page) row column =
      if row = a ∧ column < n then ⟨(cellAt page (a + 1) column).char, attrib⟩
      else cellAt page row column := by
  -- The row that is read is not the one that is written.
  induction n generalizing row column with
  | zero => simp
  | succ n ih =>
    rw [List.range_succ, List.foldl_append, List.foldl_cons, List.foldl_nil, scrollCell, Nat.zero_add,
      cellAt_storeCell narrow (by omega)]
    have read := congrArg Cell.char (@ih (a + 1) n (by omega) (by omega))
    rw [if_neg (by omega)] at read
    by_cases here : row = a ∧ column = n
    · obtain ⟨rfl, rfl⟩ := here
      rw [if_pos ⟨rfl, rfl⟩, if_pos ⟨rfl, Nat.lt_succ_self _⟩, ← read, Nat.zero_add]
      rfl
    · rw [if_neg here, ih narrow (by omega)]
      congr 1
      simp only [eq_iff_iff]
      omega

/-- Some turns of the scrolling loop move the rows above a bound. -/
theorem cellAt_scrollRowsTo (narrow : column < 80) {n : Nat} :
    cellAt ((List.range n).foldl (scrollRow 0) page) row column =
      if row < n then ⟨(cellAt page (row + 1) column).char, attrib⟩
      else cellAt page row column := by
  -- A row is read before it is written.
  induction n generalizing row with
  | zero => simp
  | succ n ih =>
    rw [List.range_succ, List.foldl_append, List.foldl_cons, List.foldl_nil, scrollRow, numCols,
      cellAt_scrollCells narrow le_rfl]
    by_cases here : row = n
    · subst here
      rw [if_pos ⟨rfl, narrow⟩, if_pos (Nat.lt_succ_self _), ih, if_neg (by omega)]
    · rw [if_neg (by omega), ih]
      congr 1
      simp only [eq_iff_iff]
      omega

/-- A part of the blanking loop. -/
theorem cellAt_blankCells (narrow : column < 80) {n : Nat} (small : n ≤ 80) :
    cellAt ((List.range n).foldl
        (fun page a => storeCell (0 + 2 * (numCols * (numRows - 1) + a)) space page) page) row column =
      if row = 24 ∧ column < n then Cell.blank else cellAt page row column := by
  induction n with
  | zero => simp
  | succ n ih =>
    rw [List.range_succ, List.foldl_append, List.foldl_cons, List.foldl_nil, Nat.zero_add,
      cellAt_storeCell narrow (by omega), ih (by omega)]
    simp only [numRows, Cell.blank]
    grind

/-- Scrolling and blanking a page. -/
theorem cellAt_scrolled (narrow : column < 80) (low : row < 25) :
    cellAt (blankRow 0 (scrollRows 0 page)) row column =
      if row + 1 < 25 then ⟨(cellAt page (row + 1) column).char, attrib⟩ else Cell.blank := by
  have blanked : cellAt (blankRow 0 (scrollRows 0 page)) row column =
      if row = 24 ∧ column < 80 then Cell.blank else cellAt (scrollRows 0 page) row column :=
    cellAt_blankCells narrow le_rfl
  rw [blanked, scrollRows, cellAt_scrollRowsTo narrow]
  simp only [numRows]
  grind

end Cells

section Print

variable {p : Sheet} {t : TextTerminal}

/-- A sheet holds one terminal only. -/
theorem Shows.unique {u : TextTerminal} (shows : Shows p t) : Shows p u ↔ t = u := by
  refine ⟨fun other => ?_, fun same => same ▸ shows⟩
  ext row column
  · rw [← shows.cells, other.cells]
  · have columns := shows.x.symm.trans other.x
    omega
  · have rows := shows.y.symm.trans other.y
    omega

/-- The position of a terminal is on its screen. -/
theorem Shows.inside (shows : Shows p t) : p.Inside :=
  ⟨by rw [shows.x]; omega, by rw [shows.y]; omega⟩

/-- A sheet is printed on as a terminal without line wrap is. -/
theorem Shows.print (shows : Shows p t) (c : Byte) : Shows (p.print c) (t.overprint c) := by
  have x := shows.x
  have y := shows.y
  unfold Sheet.print printPosition TextTerminal.overprint
  split
  · by_cases last : t.y.val = 24
    · -- The rows move up, and the position stays in the last one.
      have bottom : p.y = 24 := by omega
      rw [TextTerminal.newRow_last _ last, if_pos bottom, if_pos bottom]
      refine ⟨fun row column => ?_, rfl, ?_⟩
      · simp only [TextTerminal.scroll_cell]
        rw [cellAt_scrolled column.isLt row.isLt]
        split
        · rename_i below
          rw [shows.cells ⟨row.val + 1, below⟩ column]
          rfl
        · rfl
      · change (24 : Int) = t.y.val
        omega
    · have above : ¬ p.y = 24 := by omega
      rw [TextTerminal.newRow_above _ (by omega), if_neg above, if_neg above]
      exact ⟨shows.cells, rfl, by simp only; omega⟩
  · refine ⟨fun row column => ?_, ?_, y⟩
    · -- One cell is stored, at the position.
      rw [cellAddr_eq shows.inside.column shows.inside.row, Nat.zero_add,
        cellAt_storeCell column.isLt (by omega), shows.cells]
      have place : (row.val = p.y.toNat ∧ column.val = p.x.toNat) ↔ row = t.y ∧ column = t.x := by
        rw [Fin.ext_iff, Fin.ext_iff]
        omega
      simp only [TextTerminal.put, place]
    · simp only
      split
      · simp only
        omega
      · simp only [Fin.val_zero]
        omega

/-- Printing a character is what the terminal does exactly where nothing would be wrapped. -/
theorem Shows.print_iff (shows : Shows p t) (scrolling : Scrolling) (c : Byte) :
    Shows (p.print c) (t.print scrolling c) ↔ t.Unwrapped scrolling c := by
  rw [(shows.print c).unique, TextTerminal.overprint_eq_iff]

end Print

/-- The live screen holds the cells and the position of a terminal. -/
def Kernel.Displays (s : Kernel) (t : TextTerminal) : Prop :=
  Shows s.liveSheet t

/-- A text is printed as on the terminal, after every byte of it. -/
def PrintsAs (scrolling : Scrolling) (s : Kernel) (t : TextTerminal) (text : List Byte) : Prop :=
  ∀ n ≤ text.length, (putText s (text.take n)).Displays (t.prints scrolling (text.take n))

/-- The first byte of a text, and then the rest. -/
theorem printsAs_cons {scrolling : Scrolling} {s : Kernel} {t : TextTerminal} (shows : s.Displays t)
    (c : Byte) (text : List Byte) : PrintsAs scrolling s t (c :: text) ↔
      PrintsAs scrolling (putc s c) (t.print scrolling c) text := by
  refine ⟨fun prints n within => prints (n + 1) (Nat.succ_le_succ within), fun prints n within => ?_⟩
  cases n with
  | zero => exact shows
  | succ n => exact prints n (Nat.le_of_succ_le_succ within)

/-- A text is printed so exactly when none of its characters would be wrapped. -/
theorem printsAs_iff {scrolling : Scrolling} {s : Kernel} {t : TextTerminal} (shows : s.Displays t)
    (text : List Byte) : PrintsAs scrolling s t text ↔ t.UnwrappedText scrolling text := by
  -- The induction follows the text: the first character that is wrapped is where they part.
  induction text generalizing s t with
  | nil =>
    refine ⟨fun _ => trivial, fun _ n _ => ?_⟩
    rw [List.take_nil]
    exact shows
  | cons c text ih =>
    have first : (putc s c).Displays (t.print scrolling c) ↔ t.Unwrapped scrolling c := by
      rw [Kernel.Displays, putc_sheet (Shows.inside shows)]
      exact Shows.print_iff shows scrolling c
    rw [printsAs_cons shows, TextTerminal.UnwrappedText]
    refine ⟨fun prints => ?_, fun unwrapped => ?_⟩
    · have shown : (putc s c).Displays (t.print scrolling c) := prints 0 (Nat.zero_le _)
      exact ⟨first.mp shown, (ih shown).mp prints⟩
    · exact (ih (first.mpr unwrapped.1)).mpr unwrapped.2

/-- The terminal the live screen shows. -/
def Kernel.terminal (s : Kernel) : TextTerminal :=
  { cell := fun row column => cellAt s.liveSheet.cells row column
    x := ⟨s.console.screenX.toNat % 80, Nat.mod_lt _ (by decide)⟩
    y := ⟨s.console.screenY.toNat % 25, Nat.mod_lt _ (by decide)⟩ }

/-- With its position on the screen a kernel displays its terminal. -/
theorem displays_terminal {s : Kernel} (inside : s.liveSheet.Inside) : s.Displays s.terminal := by
  have column : 0 ≤ s.console.screenX ∧ s.console.screenX < 80 := inside.column
  have row : 0 ≤ s.console.screenY ∧ s.console.screenY < 25 := inside.row
  refine ⟨fun _ _ => rfl, ?_, ?_⟩
  · change s.console.screenX = ((s.console.screenX.toNat % 80 : Nat) : Int)
    omega
  · change s.console.screenY = ((s.console.screenY.toNat % 25 : Nat) : Int)
    omega

/--
`putc` and `puts` print as a text terminal does exactly when no character has to be wrapped.

The reference wraps behind column 79 and scrolls below row 24. Its scrolling moves whole cells or
characters alone, and the result holds for both.
-/
theorem text_printed_iff {s : Kernel} (inside : s.liveSheet.Inside) (scrolling : Scrolling)
    (text : List Byte) :
    (PrintsAs scrolling s s.terminal text ↔ s.terminal.UnwrappedText scrolling text) ∧
      ∀ str, Points str text → text.length < 2 ^ 32 →
        puts s str = some (text.length, putText s text) :=
  ⟨printsAs_iff (displays_terminal inside) text, fun _ points fits => puts_eq points fits s⟩

/-- Eighty characters in a row, and one more. -/
def longLine : List Byte :=
  List.replicate 80 0x61 ++ [0x62]

theorem blankScreens_inside : blankScreens.liveSheet.Inside :=
  ⟨by decide, by decide⟩

/-- The equivalence for the long line on a blank screen. -/
theorem text_printed_iff_sample :
    (PrintsAs .characters blankScreens blankScreens.terminal longLine ↔
        blankScreens.terminal.UnwrappedText .characters longLine) ∧
      ∀ str, Points str longLine → longLine.length < 2 ^ 32 →
        puts blankScreens str = some (longLine.length, putText blankScreens longLine) :=
  text_printed_iff blankScreens_inside .characters longLine

/-- The character behind the last column overwrites the first one of its own line. -/
theorem long_line_overwritten : blankScreens.liveSheet.Inside ∧
    (putText blankScreens longLine).liveSheet.y = 0 ∧
    cellAt (putText blankScreens longLine).liveSheet.cells 0 0 = ⟨0x62, attrib⟩ ∧
    (∀ scrolling, (blankScreens.terminal.prints scrolling longLine).cell 0 0 = ⟨0x61, attrib⟩) ∧
    ∀ scrolling,
      ¬ (putText blankScreens longLine).Displays (blankScreens.terminal.prints scrolling longLine) := by
  have printed : cellAt (putText blankScreens longLine).liveSheet.cells 0 0 = ⟨0x62, attrib⟩ := by
    decide +kernel
  have wrapped : ∀ scrolling,
      (blankScreens.terminal.prints scrolling longLine).cell 0 0 = ⟨0x61, attrib⟩ := by
    intro scrolling
    cases scrolling <;> decide +kernel
  refine ⟨blankScreens_inside, by decide +kernel, printed, wrapped, fun scrolling shows => ?_⟩
  have same := (shows.cells 0 0).symm.trans printed
  rw [wrapped scrolling] at same
  cases same

end SmallOs
