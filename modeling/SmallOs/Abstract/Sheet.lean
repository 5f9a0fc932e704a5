import SmallOs.Kernel.Console

/-! One screen of cells as a user sees it: what printing a character does there, wherever the cells are kept. -/

namespace SmallOs

/-- The bytes of the eighty by twenty-five cells of a screen. -/
def sheetBytes : Nat := 4000

/-- Where printing a character moves a position. -/
def printPosition (x y : Int) (c : Byte) : Int × Int :=
  if c = 0x0A ∨ c = 0x0D then (0, if y = 24 then 24 else y + 1)
  -- After the last column the same row is started again.
  else ((x + 1) % 80, y)

/-- Printing never leaves the screen. -/
theorem printPosition_inside {y : Int} (row : 0 ≤ y ∧ y < 25) (x : Int) (c : Byte) :
    (0 ≤ (printPosition x y c).1 ∧ (printPosition x y c).1 < 80) ∧
      0 ≤ (printPosition x y c).2 ∧ (printPosition x y c).2 < 25 := by
  -- A newline starts a row, and any other character stays within its own.
  unfold printPosition
  split
  · split
    · exact ⟨by omega, by omega⟩
    · exact ⟨by omega, by omega⟩
  · exact ⟨by omega, row⟩

/-- A screen of cells, with the position at which the next character is printed. -/
structure Sheet where
  /-- The bytes of the cells, two for each, row by row. -/
  cells : Nat → Byte
  x : Int
  y : Int

namespace Sheet

/-- The position lies on the screen. -/
structure Inside (p : Sheet) : Prop where
  column : 0 ≤ p.x ∧ p.x < 80
  row : 0 ≤ p.y ∧ p.y < 25

/-- Print one character. -/
def print (p : Sheet) (c : Byte) : Sheet :=
  { cells :=
      if c = 0x0A ∨ c = 0x0D then
        -- Below the last row there is nothing, so the rows move up.
        if p.y = 24 then blankRow 0 (scrollRows 0 p.cells) else p.cells
      else storeCell (cellAddr 0 p.x p.y) c p.cells
    x := (printPosition p.x p.y c).1
    y := (printPosition p.x p.y c).2 }

/-- Print a text. -/
def prints (p : Sheet) (text : List Byte) : Sheet :=
  text.foldl print p

variable {p : Sheet}

theorem Inside.print (inside : p.Inside) (c : Byte) : (p.print c).Inside := by
  -- Printing moves the position as the function above says.
  obtain ⟨column, row⟩ := printPosition_inside inside.row p.x c
  exact ⟨column, row⟩

/-- The position stays on the screen over a whole text. -/
theorem Inside.prints (inside : p.Inside) (text : List Byte) : (p.prints text).Inside := by
  -- The induction follows the text, one character at a time.
  induction text generalizing p with
  | nil => exact inside
  | cons c text ih => exact ih (inside.print c)

end Sheet

end SmallOs
