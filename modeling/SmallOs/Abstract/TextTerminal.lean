import SmallOs.Abstract.Sheet

/-! The text terminal a screen of eighty columns and twenty-five rows stands for. -/

namespace SmallOs

/-- A character with its attribute. -/
structure Cell where
  char : Byte
  attr : Byte
  deriving DecidableEq, Repr

/-- The cell of a space. -/
def Cell.blank : Cell := ⟨space, attrib⟩

/-- What moves when the rows move up: their cells, or their characters alone. -/
inductive Scrolling where
  | cells
  | characters
  deriving DecidableEq, Repr

/-- A cell as it arrives in the row above. -/
def Scrolling.moved : Scrolling → Cell → Cell
  | .cells, cell => cell
  | .characters, cell => ⟨cell.char, attrib⟩

/-- A terminal: its cells, and the position at which the next character is printed. -/
@[ext]
structure TextTerminal where
  cell : Fin 25 → Fin 80 → Cell
  x : Fin 80
  y : Fin 25

namespace TextTerminal

/-- A character takes the place of the cell at the position. -/
def put (t : TextTerminal) (c : Byte) : TextTerminal :=
  { t with cell := fun row column =>
      if row = t.y ∧ column = t.x then ⟨c, attrib⟩ else t.cell row column }

/-- All rows move up by one, and the last one becomes blank. -/
def scroll (scrolling : Scrolling) (t : TextTerminal) : TextTerminal :=
  { t with cell := fun row column =>
      if below : row.val + 1 < 25 then scrolling.moved (t.cell ⟨row.val + 1, below⟩ column)
      else Cell.blank }

/-- The position moves to the start of the next row, below the last one by scrolling. -/
def newRow (scrolling : Scrolling) (t : TextTerminal) : TextTerminal :=
  if below : t.y.val + 1 < 25 then { t with x := 0, y := ⟨t.y.val + 1, below⟩ }
  else { t.scroll scrolling with x := 0 }

/-- Print one character: a newline, or one that moves the position on. -/
def print (scrolling : Scrolling) (t : TextTerminal) (c : Byte) : TextTerminal :=
  if c = 0x0A ∨ c = 0x0D then t.newRow scrolling
  else if next : t.x.val + 1 < 80 then { t.put c with x := ⟨t.x.val + 1, next⟩ }
  -- Behind the last column the next row begins.
  else (t.put c).newRow scrolling

/-- Print one character without line wrap: behind the last column the same row is started again. -/
def overprint (t : TextTerminal) (c : Byte) : TextTerminal :=
  if c = 0x0A ∨ c = 0x0D then t.newRow .characters
  else { t.put c with x := if next : t.x.val + 1 < 80 then ⟨t.x.val + 1, next⟩ else 0 }

/-- Print a text. -/
def prints (scrolling : Scrolling) (t : TextTerminal) (text : List Byte) : TextTerminal :=
  text.foldl (print scrolling) t

/-- Every cell is blank. -/
def Blank (t : TextTerminal) : Prop :=
  ∀ row column, t.cell row column = Cell.blank

/-- No row below the first one has another attribute. -/
def Monochrome (t : TextTerminal) : Prop :=
  ∀ row column, 0 < row.val → (t.cell row column).attr = attrib

/-- When the character is printed without line wrap as it is with it. -/
def Unwrapped (scrolling : Scrolling) (t : TextTerminal) (c : Byte) : Prop :=
  if c = 0x0A ∨ c = 0x0D then t.y.val = 24 → scrolling = .cells → t.Monochrome
  -- In the last cell of an empty screen a space scrolls nothing that is seen.
  else t.x.val = 79 → t.y.val = 24 ∧ (t.put c).Blank

/-- A text all of whose characters are printed so. -/
def UnwrappedText (scrolling : Scrolling) : TextTerminal → List Byte → Prop
  | _, [] => True
  | t, c :: text => t.Unwrapped scrolling c ∧ UnwrappedText scrolling (t.print scrolling c) text

variable {t : TextTerminal}

/-- A cell of the scrolled screen. -/
theorem scroll_cell (scrolling : Scrolling) (row : Fin 25) (column : Fin 80) :
    (t.scroll scrolling).cell row column =
      if below : row.val + 1 < 25 then scrolling.moved (t.cell ⟨row.val + 1, below⟩ column)
      else Cell.blank := rfl

/-- The two kinds of scrolling are one exactly when there is no other attribute. -/
theorem scroll_cell_eq_iff :
    (t.scroll .characters).cell = (t.scroll .cells).cell ↔ t.Monochrome := by
  refine ⟨fun same row column below => ?_, fun monochrome => ?_⟩
  · -- The cell is seen in the row above.
    obtain ⟨above, rfl⟩ : ∃ above : Fin 24, row = above.succ :=
      ⟨⟨row.val - 1, by omega⟩, Fin.ext (by simp only [Fin.val_succ]; omega)⟩
    have here := congrFun (congrFun same above.castSucc) column
    have inside : above.castSucc.val + 1 < 25 := Nat.succ_lt_succ above.isLt
    rw [scroll_cell, scroll_cell, dif_pos inside, dif_pos inside] at here
    exact (congrArg Cell.attr here).symm
  · funext row column
    rw [scroll_cell, scroll_cell]
    split
    · rename_i below
      -- The attribute that is written is the one that moves.
      have same := monochrome ⟨row.val + 1, below⟩ column (Nat.succ_pos _)
      rw [Scrolling.moved, Scrolling.moved, ← same]
    · rfl

/-- Rows that move up without a change leave a blank screen. -/
theorem blank_of_scroll {scrolling : Scrolling} (same : (t.scroll scrolling).cell = t.cell) :
    t.Blank := by
  -- The last row is blank, and each other one is what the row below it was.
  have rows : ∀ distance < 25, ∀ row : Fin 25, row.val + distance = 24 → ∀ column,
      t.cell row column = Cell.blank := by
    intro distance
    induction distance with
    | zero =>
      intro _ row last column
      rw [← same, scroll_cell]
      exact dif_neg (by omega)
    | succ distance ih =>
      intro short row above column
      have below : row.val + 1 < 25 := by omega
      have moved : t.cell row column = scrolling.moved (t.cell ⟨row.val + 1, below⟩ column) := by
        conv_lhs => rw [← same, scroll_cell]
        exact dif_pos below
      rw [moved, ih (by omega) ⟨row.val + 1, below⟩ (by simp only; omega) column]
      cases scrolling <;> rfl
  exact fun row column => rows (24 - row.val) (by omega) row (by omega) column

/-- A blank screen scrolls to itself. -/
theorem scroll_blank (blank : t.Blank) (scrolling : Scrolling) :
    (t.scroll scrolling).cell = t.cell := by
  funext row column
  rw [blank row column, scroll_cell]
  split
  · rename_i below
    rw [blank ⟨row.val + 1, below⟩ column]
    cases scrolling <;> rfl
  · rfl

/-- On the last row a new one is made by scrolling. -/
theorem newRow_last (scrolling : Scrolling) (last : t.y.val = 24) :
    t.newRow scrolling = { t.scroll scrolling with x := 0 } :=
  dif_neg (by omega)

/-- Above the last row the position just moves down. -/
theorem newRow_above (scrolling : Scrolling) (below : t.y.val + 1 < 25) :
    t.newRow scrolling = { t with x := 0, y := ⟨t.y.val + 1, below⟩ } :=
  dif_pos below

/-- A newline scrolls characters alone exactly as it scrolls cells, or there is nothing to scroll. -/
theorem newRow_eq_iff (scrolling : Scrolling) : t.newRow .characters = t.newRow scrolling ↔
    (t.y.val = 24 → scrolling = .cells → t.Monochrome) := by
  by_cases last : t.y.val = 24
  · rw [newRow_last _ last, newRow_last _ last, TextTerminal.mk.injEq]
    cases scrolling with
    | cells => simpa [last, scroll] using scroll_cell_eq_iff
    | characters => simp
  · have below : t.y.val + 1 < 25 := by omega
    simp [newRow_above _ below, last]

/-- Printing without line wrap is the same exactly where nothing would be wrapped. -/
theorem overprint_eq_iff (scrolling : Scrolling) (c : Byte) :
    t.overprint c = t.print scrolling c ↔ t.Unwrapped scrolling c := by
  unfold overprint print Unwrapped
  split
  · exact newRow_eq_iff scrolling
  split
  · rename_i next
    simp [show t.x.val ≠ 79 by omega]
  rename_i ends
  have column : t.x.val = 79 := by omega
  by_cases last : t.y.val = 24
  · -- The position is the same, and the screen is when nothing is seen of the scrolling.
    have bottom : (t.put c).y.val = 24 := last
    rw [newRow_last _ bottom, TextTerminal.mk.injEq]
    simp only [column, last, true_and, forall_const]
    refine ⟨fun same => blank_of_scroll same.1.symm, fun blank => ⟨?_, rfl⟩⟩
    exact (scroll_blank blank scrolling).symm
  · -- The wrapped position is one row below.
    have below : (t.put c).y.val + 1 < 25 := by
      change t.y.val + 1 < 25
      omega
    rw [newRow_above _ below, TextTerminal.mk.injEq]
    have moves : t.y ≠ ⟨t.y.val + 1, below⟩ := fun same => by
      have := congrArg Fin.val same
      simp at this
    refine ⟨fun same => absurd same.2.2 moves, fun unwrapped => absurd (unwrapped column).1 last⟩

end TextTerminal

end SmallOs
