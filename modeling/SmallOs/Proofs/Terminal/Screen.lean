import SmallOs.Proofs.Terminal.Positions

/-! What the output routines do to one page of the screen memory, and that they do nothing elsewhere. -/

namespace SmallOs

open Foundation

/-- The backing pages follow the live screen without overlap. -/
theorem videoPtr_apart (t : Terminal) :
    videoPtr t + onepage ≤ videoBase ∨ videoBase + onepage ≤ videoPtr t := by
  -- The live screen has one page, and the backing pages come right after it.
  simp only [videoPtr, videoBase, onepage]
  omega

/-- They are apart from its cells all the more. -/
theorem sheet_apart (t : Terminal) :
    videoPtr t + onepage ≤ videoBase ∨ videoBase + sheetBytes ≤ videoPtr t := by
  simp only [videoPtr, videoBase, onepage, sheetBytes]
  omega

/-- Backing pages of different terminals do not overlap. -/
theorem videoPtr_disjoint {t u : Terminal} (differ : t ≠ u) :
    videoPtr t + onepage ≤ videoPtr u ∨ videoPtr u + onepage ≤ videoPtr t := by
  -- The pages are numbered by the terminals.
  have apart : t.val ≠ u.val := fun same => differ (Fin.ext same)
  simp only [videoPtr, videoBase, onepage]
  omega

section Cells

variable {base offset size : Nat} {c : Byte} {video next : Nat → Byte}

/-- A cell of a page is stored in the page's window. -/
theorem window_storeCell (inside : offset + 1 < size) :
    window base size (storeCell (base + offset) c video) =
      storeCell offset c (window base size video) := by
  -- The two bytes of the cell are two stores inside the block.
  simp only [storeCell, Nat.add_assoc]
  rw [window_store_inside inside, window_store_inside (by omega)]

/-- A stored cell is seen on its own page only. -/
theorem storeCell_agree (agree : AgreeOutside base size video next) (inside : offset + 1 < size) :
    AgreeOutside base size video (storeCell (base + offset) c next) :=
  (agree.store (by omega)).store (by omega)

/-- The address of a cell is its offset on the page. -/
theorem cellAddr_eq {x y : Int} (column : 0 ≤ x ∧ x < 80) (row : 0 ≤ y ∧ y < 25) :
    cellAddr base x y = base + 2 * (numCols * y.toNat + x.toNat) := by
  simp only [cellAddr, numCols]
  omega

end Cells

section Scroll

variable {base : Nat} {video next : Nat → Byte}

/-- One turn of the scrolling loop reads and writes its own page. -/
theorem window_scrollCell {a b : Nat} (row : a < numRows - 1) (column : b < numCols) :
    window base sheetBytes (scrollCell base a video b) =
      scrollCell 0 a (window base sheetBytes video) b := by
  simp only [numRows, numCols] at row column
  -- The cell is copied from the row below, which is on the page as well.
  have below : window base sheetBytes video (0 + 2 * (numCols * (a + 1) + b)) =
      video (base + 2 * (numCols * (a + 1) + b)) := by
    rw [Nat.zero_add]
    exact window_apply (by simp only [numCols, sheetBytes]; omega)
  simp only [scrollCell]
  rw [window_storeCell (by simp only [numCols, sheetBytes]; omega), below, Nat.zero_add]

/-- Scrolling a page is scrolling its window. -/
theorem window_scrollRows (base : Nat) (video : Nat → Byte) :
    window base sheetBytes (scrollRows base video) = scrollRows 0 (window base sheetBytes video) := by
  -- The nested loops are followed turn by turn, with the window of the memory kept in step.
  refine List.foldl_rel (r := fun memory page => window base sheetBytes memory = page) rfl ?_
  intro a row memory page same
  refine List.foldl_rel (r := fun memory page => window base sheetBytes memory = page) same ?_
  intro b column memory page same
  rw [window_scrollCell (List.mem_range.mp row) (List.mem_range.mp column), same]

/-- Blanking the last row of a page is blanking that of its window. -/
theorem window_blankRow (base : Nat) (video : Nat → Byte) :
    window base sheetBytes (blankRow base video) = blankRow 0 (window base sheetBytes video) := by
  -- The loop is followed turn by turn, as the scrolling ones are.
  refine List.foldl_rel (r := fun memory page => window base sheetBytes memory = page) rfl ?_
  intro a column memory page same
  have small := List.mem_range.mp column
  simp only [numCols] at small
  rw [window_storeCell (by simp only [numCols, numRows, sheetBytes]; omega), same, Nat.zero_add]

/-- Scrolling a page is seen on no other. -/
theorem scrollRows_agree (agree : AgreeOutside base sheetBytes video next) :
    AgreeOutside base sheetBytes video (scrollRows base next) := by
  -- Every turn of the nested loops stores one cell of the page.
  refine List.foldlRecOn _ _ agree ?_
  intro memory agree a row
  refine List.foldlRecOn _ _ agree ?_
  intro memory agree b column
  have small := List.mem_range.mp row
  have narrow := List.mem_range.mp column
  simp only [numRows, numCols] at small narrow
  exact storeCell_agree agree (by simp only [numCols, sheetBytes]; omega)

/-- Blanking the last row of a page is seen on no other. -/
theorem blankRow_agree (agree : AgreeOutside base sheetBytes video next) :
    AgreeOutside base sheetBytes video (blankRow base next) := by
  -- Every turn stores one cell of the last row.
  refine List.foldlRecOn _ _ agree ?_
  intro memory agree a column
  have narrow := List.mem_range.mp column
  simp only [numCols] at narrow
  exact storeCell_agree agree (by simp only [numCols, numRows, sheetBytes]; omega)

end Scroll

/-- Printing on the live screen writes its cells, and nothing else. -/
theorem putc_agree {s : Kernel} (column : 0 ≤ s.console.screenX ∧ s.console.screenX < 80)
    (row : 0 ≤ s.console.screenY ∧ s.console.screenY < 25) (c : Byte) :
    AgreeOutside videoBase sheetBytes s.console.video (putc s c).console.video := by
  -- A newline scrolls at most, and a character stores one cell.
  have whole : AgreeOutside videoBase sheetBytes s.console.video s.console.video :=
    AgreeOutside.refl _
  unfold putc
  split
  · split
    · exact blankRow_agree (scrollRows_agree whole)
    · exact whole
  · change AgreeOutside videoBase sheetBytes s.console.video
      (storeCell (cellAddr videoBase s.console.screenX s.console.screenY) c s.console.video)
    rw [cellAddr_eq column row]
    exact storeCell_agree whole (by simp only [numCols, sheetBytes]; omega)

/-- Printing a text on the live screen writes its cells, and nothing else. -/
theorem putText_agree {s : Kernel} (column : 0 ≤ s.console.screenX ∧ s.console.screenX < 80)
    (row : 0 ≤ s.console.screenY ∧ s.console.screenY < 25) (text : List Byte) :
    AgreeOutside videoBase sheetBytes s.console.video (putText s text).console.video := by
  -- The induction follows the text, and needs the position on the screen at every character.
  induction text generalizing s with
  | nil => exact AgreeOutside.refl _
  | cons c text ih =>
    -- Printing the first character keeps the position on the screen.
    obtain ⟨x, y, inside, within, same⟩ := putc_positions column row c
    have next : (putc s c).console.screenX = x := congrArg Positions.screenX same
    have below : (putc s c).console.screenY = y := congrArg Positions.screenY same
    exact (putc_agree column row c).trans (ih (next ▸ inside) (below ▸ within))

end SmallOs
