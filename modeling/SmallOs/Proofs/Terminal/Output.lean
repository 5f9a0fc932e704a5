import SmallOs.Proofs.Terminal.Screen

/-! The two output routines print on one kind of sheet: the live screen, and a terminal's backing page. -/

namespace SmallOs

open Foundation

/-- The live screen, with the position of `lib.c`. -/
def Kernel.liveSheet (s : Kernel) : Sheet :=
  { cells := window videoBase sheetBytes s.console.video
    x := s.console.screenX
    y := s.console.screenY }

/-- The backing page of a terminal, with the position in its record. -/
def Kernel.backSheet (s : Kernel) (t : Terminal) : Sheet :=
  { cells := window (videoPtr t) sheetBytes s.console.video
    x := (s.terminals t).screenX
    y := (s.terminals t).screenY }

/-- A character is stored in the cell of its position. -/
theorem window_storeAt {x y : Int} (column : 0 ≤ x ∧ x < 80) (row : 0 ≤ y ∧ y < 25) (base : Nat)
    (c : Byte) (video : Nat → Byte) :
    window base sheetBytes (storeCell (base + 2 * (numCols * y.toNat + x.toNat)) c video) =
      storeCell (cellAddr 0 x y) c (window base sheetBytes video) := by
  -- The cell of the last column and row ends with the sheet.
  rw [window_storeCell (by simp only [numCols, sheetBytes]; omega), cellAddr_eq column row,
    Nat.zero_add]

section Live

variable {s : Kernel}

/-- `putc` prints on the live screen. -/
theorem putc_sheet (inside : s.liveSheet.Inside) (c : Byte) :
    (putc s c).liveSheet = s.liveSheet.print c := by
  have column : 0 ≤ s.console.screenX ∧ s.console.screenX < 80 := inside.column
  have row : 0 ≤ s.console.screenY ∧ s.console.screenY < 25 := inside.row
  -- The position was settled with the other ones; what is new is the cells.
  have moved := putc_positions_eq column row c
  have x : (putc s c).console.screenX = (printPosition s.console.screenX s.console.screenY c).1 :=
    congrArg Positions.screenX moved
  have y : (putc s c).console.screenY = (printPosition s.console.screenX s.console.screenY c).2 :=
    congrArg Positions.screenY moved
  -- The cells are those of the sheet in each of the three branches.
  have cells : window videoBase sheetBytes (putc s c).console.video =
      (s.liveSheet.print c).cells := by
    unfold putc Sheet.print
    split
    · split
      · rename_i bottom
        have last : s.liveSheet.y = 24 := bottom
        simp only [last, if_true]
        exact (window_blankRow videoBase _).trans
          (congrArg (blankRow 0) (window_scrollRows videoBase s.console.video))
      · rename_i above
        have higher : ¬ s.liveSheet.y = 24 := above
        simp only [higher, if_false]
        rfl
    · have stored := window_storeAt column row videoBase c s.console.video
      rw [← cellAddr_eq column row] at stored
      exact stored
  unfold Kernel.liveSheet at cells ⊢
  rw [cells, x, y]
  rfl

end Live

section Back

variable {s : Kernel}

/-- `putm` prints for the same terminal as before. -/
theorem putm_currTerminal (s : Kernel) (c : Byte) : (putm s c).currTerminal = s.currTerminal :=
  (screenOnly_putm s c).agree Kernel.currTerminal fun _ => rfl

/-- The position `putm` computes with unsigned words is that of the sheet. -/
theorem putm_position (inside : (s.backSheet s.currTerminal).Inside) (c : Byte) :
    (((putm s c).terminals s.currTerminal).screenX : Int) =
        (printPosition (s.scheduled.screenX : Int) s.scheduled.screenY c).1 ∧
      (((putm s c).terminals s.currTerminal).screenY : Int) =
        (printPosition (s.scheduled.screenX : Int) s.scheduled.screenY c).2 := by
  have column : 0 ≤ (s.scheduled.screenX : Int) ∧ (s.scheduled.screenX : Int) < 80 := inside.column
  have row : 0 ≤ (s.scheduled.screenY : Int) ∧ (s.scheduled.screenY : Int) < 25 := inside.row
  -- The record holds unsigned words, which stay far from their bound on the screen.
  unfold putm printPosition
  simp only
  split
  · split
    · rename_i bottom
      have last : (s.scheduled.screenY : Int) = 24 := by
        rw [bottom]
        rfl
      rw [if_pos last]
      simp [Kernel.setTerminal, Kernel.setConsole, keyboardWrite, Kernel.setKeyboard, numRows]
    · rename_i above
      have higher : ¬ (s.scheduled.screenY : Int) = 24 := fun last => above (Int.ofNat.inj last)
      have next : u32 (s.scheduled.screenY + 1) = s.scheduled.screenY + 1 := u32_of_lt (by omega)
      rw [if_neg higher]
      unfold Kernel.scheduled at next ⊢
      simp [Kernel.setTerminal, next]
  · -- Neither the column nor the row comes near the end of a word.
    have next : u32 (s.scheduled.screenX + 1) = s.scheduled.screenX + 1 := u32_of_lt (by omega)
    have carried : (s.scheduled.screenX + 1) % numCols / numCols = 0 :=
      Nat.div_eq_of_lt (Nat.mod_lt _ (by decide))
    have kept : u32 s.scheduled.screenY % numRows = s.scheduled.screenY := by
      rw [u32_of_lt (by omega)]
      exact Nat.mod_eq_of_lt (by simp only [numRows]; omega)
    simp only [next, carried, Nat.add_zero, kept]
    simp [Kernel.setTerminal, Kernel.setConsole, numCols]

/-- The cells `putm` writes are those of the sheet. -/
theorem putm_cells (inside : (s.backSheet s.currTerminal).Inside) (c : Byte) :
    window (videoPtr s.currTerminal) sheetBytes (putm s c).console.video =
      ((s.backSheet s.currTerminal).print c).cells := by
  have column : 0 ≤ (s.scheduled.screenX : Int) ∧ (s.scheduled.screenX : Int) < 80 := inside.column
  have row : 0 ≤ (s.scheduled.screenY : Int) ∧ (s.scheduled.screenY : Int) < 25 := inside.row
  -- The three branches are those of the sheet, at the address of the backing page.
  unfold putm Sheet.print
  simp only
  split
  · split
    · rename_i bottom
      have last : (s.backSheet s.currTerminal).y = 24 := congrArg Int.ofNat bottom
      rw [if_pos last]
      exact (window_blankRow _ _).trans
        (congrArg (blankRow 0) (window_scrollRows _ s.console.video))
    · rename_i above
      have higher : ¬ (s.backSheet s.currTerminal).y = 24 := fun last => above (Int.ofNat.inj last)
      rw [if_neg higher]
      rfl
  · have stored := window_storeAt column row (videoPtr s.currTerminal) c s.console.video
    have address : cellAddrUnsigned (videoPtr s.currTerminal) s.scheduled.screenX
        s.scheduled.screenY = videoPtr s.currTerminal +
          2 * (numCols * s.scheduled.screenY + s.scheduled.screenX) := by
      unfold cellAddrUnsigned
      rw [u32_of_lt (by simp only [numCols]; omega)]
    rw [Int.toNat_natCast, Int.toNat_natCast, ← address] at stored
    exact stored

/-- `putm` prints on the backing page of the scheduled terminal. -/
theorem putm_sheet (inside : (s.backSheet s.currTerminal).Inside) (c : Byte) :
    (putm s c).backSheet s.currTerminal = (s.backSheet s.currTerminal).print c := by
  -- Position and cells together are the sheet.
  obtain ⟨x, y⟩ := putm_position inside c
  have cells := putm_cells inside c
  unfold Kernel.backSheet at cells ⊢
  rw [cells, x, y]
  rfl

/-- `putm` writes the cells of the scheduled terminal's page, and nothing else. -/
theorem putm_agree (inside : (s.backSheet s.currTerminal).Inside) (c : Byte) :
    AgreeOutside (videoPtr s.currTerminal) sheetBytes s.console.video (putm s c).console.video := by
  have column : (s.scheduled.screenX : Int) < 80 := inside.column.2
  have row : (s.scheduled.screenY : Int) < 25 := inside.row.2
  -- A newline scrolls at most, and a character stores one cell of the page.
  have whole : AgreeOutside (videoPtr s.currTerminal) sheetBytes s.console.video s.console.video :=
    AgreeOutside.refl _
  unfold putm
  simp only
  split
  · split
    · exact blankRow_agree (scrollRows_agree whole)
    · exact whole
  · change AgreeOutside (videoPtr s.currTerminal) sheetBytes s.console.video
      (storeCell (cellAddrUnsigned (videoPtr s.currTerminal) s.scheduled.screenX
        s.scheduled.screenY) c s.console.video)
    unfold cellAddrUnsigned
    refine storeCell_agree whole ?_
    rw [u32_of_lt (by simp only [numCols]; omega)]
    simp only [numCols, sheetBytes]
    omega

end Back

/-- A text printed by `putc` is printed on the live screen, and written nowhere else. -/
theorem putText_sheet {s : Kernel} (inside : s.liveSheet.Inside) (text : List Byte) :
    (putText s text).liveSheet = s.liveSheet.prints text ∧
      AgreeOutside videoBase sheetBytes s.console.video (putText s text).console.video := by
  refine ⟨?_, putText_agree inside.column inside.row text⟩
  -- The induction follows the text, one character at a time.
  induction text generalizing s with
  | nil => rfl
  | cons c text ih =>
    have first := putc_sheet inside c
    have rest := ih (s := putc s c) (first ▸ inside.print c)
    rw [first] at rest
    exact rest

/-- A text printed by `putm` is printed on the scheduled terminal's page, and written nowhere else. -/
theorem putmText_sheet {s : Kernel} (inside : (s.backSheet s.currTerminal).Inside)
    (text : List Byte) :
    (text.foldl putm s).backSheet s.currTerminal = (s.backSheet s.currTerminal).prints text ∧
      AgreeOutside (videoPtr s.currTerminal) sheetBytes s.console.video
        (text.foldl putm s).console.video := by
  -- The induction follows the text, with the page fixed by the scheduled terminal.
  induction text generalizing s with
  | nil => exact ⟨rfl, AgreeOutside.refl _⟩
  | cons c text ih =>
    -- The same terminal stays scheduled, so the next character goes to the same page.
    have first := putm_sheet inside c
    have running := putm_currTerminal s c
    have next : ((putm s c).backSheet (putm s c).currTerminal).Inside := by
      rw [running, first]
      exact inside.print c
    obtain ⟨sheet, agree⟩ := ih next
    rw [running] at sheet agree
    rw [first] at sheet
    exact ⟨sheet, (putm_agree inside c).trans agree⟩

/--
Foreground and background output agree.

A text printed by `putc` and one printed by `putm` leave equal sheets, when they start on equal ones.
Neither position leaves the screen, and neither routine writes a byte outside its sheet. A part of a
text is a text, so all of this holds after every byte.
-/
theorem outputs_agree {s m : Kernel} (same : s.liveSheet = m.backSheet m.currTerminal)
    (inside : s.liveSheet.Inside) (text : List Byte) :
    (putText s text).liveSheet = (text.foldl putm m).backSheet m.currTerminal ∧
      (putText s text).liveSheet.Inside ∧
      AgreeOutside videoBase sheetBytes s.console.video (putText s text).console.video ∧
      AgreeOutside (videoPtr m.currTerminal) sheetBytes m.console.video
        (text.foldl putm m).console.video := by
  -- Each routine prints on its own sheet.
  obtain ⟨live, liveOnly⟩ := putText_sheet inside text
  obtain ⟨back, backOnly⟩ := putmText_sheet (same ▸ inside) text
  -- Both are the same text printed on the same sheet.
  refine ⟨by rw [live, back, same], ?_, liveOnly, backOnly⟩
  rw [live]
  exact inside.prints text

/-- A machine whose screen memory is blank, before any output. -/
def blankScreens : Kernel :=
  { initialKernel sampleEnv with console := ⟨0, 0, fun _ => 0, 0⟩ }

/-- A blank screen and a blank backing page agree after a character and a newline. -/
theorem outputs_agree_sample :
    (putText blankScreens [0x61, 0x0A]).liveSheet =
        ([0x61, 0x0A].foldl putm blankScreens).backSheet 0 ∧
      (putText blankScreens [0x61, 0x0A]).liveSheet.Inside := by
  -- The blank sheet starts in its corner.
  have inside : blankScreens.liveSheet.Inside := ⟨by decide, by decide⟩
  obtain ⟨agree, kept, -, -⟩ :=
    outputs_agree (s := blankScreens) (m := blankScreens) rfl inside [0x61, 0x0A]
  exact ⟨agree, kept⟩

end SmallOs
