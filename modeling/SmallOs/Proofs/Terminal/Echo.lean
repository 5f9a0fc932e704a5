import SmallOs.Abstract.Ttys
import SmallOs.Proofs.Terminal.Announcing
import SmallOs.Proofs.Terminal.LineEditing
import SmallOs.Proofs.Terminal.Pristine
import SmallOs.Proofs.Terminal.VideoBounds
import SmallOs.Proofs.Terminal.Wrapping

/-! What a key shows on the screen: when it is what the key does to the line. -/

namespace SmallOs

open Foundation

namespace TextTerminal

variable {t : TextTerminal} {c : Byte}

/-- Before the last column printing does not ask for line wrap. -/
theorem print_eq_overprint (before : t.x.val ≠ 79 ∨ c = 0x0A ∨ c = 0x0D) :
    t.print .characters c = t.overprint c := by
  -- The two kinds of printing differ only behind the last column.
  unfold print overprint
  by_cases newline : c = 0x0A ∨ c = 0x0D
  · rw [if_pos newline, if_pos newline]
  · have next : t.x.val + 1 < 80 := by
      have column := before.resolve_right newline
      omega
    rw [if_neg newline, if_neg newline, dif_pos next, dif_pos next]

/-- In the last column line wrap is one newline more. -/
theorem print_eq_newline (last : t.x.val = 79) (plain : ¬ (c = 0x0A ∨ c = 0x0D)) :
    t.print .characters c = (t.overprint c).overprint 0x0A := by
  have ends : ¬ t.x.val + 1 < 80 := by omega
  unfold print overprint
  rw [if_neg plain, if_neg plain, dif_neg ends, dif_neg ends, if_pos (.inl rfl)]
  -- The column before the newline makes no difference.
  unfold newRow
  split <;> rfl

end TextTerminal

section Shown

variable {p : Sheet} {t : TextTerminal}

/-- A text is printed on a sheet as on the terminal. -/
theorem Shows.prints (shows : Shows p t) (text : List Byte) :
    Shows (p.prints text) (t.overprints text) := by
  -- The induction follows the text, one character at a time.
  induction text generalizing p t with
  | nil => exact shows
  | cons c text ih => exact ih (shows.print c)

/-- A character is stored in the cell at the position. -/
theorem Shows.put (shows : Shows p t) (c : Byte) :
    Shows { p with cells := storeCell (cellAddr 0 p.x p.y) c p.cells } (t.put c) := by
  -- The bytes of a cell are found at its row and column, and at no other.
  have x := shows.x
  have y := shows.y
  refine ⟨fun row column => ?_, x, y⟩
  rw [cellAddr_eq shows.inside.column shows.inside.row, Nat.zero_add,
    cellAt_storeCell column.isLt (by omega), shows.cells]
  have place : (row.val = p.y.toNat ∧ column.val = p.x.toNat) ↔ row = t.y ∧ column = t.x := by
    rw [Fin.ext_iff, Fin.ext_iff]
    omega
  simp only [TextTerminal.put, place]

/-- The position moves back on both. -/
theorem Shows.back (shows : Shows p t) (behind : ¬ (p.x = 0 ∧ p.y = 0)) :
    Shows { p with
      x := if p.x = 0 then 79 else p.x - 1
      y := if p.x = 0 then p.y - 1 else p.y } t.back := by
  -- Both go back within the row, or to the end of the row above.
  have x := shows.x
  have y := shows.y
  unfold TextTerminal.back
  by_cases first : p.x = 0
  · have left : ¬ 0 < t.x.val := by omega
    have below : 0 < t.y.val := by omega
    rw [if_pos first, if_pos first, if_neg left, if_pos below]
    exact ⟨shows.cells, rfl, by simp only; omega⟩
  · have right : 0 < t.x.val := by omega
    rw [if_neg first, if_neg first, if_pos right]
    exact ⟨shows.cells, by simp only; omega, y⟩

/-- A cleared screen is blank. -/
theorem shows_blank (video : Nat → Byte) :
    Shows ⟨window videoBase sheetBytes (clearScreen video), 0, 0⟩ .blank := by
  -- The loop over the cells reaches both bytes of every one of them.
  refine ⟨fun row column => ?_, rfl, rfl⟩
  have first : 2 * (numCols * row.val + column.val) < sheetBytes := by
    simp only [numCols, sheetBytes]
    omega
  have second : 2 * (numCols * row.val + column.val) + 1 < sheetBytes := by
    simp only [numCols, sheetBytes]
    omega
  have inside : ∀ k < sheetBytes, videoBase ≤ videoBase + k ∧ videoBase + k < videoBase + 4000 := by
    intro k below
    simp only [sheetBytes] at below
    omega
  simp only [cellAt]
  rw [window_apply first, window_apply second, clearScreen_apply, clearScreen_apply,
    if_pos (inside _ first), if_pos (inside _ second), if_pos (by omega), if_neg (by omega)]
  rfl

end Shown

section Keys

variable {s : Kernel}

/-- A position on the screen is a C integer. -/
theorem int32_of_inRange (range : s.positions.InRange) :
    IsInt32 s.console.screenX ∧ IsInt32 s.console.screenY := by
  have column : 0 ≤ s.console.screenX ∧ s.console.screenX < 80 := range.column
  have row : 0 ≤ s.console.screenY ∧ s.console.screenY < 25 := range.row
  exact ⟨⟨by omega, by omega⟩, ⟨by omega, by omega⟩⟩

/-- Stores to cells of the screen are seen on the live page only. -/
theorem StoresCells.agree {cells : List (Int × Int)} {video after : Nat → Byte}
    (stores : StoresCells cells video after) (inside : ∀ cell ∈ cells, CellInside cell) :
    AgreeOutside videoBase sheetBytes video after := by
  -- Every store is one cell of the page.
  induction stores with
  | nil => exact AgreeOutside.refl _
  | @cons x y cells video after c rest ih =>
    obtain ⟨first, others⟩ := List.forall_mem_cons.mp inside
    obtain ⟨lower, upper⟩ := first
    simp only at lower upper
    have address : cellAddr videoBase x y =
        videoBase + (2 * ((numCols : Int) * y + x)).toNat := by
      simp only [cellAddr]
      omega
    refine AgreeOutside.trans ?_ (ih others)
    rw [address]
    exact storeCell_agree (AgreeOutside.refl _) (by omega)

/-- Where only the live screen and the displayed terminal's record change, the others keep theirs. -/
theorem sheet_live {next : Kernel} (shown : next.currentId = s.currentId)
    (video : AgreeOutside videoBase sheetBytes s.console.video next.console.video) {u : Terminal}
    (record : next.terminals u = s.terminals u) (other : u ≠ s.currentId) :
    next.sheet u = s.sheet u := by
  -- The page of another terminal is apart from the live screen.
  have there : u ≠ next.currentId := shown ▸ other
  have apart := sheet_apart u
  rw [sheet_other other, sheet_other there]
  refine backSheet_congr record (video.window_eq ?_)
  simp only [onepage, sheetBytes] at apart ⊢
  omega

/-- Printing and the end of a line are seen on the live screen as on a sheet. -/
theorem settle_sheet {wraps : Bool} (level : s.keyboard.vdY = s.console.screenY) :
    (settle wraps s).liveSheet = if wraps then s.liveSheet.print 0x0A else s.liveSheet := by
  -- At the end of a line the rows move up or the position moves down, as behind a newline.
  cases wraps with
  | false => rfl
  | true =>
    rw [if_pos rfl]
    have newline : s.liveSheet.print 0x0A =
        { cells := if s.keyboard.vdY = 24 then blankRow 0 (scrollRows 0 s.liveSheet.cells)
            else s.liveSheet.cells
          x := 0
          y := if s.keyboard.vdY = 24 then 24 else s.keyboard.vdY + 1 } := by
      rw [level]
      rfl
    rw [newline]
    by_cases bottom : s.keyboard.vdY = 24
    · -- The page is scrolled with the loops that a newline uses.
      have passed : s.keyboard.vdY + 1 = 25 := by omega
      have scrolled : (settle true s).liveSheet =
          ⟨window videoBase sheetBytes (blankRow videoBase (scrollRows videoBase s.console.video)),
            0, s.keyboard.vdY + 1 - 1⟩ := by
        have below : settle true s = _ := if_pos passed
        rw [below]
        simp only [Kernel.liveSheet, resetCursor, resetPosition, clearRow, resetVideo,
          Kernel.setConsole, Kernel.setKeyboard, getCursor, getPosition, Kernel.setSwitch]
      rw [scrolled, window_blankRow, window_scrollRows, if_pos bottom, if_pos bottom, bottom]
      rfl
    · have above : ¬ s.keyboard.vdY + 1 = 25 := by omega
      have moved : (settle true s).liveSheet = ⟨s.liveSheet.cells, 0, s.keyboard.vdY + 1⟩ :=
        congrArg Kernel.liveSheet (if_neg above)
      rw [moved, if_neg bottom, if_neg bottom]

/-- What is typed below the limit is printed, and in the last column wrapped by a newline. -/
theorem prout_sheet (range : s.positions.InRange) (below : s.keyboard.count ≠ bufsize) (c : Byte) :
    (prout s c).liveSheet =
      if s.keyboard.vdX = 79 then (s.liveSheet.print c).print 0x0A else s.liveSheet.print c := by
  -- After the character the editor stands where the screen does, so the wrap is one newline.
  have inside : (storeTyped s c).liveSheet.Inside := ⟨range.column, range.row⟩
  have place := putc_place (s := storeTyped s c) range.column range.row c
  have level : (putc (storeTyped s c) c).keyboard.vdY =
      (putc (storeTyped s c) c).console.screenY :=
    (congrArg Place.vdY place).trans (congrArg Place.screenY place).symm
  have wraps : (storeTyped s c).keyboard.vdX = screenLegth ↔ s.keyboard.vdX = 79 := by
    change s.keyboard.vdX + 1 = 80 ↔ _
    omega
  rw [prout_eq below, settle_sheet level, putc_sheet inside]
  simp only [wraps, decide_eq_true_eq]
  rfl

/-- A typed character is echoed on the screen, with line wrap. -/
theorem prout_shows {tty : Tty} (range : s.positions.InRange)
    (shows : Shows s.liveSheet tty.screen) (length : tty.line.length = s.keyboard.bufIndex)
    (fits : s.keyboard.bufIndex ≤ bufsize)
    (full : s.keyboard.count = bufsize ↔ s.keyboard.bufIndex = bufsize)
    (level : s.keyboard.count ≠ bufsize → (s.keyboard.vdX = 79 ↔ s.console.screenX = 79))
    {c : Byte} (plain : ¬ (c = 0x0A ∨ c = 0x0D)) :
    Shows (prout s c).liveSheet (tty.echo (.char c)) := by
  -- A full line takes no character, and any other is printed and wrapped where the row ends.
  have column : s.console.screenX = tty.screen.x.val := shows.x
  simp only [Tty.echo, length]
  by_cases stops : s.keyboard.count = bufsize
  · rw [if_neg (by omega), prout_full stops]
    exact shows
  · rw [if_pos (by omega), prout_sheet range stops]
    by_cases last : s.keyboard.vdX = 79
    · have ends := (level stops).mp last
      rw [if_pos last, TextTerminal.print_eq_newline (by omega) plain]
      exact (shows.print c).print 0x0A
    · have before := mt (level stops).mpr last
      rw [if_neg last, TextTerminal.print_eq_overprint (.inl (by omega))]
      exact shows.print c

/-- Enter is a newline on the screen. -/
theorem enterKey_shows {t : TextTerminal} (range : s.positions.InRange)
    (shows : Shows s.liveSheet t) (below : s.keyboard.count ≠ bufsize)
    (before : s.keyboard.vdX ≠ 79) :
    Shows (enterKey s).liveSheet (t.newRow .characters) := by
  have printed := prout_sheet range below 0x0A
  rw [if_neg before] at printed
  have place := putc_place (s := storeTyped s 0x0A) range.column range.row 0x0A
  have moved := (printPosition_inside (y := s.console.screenY) range.row s.console.screenX 0x0A).2
  have wraps : ¬ (storeTyped s 0x0A).keyboard.vdX = screenLegth := by
    change ¬ s.keyboard.vdX + 1 = 80
    omega
  -- The newline has left the editor on the screen, so that the end of the line only moves it.
  have row : (prout s 0x0A).keyboard.vdY ≤ screenWidth + 1 := by
    have editor : (prout s 0x0A).keyboard.vdY =
        (printPosition s.console.screenX s.console.screenY 0x0A).2 := by
      rw [prout_eq below, decide_eq_false wraps]
      exact congrArg Place.vdY place
    rw [editor]
    simp only [screenWidth]
    omega
  have ended : (enterKey s).liveSheet = (prout s 0x0A).liveSheet := by
    have above : enterKey s = _ := if_pos row
    rw [above]
    rfl
  rw [ended, printed]
  exact shows.print 0x0A

/-- Dropping a character from the line is no matter of the screen. -/
theorem dropTyped_sheet (s : Kernel) : (dropTyped s).liveSheet = s.liveSheet := by
  unfold dropTyped
  split <;> rfl

/-- When Backspace is no more than it should be: for an empty line nothing, else one cell. -/
def ErasesEcho (s : Kernel) : Prop :=
  if s.keyboard.bufIndex = 0 then s.keyboard.count = 0 ∨ (s.keyboard.vdX = 0 ∧ s.keyboard.vdY = 0)
  else 0 < s.keyboard.count ∧ s.keyboard.vdX = s.console.screenX ∧
    s.keyboard.vdY = s.console.screenY ∧ ¬ (s.console.screenX = 0 ∧ s.console.screenY = 0)

instance (s : Kernel) : Decidable (ErasesEcho s) :=
  inferInstanceAs (Decidable (if s.keyboard.bufIndex = 0 then
    s.keyboard.count = 0 ∨ (s.keyboard.vdX = 0 ∧ s.keyboard.vdY = 0)
    else 0 < s.keyboard.count ∧ s.keyboard.vdX = s.console.screenX ∧
      s.keyboard.vdY = s.console.screenY ∧ ¬ (s.console.screenX = 0 ∧ s.console.screenY = 0)))

/-- Backspace erases the cell before the position. -/
theorem backspace_shows {tty : Tty} (shows : Shows s.liveSheet tty.screen)
    (length : tty.line.length = s.keyboard.bufIndex) (erases : ErasesEcho s) :
    Shows (backspace s).liveSheet (tty.echo .backspace) := by
  have empty : tty.line = [] ↔ s.keyboard.bufIndex = 0 := by
    rw [← length, List.length_eq_zero_iff]
  simp only [Tty.echo, empty]
  unfold ErasesEcho at erases
  unfold backspace
  by_cases none : s.keyboard.bufIndex = 0
  · rw [if_pos none] at erases ⊢
    -- One of the first two tests refuses it.
    split
    · exact shows
    · rename_i counted
      rw [if_pos (erases.resolve_left counted)]
      exact shows
  · rw [if_neg none] at erases ⊢
    obtain ⟨counted, column, row, away⟩ := erases
    have onColumn : 0 ≤ s.console.screenX ∧ s.console.screenX < 80 := shows.inside.column
    have onRow : 0 ≤ s.console.screenY ∧ s.console.screenY < 25 := shows.inside.row
    have erased := (shows.back away).put space
    have corner : ¬ (s.keyboard.vdX = 0 ∧ s.keyboard.vdY = 0) := by
      rw [column, row]
      exact away
    rw [if_neg (Nat.ne_of_gt counted), if_neg corner, if_neg fun third => none third.2.2]
    have cell : ∀ x y : Int, (0 ≤ x ∧ x < 80) → (0 ≤ y ∧ y < 25) →
        window videoBase sheetBytes (storeCell (cellAddr videoBase x y) space s.console.video) =
          storeCell (cellAddr 0 x y) space s.liveSheet.cells := by
      intro x y narrow low
      rw [cellAddr_eq narrow low, window_storeAt narrow low]
      rfl
    by_cases first : s.keyboard.vdX = 0
    · -- From the first column the end of the row above is erased.
      have zero : s.liveSheet.x = 0 := column.symm.trans first
      rw [if_pos zero, if_pos zero] at erased
      rw [if_pos first, dropTyped_sheet]
      have above := cell 79 (s.console.screenY - 1) (by decide) (by omega)
      change Shows ⟨window videoBase sheetBytes (storeCell (cellAddr videoBase 79
        (s.console.screenY - 1)) space s.console.video), 79, s.keyboard.vdY - 1⟩ _
      rw [above, row]
      exact erased
    · have right : ¬ s.liveSheet.x = 0 := fun zero => first (column.trans zero)
      rw [if_neg right, if_neg right] at erased
      rw [if_neg first, dropTyped_sheet]
      have beside := cell (s.console.screenX - 1) s.console.screenY (by omega) onRow
      change Shows ⟨window videoBase sheetBytes (storeCell (cellAddr videoBase
        (s.console.screenX - 1) s.console.screenY) space s.console.video), s.keyboard.vdX - 1,
        s.keyboard.vdY⟩ _
      rw [beside, column, row]
      exact erased

/-- Clearing the screen leaves it blank. -/
theorem clearKey_shows (s : Kernel) : Shows (clearKey s).liveSheet .blank := by
  have shown := shows_blank s.console.video
  -- The memory of the screen stays closed, so that nobody unfolds its two thousand cells.
  simp only [clearKey, clear, resetCursor, resetPosition, getCursor, getPosition,
    Kernel.setConsole, Kernel.setSwitch, Kernel.setKeyboard, Kernel.liveSheet]
  generalize clearScreen s.console.video = video at shown ⊢
  exact shown

/-- What makes a key do on the screen what it does to the line. -/
def KeyEchoes (s : Kernel) : KeyAction → Prop
  -- The line is full by either count, and the editor is in the last column with the screen.
  | .char _ => (s.keyboard.count = bufsize ↔ s.keyboard.bufIndex = bufsize) ∧
      (s.keyboard.count ≠ bufsize → (s.keyboard.vdX = 79 ↔ s.console.screenX = 79))
  | .backspace => ErasesEcho s
  -- The newline is printed, and not wrapped to one more.
  | .enter => s.keyboard.count ≠ bufsize ∧ s.keyboard.vdX ≠ 79
  | .clear | .display _ | .nothing => True

instance (s : Kernel) : (action : KeyAction) → Decidable (KeyEchoes s action)
  | .char _ => inferInstanceAs (Decidable (_ ∧ _))
  | .backspace => inferInstanceAs (Decidable (ErasesEcho s))
  | .enter => inferInstanceAs (Decidable (_ ∧ _))
  | .clear | .display _ | .nothing => inferInstanceAs (Decidable True)

/-- The modifier flags have no part in it. -/
theorem KeyEchoes.flags {action : KeyAction} (echoes : KeyEchoes s action) (c : Byte) :
    KeyEchoes (s.setKeyboard fun kb => flagsAfter kb c) action := by
  obtain ⟨-, index, count, vdX, vdY⟩ := flagsAfter_kept s.keyboard c
  unfold KeyEchoes ErasesEcho Kernel.setKeyboard at *
  simp only [index, count, vdX, vdY]
  exact echoes

/-- Then it edits the line. -/
theorem KeyEchoes.edits {action : KeyAction} (echoes : KeyEchoes s action) :
    KeyEditsLine s action := by
  -- What the screen needs of a key is more than what the line needs.
  cases action with
  | char c => exact echoes.1
  | backspace =>
    intro some
    have echoes : ErasesEcho s := echoes
    unfold ErasesEcho at echoes
    rw [if_neg (Nat.ne_of_gt some)] at echoes
    obtain ⟨counted, column, row, away⟩ := echoes
    rw [column, row]
    exact ⟨counted, away⟩
  | enter | clear | display | nothing => trivial

/-- It stores to cells of the screen only. -/
theorem KeyEchoes.inside {action : KeyAction} (echoes : KeyEchoes s action)
    (range : s.positions.InRange) : ErasesInside s action := by
  -- Only Backspace stores before the position, and there has to be a cell.
  have onRow : 0 ≤ s.console.screenY ∧ s.console.screenY < 25 := range.row
  cases action with
  | backspace =>
    have echoes : ErasesEcho s := echoes
    unfold ErasesEcho at echoes
    by_cases none : s.keyboard.bufIndex = 0
    · rw [if_pos none] at echoes
      exact echoes.imp id .inl
    · rw [if_neg none] at echoes
      obtain ⟨-, column, row, away⟩ := echoes
      refine .inr (.inr ?_)
      split
      · omega
      · exact away
  | char | enter | clear | display | nothing => trivial

/-- A key that is typed on a line changes the screen of the displayed terminal only. -/
theorem key_others {action : KeyAction} (range : s.positions.InRange) (onLine : action.OnLine)
    (erases : ErasesInside s action) {u : Terminal} (other : u ≠ s.currentId) :
    (performKey s action).sheet u = s.sheet u := by
  have stored : action ≠ .clear → AgreeOutside videoBase sheetBytes s.console.video
      (performKey s action).console.video := fun kept =>
    (performKey_stores s kept fun t same => absurd same (onLine t)).agree
      ((keyCells_inside_iff ⟨range.column, range.row⟩ action).mpr erases)
  -- Only Enter writes to a record, and that is the displayed terminal's.
  have devices : DeviceOnly s (performKey s action) → action ≠ .clear →
      (performKey s action).sheet u = s.sheet u := fun same kept =>
    sheet_live same.currentId (stored kept) (congrFun same.terminals u) other
  cases action with
  | char c => exact devices (deviceOnly_prout s c) KeyAction.noConfusion
  | backspace => exact devices (deviceOnly_backspace s) KeyAction.noConfusion
  | enter =>
    have printed := deviceOnly_prout s 0x0A
    have ended := deviceOnly_nextLine (clearbuffuer (copyToTeminal (prout s 0x0A)
      (prout s 0x0A).keyboard.keyboardbuf (prout s 0x0A).keyboard.bufIndex))
    have shown : (performKey s .enter).currentId = s.currentId :=
      ended.currentId.trans printed.currentId
    have record : (performKey s .enter).terminals u = s.terminals u := by
      have there : u ≠ (prout s 0x0A).currentId := printed.currentId.symm ▸ other
      have copied : (copyToTeminal (prout s 0x0A) (prout s 0x0A).keyboard.keyboardbuf
          (prout s 0x0A).keyboard.bufIndex).terminals u = (prout s 0x0A).terminals u :=
        Function.update_of_ne there _ _
      exact (congrFun ended.terminals u).trans (copied.trans (congrFun printed.terminals u))
    exact sheet_live shown (stored KeyAction.noConfusion) record other
  | clear =>
    have same := deviceOnly_clearKey s
    refine sheet_live same.currentId ?_ (congrFun same.terminals u) other
    intro address outside
    have video : (clearKey s).console.video = clearScreen s.console.video := by
      simp only [clearKey, clear, resetCursor, resetPosition, getCursor, getPosition,
        Kernel.setConsole, Kernel.setSwitch, Kernel.setKeyboard]
    change (clearKey s).console.video address = _
    rw [video, clearScreen_apply, if_neg]
    simp only [sheetBytes] at outside
    omega
  | display t => exact absurd rfl (onLine t)
  | nothing => rfl

/-- It is echoed on the displayed terminal. -/
theorem key_shows {tty : Tty} {action : KeyAction} (range : s.positions.InRange)
    (onLine : action.OnLine) (shows : Shows s.liveSheet tty.screen)
    (length : tty.line.length = s.keyboard.bufIndex) (fits : s.keyboard.bufIndex ≤ bufsize)
    (echoes : KeyEchoes s action) (printable : ∀ c, action = .char c → 0x20 ≤ c) :
    Shows (performKey s action).liveSheet (tty.key action).screen := by
  -- Each kind of key has its lemma, and none of them types a newline as a character.
  cases action with
  | char c =>
    refine prout_shows range shows length fits echoes.1 echoes.2 ?_
    have visible := printable c rfl
    rintro (rfl | rfl)
    · exact absurd visible (by decide)
    · exact absurd visible (by decide)
  | backspace => exact backspace_shows shows length echoes
  | enter => exact enterKey_shows range shows echoes.1 echoes.2
  | clear => exact clearKey_shows s
  | display t => exact absurd rfl (onLine t)
  | nothing => exact shows

/-- A function key of the displayed terminal announces which one it is. -/
theorem display_announced (range : s.positions.InRange) :
    Announced s (alreadyIn (UInt8.ofNat (0x31 + s.currentId.val)))
      (performKey s (.display s.currentId)) := by
  -- The three routines test for their own terminal in the same way.
  have printed : ∀ t, t = s.currentId → performKey s (.display t) = putText
      (copyKeyboardBuf s s.keyboard.keyboardbuf s.keyboard.bufIndex)
      (alreadyIn (UInt8.ofNat (0x31 + t.val))) := by
    intro t here
    match t with
    | 0 | 1 | 2 => exact if_pos here.symm
  have copied : (copyKeyboardBuf s s.keyboard.keyboardbuf s.keyboard.bufIndex).positions.InRange :=
    range
  rw [printed _ rfl]
  exact sheet_putText copied _

/-- A terminal that is opened is blank, and no other one is changed. -/
theorem display_opens (range : s.positions.InRange) {t : Terminal} (first : t ≠ 0)
    (other : t ≠ s.currentId) (closed : (s.terminals t).isOpen = false) :
    Shows ((displayKey s t).sheet t) .blank ∧
      ∀ u ≠ t, (displayKey s t).sheet u = s.sheet u := by
  have moved := displayKey_inRange range t
  have opened : displayKey s t = openTerminal (leave s) t := by
    have differ : ¬ (copyKeyboardBuf s s.keyboard.keyboardbuf s.keyboard.bufIndex).currentId = t :=
      fun same => other same.symm
    have still : ¬ ((leave s).terminals t).isOpen = true := by
      rw [leave_terminals s other, closed]
      exact Bool.false_ne_true
    unfold displayKey
    match t with
    | 0 => exact absurd rfl first
    | 1 | 2 => exact (if_neg differ).trans (if_neg still)
  have shown : (displayKey s t).currentId = t := by
    rw [opened]
    rfl
  have video : (displayKey s t).console.video =
      clearScreen (copyBlock (videoPtr s.currentId) videoBase onepage s.console.video) := by
    rw [opened]
    simp only [openTerminal, clear, resetCursor, resetPosition, getCursor, getPosition,
      Kernel.setConsole, Kernel.setSwitch, Kernel.setTerminal, Kernel.display, leave_video]
  constructor
  · have corner : (displayKey s t).console.screenX = 0 ∧ (displayKey s t).console.screenY = 0 := by
      rw [opened]
      exact ⟨rfl, rfl⟩
    have blank := shows_blank (copyBlock (videoPtr s.currentId) videoBase onepage s.console.video)
    have front := sheet_front (displayKey s t)
    rw [shown] at front
    rw [front, Kernel.liveSheet, video, corner.1, corner.2]
    exact blank
  · intro u away
    have behind : (displayKey s t).desk.faces u = (displayKey s t).savedFace u :=
      if_neg (shown.symm ▸ away)
    rw [sheet_face moved, sheet_face range, behind]
    refine congrArg Face.sheet ?_
    -- The terminal that is left was saved just before, and the others have been.
    have kept : (displayKey s t).savedFace u = (leave s).savedFace u := by
      refine savedFace_congr ?_ ?_
      · rw [opened]
        exact Function.update_of_ne away _ _
      · rw [video, window_videoPtr_clearScreen, leave_video]
    rw [kept]
    by_cases here : u = s.currentId
    · subst here
      rw [desk_front]
      obtain ⟨column, row⟩ := int32_of_inRange range
      exact leave_face column row
    · have saved : s.desk.faces u = s.savedFace u := if_neg here
      rw [saved]
      refine savedFace_congr (leave_terminals s here) ?_
      rw [leave_video]
      exact window_copyBlock_apart (videoPtr_disjoint here)

end Keys

end SmallOs
