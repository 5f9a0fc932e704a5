import SmallOs.Proofs.Process.VidmapFrame
import SmallOs.Proofs.Terminal.Coherence

/-! Where the screen functions store: the cells of every step, and when they are those of the screen. -/

namespace SmallOs

open Foundation Foundation.I386

/-- Both bytes of a cell, as they are addressed from `video_mem` on, are bytes of the screen. -/
def CellInside (cell : Int × Int) : Prop :=
  0 ≤ 2 * ((numCols : Int) * cell.2 + cell.1) ∧
    2 * ((numCols : Int) * cell.2 + cell.1) + 1 < sheetBytes

instance (cell : Int × Int) : Decidable (CellInside cell) :=
  inferInstanceAs (Decidable (_ ∧ _))

/-- The cells of a row, from its first column on. -/
def rowCells (a : Nat) : List (Int × Int) :=
  (List.range numCols).map fun b : Nat => ((b : Int), (a : Int))

/-- The cells `reset_video` and `clear_row` store, one row after the other. -/
def scrolledCells : List (Int × Int) :=
  (List.range numRows).flatMap rowCells

/-- The cells `putc` stores. -/
def putcCells (s : Kernel) (c : Byte) : List (Int × Int) :=
  if c = 0x0A ∨ c = 0x0D then if s.console.screenY = numRows - 1 then scrolledCells else []
  else [(s.console.screenX, s.console.screenY)]

/-- The cells stored while a text is printed. -/
def putTextCells (s : Kernel) : List Byte → List (Int × Int)
  | [] => []
  | c :: text => putcCells s c ++ putTextCells (putc s c) text

/-- The cells `prout` stores. -/
def proutCells (s : Kernel) (c : Byte) : List (Int × Int) :=
  if s.keyboard.count = bufsize then []
  else
    putcCells (storeTyped s c) c ++
      -- Past the last cell of the screen the page is scrolled once more.
      if (storeTyped s c).keyboard.vdX = screenLegth ∧
        (putc (storeTyped s c) c).keyboard.vdY + 1 = 25 then scrolledCells else []

/-- The cell `put_backspace` stores, or `put_upbackspace`, or the one at which it faults. -/
def backspaceCells (s : Kernel) : List (Int × Int) :=
  if s.keyboard.count = 0 ∨ (s.keyboard.vdX = 0 ∧ s.keyboard.vdY = 0) then []
  else if s.keyboard.vdX = 0 then [((numCols : Int) - 1, s.console.screenY - 1)]
  else [(s.console.screenX - 1, s.console.screenY)]

/-- The cells stored at the end of a line, where the page is scrolled unless the newline did it. -/
def nextLineCells (s : Kernel) : List (Int × Int) :=
  if s.keyboard.vdY ≤ screenWidth + 1 ∨ s.keyboard.enterFlag then [] else scrolledCells

/-- The cells stored for a key. -/
def keyCells (s : Kernel) : KeyAction → List (Int × Int)
  | .char c => proutCells s c
  | .backspace => backspaceCells s
  | .enter => proutCells s 0x0A ++ nextLineCells (prout s 0x0A)
  -- The displayed terminal's own key prints a text, and any other one copies pages.
  | .display t =>
    if t = s.currentId then
      putTextCells (copyKeyboardBuf s s.keyboard.keyboardbuf s.keyboard.bufIndex)
        (alreadyIn (UInt8.ofNat (0x31 + t.val)))
    else []
  | .clear | .nothing => []

/-- The cells the five functions store in one step, up to the one at which the step faults. -/
def stepCells (env : Env) (s : Kernel) : PlaceEvent → List (Int × Int)
  | .machine (.keyboard c) => keyCells s (pressAction s.keyboard c)
  | .machine (.call frame request) => putTextCells s (callText env s frame request)
  | .machine (.pit _ _) | .machine .rtc => []
  | .putc c => putcCells s c

/-- Memory after stores to the cells of a list, one after the other. -/
inductive StoresCells : List (Int × Int) → (Nat → Byte) → (Nat → Byte) → Prop where
  | nil (video : Nat → Byte) : StoresCells [] video video
  | cons {x y : Int} {cells : List (Int × Int)} {video after : Nat → Byte} (c : Byte)
      (rest : StoresCells cells (storeCell (cellAddr videoBase x y) c video) after) :
      StoresCells ((x, y) :: cells) video after

section Stores

variable {cells more : List (Int × Int)} {video middle after : Nat → Byte} {s : Kernel}

theorem StoresCells.append (first : StoresCells cells video middle)
    (rest : StoresCells more middle after) : StoresCells (cells ++ more) video after := by
  induction first with
  | nil => exact rest
  | cons c _ ih => exact .cons c (ih rest)

/-- A loop stores the cells of its turns. -/
theorem StoresCells.loop {α : Type} {turn : (Nat → Byte) → α → (Nat → Byte)}
    {turnCells : α → List (Int × Int)} {indices : List α}
    (one : ∀ i ∈ indices, ∀ video, StoresCells (turnCells i) video (turn video i))
    (video : Nat → Byte) :
    StoresCells (indices.flatMap turnCells) video (indices.foldl turn video) := by
  induction indices generalizing video with
  | nil => exact .nil video
  | cons i indices ih =>
    rw [List.forall_mem_cons] at one
    exact (one.1 video).append (ih one.2 _)

/-- A loop along a row stores its cells. -/
theorem storesCells_row {turn : (Nat → Byte) → Nat → (Nat → Byte)} (a : Nat)
    (one : ∀ b video, ∃ c, turn video b = storeCell (videoBase + 2 * (numCols * a + b)) c video)
    (video : Nat → Byte) :
    StoresCells (rowCells a) video ((List.range numCols).foldl turn video) := by
  rw [rowCells, List.map_eq_flatMap]
  refine StoresCells.loop (fun b _ video => ?_) video
  obtain ⟨c, stored⟩ := one b video
  have address : cellAddr videoBase b a = videoBase + 2 * (numCols * a + b) := by
    simp only [cellAddr, numCols]
    omega
  rw [stored, ← address]
  exact .cons c (.nil _)

/-- Scrolling the page stores all cells of the screen. -/
theorem scrolled_stores (s : Kernel) :
    StoresCells scrolledCells s.console.video (clearRow (resetVideo s)).console.video := by
  -- The rows above are stored first, one after the other, and then the last row is blanked.
  have moved : ∀ video, StoresCells ((List.range (numRows - 1)).flatMap rowCells) video
      (scrollRows videoBase video) := by
    intro video
    unfold scrollRows
    exact StoresCells.loop (fun a _ video => storesCells_row a (fun b video => ⟨_, rfl⟩) video) video
  have last : ∀ video, StoresCells (rowCells (numRows - 1)) video (blankRow videoBase video) := by
    intro video
    unfold blankRow
    exact storesCells_row (numRows - 1) (fun b video => ⟨space, rfl⟩) video
  have rows : scrolledCells = (List.range (numRows - 1)).flatMap rowCells ++ rowCells (numRows - 1) := by
    have split : List.range numRows = List.range (numRows - 1) ++ [numRows - 1] := rfl
    rw [← List.flatMap_singleton rowCells, ← List.flatMap_append, ← split]
    rfl
  simp only [rows, clearRow, resetVideo, Kernel.setConsole]
  exact (moved s.console.video).append (last (scrollRows videoBase s.console.video))

theorem putc_stores (s : Kernel) (c : Byte) :
    StoresCells (putcCells s c) s.console.video (putc s c).console.video := by
  unfold putcCells putc
  split
  · split
    · exact scrolled_stores _
    · exact .nil _
  · exact .cons c (.nil _)

theorem putText_stores (s : Kernel) (text : List Byte) :
    StoresCells (putTextCells s text) s.console.video (putText s text).console.video := by
  induction text generalizing s with
  | nil => exact .nil _
  | cons c text ih => exact (putc_stores s c).append (ih (putc s c))

/-- Settling the positions stores only where it scrolls. -/
theorem settle_stores (wraps : Bool) (s : Kernel) :
    StoresCells (if wraps = true ∧ s.keyboard.vdY + 1 = 25 then scrolledCells else [])
      s.console.video (settle wraps s).console.video := by
  -- Without a wrap nothing is settled, and with one the page scrolls on the last row only.
  unfold settle
  cases wraps with
  | false => exact .nil _
  | true =>
    simp only [true_and, if_true]
    change StoresCells (if s.keyboard.vdY + 1 = 25 then scrolledCells else []) s.console.video
      (if s.keyboard.vdY + 1 = 25 then _ else _ : Kernel).console.video
    split
    · exact scrolled_stores _
    · exact .nil _

theorem prout_stores (s : Kernel) (c : Byte) :
    StoresCells (proutCells s c) s.console.video (prout s c).console.video := by
  unfold proutCells
  by_cases full : s.keyboard.count = bufsize
  · rw [if_pos full, prout_full full]
    exact .nil _
  · rw [if_neg full, prout_eq full]
    have settled := settle_stores ((storeTyped s c).keyboard.vdX = screenLegth)
      (putc (storeTyped s c) c)
    simp only [decide_eq_true_eq] at settled
    exact (putc_stores (storeTyped s c) c).append settled

theorem backspace_stores (s : Kernel) :
    StoresCells (backspaceCells s) s.console.video (backspace s).console.video := by
  -- What follows the store drops a character from the line, and sets positions.
  have dropped : ∀ m : Kernel, (dropTyped m).console = m.console := by
    intro m
    unfold dropTyped
    split <;> rfl
  unfold backspaceCells backspace
  -- Three tests of `backspace` return before anything is stored.
  by_cases none : s.keyboard.count = 0
  · rw [if_pos (.inl none), if_pos none]
    exact .nil _
  by_cases corner : s.keyboard.vdX = 0 ∧ s.keyboard.vdY = 0
  · rw [if_pos (.inr corner), if_neg none, if_pos corner]
    exact .nil _
  have third : ¬ (s.keyboard.vdX = 0 ∧ s.keyboard.count = 0 ∧ s.keyboard.bufIndex = 0) :=
    fun empty => none empty.2.1
  rw [if_neg (not_or.mpr ⟨none, corner⟩), if_neg none, if_neg corner, if_neg third]
  -- One cell is blanked, in the row above where the editor stands in the first column.
  by_cases first : s.keyboard.vdX = 0
  · rw [if_pos first, if_pos first]
    simp only [dropped]
    exact .cons space (.nil _)
  · rw [if_neg first, if_neg first]
    simp only [dropped]
    exact .cons space (.nil _)

theorem nextLine_stores (s : Kernel) :
    StoresCells (nextLineCells s) s.console.video (nextLine s).console.video := by
  -- The page scrolls when the editor is on the last row and the flag is not set.
  unfold nextLineCells nextLine
  by_cases above : s.keyboard.vdY ≤ screenWidth + 1
  · rw [if_pos (.inl above), if_pos above]
    exact .nil _
  · rw [if_neg above]
    by_cases scrolled : s.keyboard.enterFlag
    · rw [if_pos (.inr scrolled)]
      simp only [if_pos scrolled]
      exact .nil _
    · rw [if_neg (not_or.mpr ⟨above, scrolled⟩)]
      simp only [if_neg scrolled]
      exact scrolled_stores _

/-- A key that neither clears the screen nor shows another page stores the cells of its list. -/
theorem performKey_stores (s : Kernel) {action : KeyAction} (kept : action ≠ .clear)
    (same : ∀ t, action = .display t → t = s.currentId) :
    StoresCells (keyCells s action) s.console.video (performKey s action).console.video := by
  cases action with
  | char c => exact prout_stores s c
  | backspace => exact backspace_stores s
  | enter =>
    -- Handing the line over stores no cell.
    exact (prout_stores s 0x0A).append (nextLine_stores (clearbuffuer (copyToTeminal (prout s 0x0A)
      (prout s 0x0A).keyboard.keyboardbuf (prout s 0x0A).keyboard.bufIndex)))
  | clear => exact absurd rfl kept
  | display t =>
    have here := same t rfl
    rw [keyCells, if_pos here]
    -- The text is printed by the routine of the displayed terminal.
    have printed : (performKey s (.display t)) = putText
        (copyKeyboardBuf s s.keyboard.keyboardbuf s.keyboard.bufIndex)
        (alreadyIn (UInt8.ofNat (0x31 + t.val))) := by
      match t with
      | 0 | 1 | 2 => exact if_pos here.symm
    rw [printed]
    exact putText_stores _ _
  | nothing => exact .nil _

end Stores

/-- When erasing stores inside the screen: the screen's own position must be behind its first cell. -/
def ErasesInside (s : Kernel) : KeyAction → Prop
  | .backspace =>
    -- A line without characters is left alone, and so is the corner of the editor.
    s.keyboard.count = 0 ∨ (s.keyboard.vdX = 0 ∧ s.keyboard.vdY = 0) ∨
      if s.keyboard.vdX = 0 then 1 ≤ s.console.screenY
      else ¬ (s.console.screenX = 0 ∧ s.console.screenY = 0)
  | _ => True

/-- The machine with its screen: it runs, or it hangs in the page fault of a store to the screen. -/
inductive Screening where
  | running (s : Kernel)
  /-- The handler prints a text at the same position, so that it faults in turn. -/
  | faulted (s : Kernel)

/-- The kernel's state, which a fault leaves as it was when the store was tried. -/
def Screening.kernel : Screening → Kernel
  | .running s | .faulted s => s

/-- Backspace stores to a page that is absent. -/
def FaultsAtBackspace (s : Kernel) (action : KeyAction) : Prop :=
  action = .backspace ∧ erases s = true ∧ ¬ BlanksPresent s

instance (s : Kernel) (action : KeyAction) : Decidable (FaultsAtBackspace s action) :=
  inferInstanceAs (Decidable (_ ∧ _))

/-- One step of the machine or a printed character, where a Backspace may fault. -/
def screenStep (env : Env) : Screening → PlaceEvent → Option Screening
  | .faulted _, _ => none
  | .running s, .machine (.keyboard c) =>
    -- The flags and the position are set by then, and nothing after the store is done.
    if FaultsAtBackspace s (pressAction s.keyboard c) then
      some (.faulted (movedBack (s.setKeyboard fun kb => flagsAfter kb c)))
    else (placeStep env s (.machine (.keyboard c))).map .running
  | .running s, event => (placeStep env s event).map .running

/-- The condition on a step: only Backspace may store elsewhere. -/
def StepErasesInside (m : Screening) : PlaceEvent → Prop
  | .machine (.keyboard c) => ErasesInside m.kernel (pressAction m.kernel.keyboard c)
  | _ => True

instance (s : Kernel) : (action : KeyAction) → Decidable (ErasesInside s action)
  | .backspace => inferInstanceAs (Decidable (s.keyboard.count = 0 ∨
      (s.keyboard.vdX = 0 ∧ s.keyboard.vdY = 0) ∨
      if s.keyboard.vdX = 0 then 1 ≤ s.console.screenY
      else ¬ (s.console.screenX = 0 ∧ s.console.screenY = 0)))
  | .char _ | .enter | .clear | .display _ | .nothing => inferInstanceAs (Decidable True)

instance (m : Screening) : (event : PlaceEvent) → Decidable (StepErasesInside m event)
  | .machine (.keyboard c) =>
    inferInstanceAs (Decidable (ErasesInside m.kernel (pressAction m.kernel.keyboard c)))
  | .machine (.pit _ _) | .machine .rtc | .machine (.call _ _) | .putc _ =>
    inferInstanceAs (Decidable True)

/-- A step stores to cells of the screen only, tries no other one, and leaves the position on it. -/
structure VideoBounded (env : Env) (m : Screening) (event : PlaceEvent) : Prop where
  stores : ∀ cell ∈ stepCells env m.kernel event, CellInside cell
  position : Leads (screenStep env) (fun next => next.kernel.liveSheet.Inside) m event

section Bounds

variable {env : Env} {s next : Kernel}

theorem scrolledCells_inside : ∀ cell ∈ scrolledCells, CellInside cell := by
  intro cell there
  simp only [scrolledCells, rowCells, List.mem_flatMap, List.mem_map, List.mem_range] at there
  obtain ⟨a, row, b, column, rfl⟩ := there
  simp only [numRows, numCols] at row column
  simp only [CellInside, numCols, sheetBytes]
  omega

/-- A cell of the screen lies inside. -/
theorem cellInside_of_inside {x y : Int} (column : 0 ≤ x ∧ x < 80) (row : 0 ≤ y ∧ y < 25) :
    CellInside (x, y) := by
  simp only [CellInside, numCols, sheetBytes]
  omega

theorem putcCells_inside (inside : s.liveSheet.Inside) (c : Byte) :
    ∀ cell ∈ putcCells s c, CellInside cell := by
  unfold putcCells
  split
  · split
    · exact scrolledCells_inside
    · exact fun _ none => absurd none List.not_mem_nil
  · intro cell there
    rw [List.mem_singleton.mp there]
    exact cellInside_of_inside inside.column inside.row

theorem putTextCells_inside (inside : s.liveSheet.Inside) (text : List Byte) :
    ∀ cell ∈ putTextCells s text, CellInside cell := by
  -- The position stays on the screen along the text.
  induction text generalizing s with
  | nil => exact fun _ none => absurd none List.not_mem_nil
  | cons c text ih =>
    intro cell there
    have next : (putc s c).liveSheet.Inside := by
      rw [putc_sheet inside]
      exact inside.print c
    rcases List.mem_append.mp there with first | rest
    · exact putcCells_inside inside c cell first
    · exact ih next cell rest

theorem proutCells_inside (inside : s.liveSheet.Inside) (c : Byte) :
    ∀ cell ∈ proutCells s c, CellInside cell := by
  unfold proutCells
  split
  · exact fun _ none => absurd none List.not_mem_nil
  · intro cell there
    rcases List.mem_append.mp there with first | rest
    · exact putcCells_inside (s := storeTyped s c) inside c cell first
    · split at rest
      · exact scrolledCells_inside cell rest
      · exact absurd rest List.not_mem_nil

/-- Erasing stores inside exactly under the condition. -/
theorem backspaceCells_inside_iff (inside : s.liveSheet.Inside) :
    (∀ cell ∈ backspaceCells s, CellInside cell) ↔ ErasesInside s .backspace := by
  have column : 0 ≤ s.console.screenX ∧ s.console.screenX < 80 := inside.column
  have row : 0 ≤ s.console.screenY ∧ s.console.screenY < 25 := inside.row
  unfold backspaceCells ErasesInside
  by_cases none : s.keyboard.count = 0
  · simp [none]
  by_cases corner : s.keyboard.vdX = 0 ∧ s.keyboard.vdY = 0
  · simp [corner]
  rw [if_neg (not_or.mpr ⟨none, corner⟩), or_iff_right none, or_iff_right corner]
  by_cases first : s.keyboard.vdX = 0
  · -- From the first column the last cell of the row above is erased.
    rw [if_pos first, if_pos first, List.forall_mem_singleton]
    simp only [CellInside, numCols, sheetBytes]
    omega
  · rw [if_neg first, if_neg first, List.forall_mem_singleton]
    simp only [CellInside, numCols, sheetBytes]
    omega

/-- What a key asks for stores inside exactly under the condition. -/
theorem keyCells_inside_iff (inside : s.liveSheet.Inside) (action : KeyAction) :
    (∀ cell ∈ keyCells s action, CellInside cell) ↔ ErasesInside s action := by
  -- Only Backspace can store outside: every other key prints or scrolls.
  cases action with
  | char c => exact iff_of_true (proutCells_inside inside c) trivial
  | backspace => exact backspaceCells_inside_iff inside
  | enter =>
    refine iff_of_true (fun cell there => ?_) trivial
    rcases List.mem_append.mp there with printed | ended
    · exact proutCells_inside inside 0x0A cell printed
    · unfold nextLineCells at ended
      split at ended
      · exact absurd ended List.not_mem_nil
      · exact scrolledCells_inside cell ended
  | display t =>
    refine iff_of_true (fun cell there => ?_) trivial
    simp only [keyCells] at there
    split at there
    · exact putTextCells_inside
        (s := copyKeyboardBuf s s.keyboard.keyboardbuf s.keyboard.bufIndex) inside _ cell there
    · exact absurd there List.not_mem_nil
  | clear | nothing => exact iff_of_true (fun _ none => absurd none List.not_mem_nil) trivial

/-- A step stores inside exactly under the condition. -/
theorem stepCells_inside_iff (inside : s.liveSheet.Inside) (event : PlaceEvent) :
    (∀ cell ∈ stepCells env s event, CellInside cell) ↔
      StepErasesInside (.running s) event := by
  cases event with
  | putc c => exact iff_of_true (putcCells_inside inside c) trivial
  | machine event =>
    cases event with
    | keyboard c => exact keyCells_inside_iff inside _
    | call frame request => exact iff_of_true (putTextCells_inside inside _) trivial
    | pit | rtc => exact iff_of_true (fun _ none => absurd none List.not_mem_nil) trivial

/-- Every step keeps the positions on the screen, whether it stores inside or not. -/
theorem placeStep_inRange {event : PlaceEvent} (taken : placeStep env s event = some next)
    (range : s.positions.InRange) : next.positions.InRange := by
  cases event with
  | machine event => exact step_inRange taken range
  | putc c =>
    cases taken
    exact putc_inRange range c

/-- The screen's own position is one of them. -/
theorem Positions.InRange.inside (range : s.positions.InRange) : s.liveSheet.Inside :=
  ⟨range.column, range.row⟩

/-- Where Backspace erases, it stores to the one cell its functions have moved to. -/
theorem backspaceCells_erasing (erasing : erases s = true) :
    backspaceCells s = [((movedBack s).console.screenX, (movedBack s).console.screenY)] := by
  obtain ⟨counted, away⟩ := of_decide_eq_true erasing
  unfold backspaceCells movedBack
  rw [if_neg (not_or.mpr ⟨counted, away⟩)]
  split
  · rfl
  · rfl

/-- From positions on the screen, a Backspace faults exactly when its cell is not one of the screen. -/
theorem faultsAtBackspace_iff (inside : s.liveSheet.Inside) (action : KeyAction) :
    FaultsAtBackspace s action ↔ ¬ ErasesInside s action := by
  cases action with
  | backspace =>
    rw [← backspaceCells_inside_iff inside]
    by_cases erasing : erases s = true
    · have column : 0 ≤ s.console.screenX ∧ s.console.screenX < 80 := inside.column
      have row : 0 ≤ s.console.screenY ∧ s.console.screenY < 25 := inside.row
      rw [backspaceCells_erasing erasing, List.forall_mem_singleton]
      simp only [FaultsAtBackspace, true_and, erasing, BlanksPresent, PresentCell, CellInside]
      -- The cell is one of the screen, or the one right in front of it.
      unfold movedBack
      split
      · simp only [stepUp, Kernel.setConsole, numCols, onepage, sheetBytes]
        omega
      · simp only [stepLeft, Kernel.setConsole, numCols, onepage, sheetBytes]
        omega
    · -- One of the first tests returns, so nothing is stored.
      have none : backspaceCells s = [] := by
        refine if_pos ?_
        simpa [erases, or_iff_not_imp_left] using erasing
      rw [none]
      exact iff_of_false (fun faults => erasing faults.2.1)
        (not_not_intro fun _ there => absurd there List.not_mem_nil)
  | char | enter | clear | display | nothing =>
    exact iff_of_false (fun faults => KeyAction.noConfusion faults.1) (not_not_intro trivial)

/-- A step that erases inside does not fault, and is one of the machine. -/
theorem screenStep_inside {after : Screening} {event : PlaceEvent} (inside : s.liveSheet.Inside)
    (erases : StepErasesInside (.running s) event)
    (taken : screenStep env (.running s) event = some after) :
    ∃ next, placeStep env s event = some next ∧ after = .running next := by
  -- The step differs from that of the machine only where a Backspace faults.
  have runs : (placeStep env s event).map .running = some after := by
    cases event with
    | putc c => exact taken
    | machine event =>
      cases event with
      | keyboard c =>
        have faultless : ¬ FaultsAtBackspace s (pressAction s.keyboard c) := fun faults =>
          (faultsAtBackspace_iff inside _).mp faults erases
        exact (if_neg faultless).symm.trans taken
      | pit | rtc | call => exact taken
  obtain ⟨next, moved, same⟩ := Option.map_eq_some_iff.mp runs
  exact ⟨next, moved, same.symm⟩

/-- From positions on the screen a step is bounded exactly under the condition. -/
theorem videoBounded_iff (range : s.positions.InRange) (event : PlaceEvent) :
    VideoBounded env (.running s) event ↔ StepErasesInside (.running s) event := by
  have cells : (∀ cell ∈ stepCells env s event, CellInside cell) ↔
      StepErasesInside (.running s) event := stepCells_inside_iff range.inside event
  constructor
  · exact fun bounded => cells.mp bounded.stores
  · refine fun erases => ⟨cells.mpr erases, fun after taken => ?_⟩
    obtain ⟨next, moved, rfl⟩ := screenStep_inside range.inside erases taken
    exact (placeStep_inRange moved range).inside

/-- The pages that are present among the first ones: the live screen and what follows it. -/
theorem present_initialTable (i : Nat) : present (initialTable i) = decide (0xB8 ≤ i ∧ i ≤ 0xBB) := by
  have aligned : 0x1000 ∣ 0x1000 * i := ⟨i, rfl⟩
  unfold initialTable
  split
  · rename_i screen
    rw [decide_eq_true screen]
    exact testBit_entry aligned (by decide)
  · rename_i other
    rw [decide_eq_false other]
    exact testBit_entry aligned (by decide)

/-- The cells that are said to be present are those whose page is translated, as the tables stand. -/
theorem presentCell_iff {tableAddr : Nat} (tables : LowTables tableAddr s.apart)
    (aligned : 0x1000 ∣ tableAddr) {x y : Int} (low : -0x5B800 ≤ (numCols : Int) * y + x)
    (high : (numCols : Int) * y + x < 0x1A4000) :
    PresentCell x y ↔ s.Present tableAddr (cellAddr videoBase x y) := by
  -- Behind the first page the low table is the one `paging_initialize` made.
  have entry : ∀ page : Nat, page ≠ 0 → page < 1024 →
      (s.translation tableAddr page).isSome = decide (0xB8 ≤ page ∧ page ≤ 0xBB) := by
    intro page other low
    have directory : s.pageDirectory (page / 1024) = tableAddr ||| presentRw := by
      rw [Nat.div_eq_of_lt low]
      exact tables.low
    have cell : s.firstPageTable (page % 1024) = initialTable page := by
      rw [Nat.mod_eq_of_lt low]
      exact tables.pages page other
    rw [translation_low aligned (by decide) (by decide) (by decide) directory, cell,
      present_initialTable]
    split
    · rename_i screen
      exact screen.symm
    · rename_i absent
      simpa using absent
  rw [Kernel.Present, entry _ ?_ ?_, decide_eq_true_eq]
  · simp only [PresentCell, cellAddr, videoBase, onepage, numCols] at *
    omega
  · simp only [cellAddr, videoBase, numCols] at *
    omega
  · simp only [cellAddr, videoBase, numCols] at *
    omega

end Bounds

/--
All stores of the screen functions lie on the screen as long as every Backspace erases inside.

In a run of the booted machine, with characters printed in between, every step stores inside and
leaves the position inside exactly when every Backspace meets the condition before it. Any other
Backspace faults, with the position off the screen, and is the last step of its run.
-/
theorem video_bounded {env : Env} {start : Kernel} {last : Screening} {labels : List PlaceEvent}
    (booted : boot env = some start) :
    Run (screenStep env) (VideoBounded env) (.running start) labels last ↔
      Run (screenStep env) StepErasesInside (.running start) labels last := by
  -- Under either condition the machine runs, and its positions are on the screen.
  let Sound (m : Screening) := ∃ s, m = .running s ∧ s.positions.InRange
  have base : Sound (.running start) := ⟨start, rfl, boot_inRange booted⟩
  have kept : ∀ (before : Screening) (label : PlaceEvent) (after : Screening), Sound before →
      StepErasesInside before label → screenStep env before label = some after → Sound after := by
    rintro _ label after ⟨s, rfl, range⟩ erases taken
    obtain ⟨next, moved, rfl⟩ := screenStep_inside range.inside erases taken
    exact ⟨next, rfl, placeStep_inRange moved range⟩
  have same : ∀ (before : Screening) (label : PlaceEvent), Sound before →
      (VideoBounded env before label ↔ StepErasesInside before label) := by
    rintro _ label ⟨s, rfl, range⟩
    exact videoBounded_iff range label
  constructor
  · intro run
    exact run.exchange Sound base
      (fun _ _ _ sound bounded taken => kept _ _ _ sound ((same _ _ sound).mp bounded) taken)
      fun _ _ _ sound bounded _ => (same _ _ sound).mp bounded
  · intro run
    exact run.exchange Sound base kept fun _ _ _ sound erases _ => (same _ _ sound).mpr erases

/-- Letters, Backspace, Enter, a second shell, a tick, a character printed, and a switch back. -/
def boundedRun : List PlaceEvent :=
  [.machine (.keyboard 0x1E), .machine (.keyboard 0x30), .machine (.keyboard 0x0E),
    .machine (.keyboard 0x1C)] ++ startSecond.map .machine ++
    [.putc 0x0A, .machine (.keyboard 0x30), .machine (.keyboard 0x3B), .machine (.keyboard 0x1E),
      .machine (.keyboard 0x0E)]

/-- Each step of that run stores inside, and leaves the position inside. -/
theorem video_bounded_sample : ∃ last,
    Run (screenStep sampleEnv) (VideoBounded sampleEnv) (.running sampleBooted) boundedRun last := by
  -- The run is executed, with the condition decided before each step.
  have given : (replay (screenStep sampleEnv) StepErasesInside (.running sampleBooted)
      boundedRun).isSome = true := by decide +kernel
  obtain ⟨last, reached⟩ := Option.isSome_iff_exists.mp given
  exact ⟨last, (video_bounded sample_boot).mpr (replay_run reached)⟩

/-- The keys of a line that is begun on the second terminal and erased on the first one. -/
def eraseElsewhere : List PlaceEvent :=
  -- Control and `l`, and then the function keys between which a letter is typed.
  [0x1D, 0x26, 0x9D, 0x38, 0x3C, 0x3B, 0x3C, 0x1E, 0x3B].map fun c => .machine (.keyboard c)

/-- Backspace on the first terminal faults at the cell in front of the screen, with the position there. -/
theorem erased_outside : ∃ before after,
    Run (screenStep sampleEnv) Always (.running sampleBooted) eraseElsewhere (.running before) ∧
      (∀ t : Terminal, t ≤ 1 → (before.terminals t).isOpen) ∧
      stepCells sampleEnv before (.machine (.keyboard 0x0E)) = [(-1, 0)] ∧
      ¬ before.Present sampleEnv.tableAddr (videoBase - 2) ∧
      screenStep sampleEnv (.running before) (.machine (.keyboard 0x0E)) = some (.faulted after) ∧
      after.console.screenX = -1 ∧ after.console.video = before.console.video ∧
      ¬ VideoBounded sampleEnv (.running before) (.machine (.keyboard 0x0E)) := by
  -- The run is executed up to the Backspace, where all facts are decided at once.
  have given : (replay (screenStep sampleEnv) Always (.running sampleBooted) eraseElsewhere).bind
      (fun m => match m with
        | .running s => some (decide ((∀ t : Terminal, t ≤ 1 → (s.terminals t).isOpen) ∧
            stepCells sampleEnv s (.machine (.keyboard 0x0E)) = [(-1, 0)] ∧
            ¬ s.Present sampleEnv.tableAddr (videoBase - 2) ∧
            FaultsAtBackspace s (pressAction s.keyboard 0x0E) ∧
            (movedBack (s.setKeyboard fun kb => flagsAfter kb 0x0E)).console.screenX = -1))
        | .faulted _ => none) = some true := by decide +kernel
  obtain ⟨m, reached, same⟩ := Option.bind_eq_some_iff.mp given
  cases m with
  | faulted s => cases same
  | running before =>
    obtain ⟨opened, cells, absent, faults, column⟩ := of_decide_eq_true (Option.some.inj same)
    have video : (movedBack (before.setKeyboard fun kb => flagsAfter kb 0x0E)).console.video =
        before.console.video := by
      unfold movedBack
      split
      · rfl
      · rfl
    refine ⟨before, _, replay_run reached, opened, cells, absent, if_pos faults, column, video,
      fun bounded => ?_⟩
    have inside := bounded.stores (-1, 0)
    rw [show stepCells sampleEnv (Screening.running before).kernel _ = _ from cells] at inside
    exact absurd (inside (List.mem_singleton_self _)) (by decide)

end SmallOs
