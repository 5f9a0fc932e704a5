import SmallOs.Proofs.Terminal.Output

/-! Whether the copies of the print position agree: the editor's, the screen's, and the cursor's. -/

namespace SmallOs

open Foundation

/-- The copies of the print position. -/
@[ext]
structure Place where
  vdX : Int
  vdY : Int
  screenX : Int
  screenY : Int
  /-- What `reset_cursor` last sent to the hardware. -/
  cursor : Nat

/-- The copies in a state of the kernel. -/
def Kernel.place (s : Kernel) : Place :=
  ⟨s.keyboard.vdX, s.keyboard.vdY, s.console.screenX, s.console.screenY, s.console.cursor⟩

namespace Place

/-- All copies denote one cell, which is on the screen. -/
structure Coherent (p : Place) : Prop where
  column : p.vdX = p.screenX
  row : p.vdY = p.screenY
  cursor : (p.cursor : Int) = numCols * p.screenY + p.screenX
  onColumn : 0 ≤ p.screenX ∧ p.screenX < 80
  onRow : 0 ≤ p.screenY ∧ p.screenY < 25

/-- What is sent to the hardware for a position. -/
def cursorCell (x y : Int) : Nat :=
  ((y * numCols + x) % 2 ^ 16).toNat

/-- All copies are one position. -/
def all (x y : Int) : Place :=
  ⟨x, y, x, y, cursorCell x y⟩

variable {p : Place} {x y : Int}

/-- On the screen the hardware gets the number of the cell. -/
theorem cursorCell_eq (column : 0 ≤ x ∧ x < 80) (row : 0 ≤ y ∧ y < 25) :
    (cursorCell x y : Int) = numCols * y + x := by
  simp only [cursorCell, numCols]
  omega

theorem coherent_all (column : 0 ≤ x ∧ x < 80) (row : 0 ≤ y ∧ y < 25) : (all x y).Coherent :=
  ⟨rfl, rfl, cursorCell_eq column row, column, row⟩

theorem coherent_corner : (all 0 0).Coherent :=
  coherent_all (by decide) (by decide)

/-- Coherent copies are one position. -/
theorem Coherent.eq_all (coherent : p.Coherent) : p = all p.screenX p.screenY := by
  have cell := cursorCell_eq coherent.onColumn coherent.onRow
  have sent : p.cursor = cursorCell p.screenX p.screenY :=
    Int.ofNat.inj (coherent.cursor.trans cell.symm)
  exact Place.ext coherent.column coherent.row rfl rfl sent

end Place

section Output

variable {s : Kernel}

/-- Printing a character publishes the position it moves to. -/
theorem putc_place (column : 0 ≤ s.console.screenX ∧ s.console.screenX < 80)
    (row : 0 ≤ s.console.screenY ∧ s.console.screenY < 25) (c : Byte) :
    (putc s c).place = Place.all (printPosition s.console.screenX s.console.screenY c).1
      (printPosition s.console.screenX s.console.screenY c).2 := by
  -- The setters send the cursor to wherever the screen's position is by then.
  have published : (putc s c).place =
      Place.all (putc s c).positions.screenX (putc s c).positions.screenY := by
    unfold putc
    split
    · split <;> rfl
    · rfl
  rw [published, putc_positions_eq column row]
  rfl

/-- Printing a character leaves the copies coherent. -/
theorem putc_coherent (coherent : s.place.Coherent) (c : Byte) : (putc s c).place.Coherent := by
  obtain ⟨x, y⟩ := printPosition_inside coherent.onRow s.console.screenX c
  rw [putc_place coherent.onColumn coherent.onRow]
  exact Place.coherent_all x y

theorem putText_coherent (coherent : s.place.Coherent) (text : List Byte) :
    (putText s text).place.Coherent := by
  -- The induction follows the text, one character at a time.
  induction text generalizing s with
  | nil => exact coherent
  | cons c text ih => exact ih (putc_coherent coherent c)

/-- The background output routine moves none of them. -/
theorem putm_place (s : Kernel) (c : Byte) : (putm s c).place = s.place := by
  unfold putm
  simp only
  split
  · split <;> rfl
  · rfl

/-- A text leaves the copies of equal places equal. -/
theorem putText_place_congr {m : Kernel} (inside : s.liveSheet.Inside) (same : m.place = s.place)
    (text : List Byte) : (putText m text).place = (putText s text).place := by
  -- Where a character is printed depends on the screen's position alone.
  induction text generalizing s m with
  | nil => exact same
  | cons c text ih =>
    have x : m.console.screenX = s.console.screenX := congrArg Place.screenX same
    have y : m.console.screenY = s.console.screenY := congrArg Place.screenY same
    refine ih (s := putc s c) (m := putc m c) ?_ ?_
    · rw [putc_sheet inside]
      exact inside.print c
    · rw [putc_place inside.column inside.row, putc_place (x ▸ inside.column) (y ▸ inside.row), x, y]

end Output

/-- The text a call of `execute` prints: it says so when the process table is full. -/
def executeText (env : Env) (s : Kernel) (frame : CallFrame) : Option (List Byte) → List Byte
  | none => []
  | some command =>
    if ((parseCommand command).bind fun words => findProgram env.image frame words.1).isSome ∧
        s.displayed.firstProcess ∧ TableFull s then maximumProcesses
    else []

/-- The text a call prints on the live screen. -/
def callText (env : Env) (s : Kernel) (frame : CallFrame) : Call → List Byte
  | .write fd (some text) nbytes =>
    let descriptor := (s.pcbs s.displayed.curPcb).fd fd.toNat
    -- A write in the background goes to a backing page.
    if ValidFd fd ∧ descriptor.flags ≠ 0 ∧ descriptor.opTable = some .stdout ∧
        s.currTerminal = s.currentId then (List.range nbytes.toNat).map (cstr text)
    else []
  | .execute command => executeText env s frame command
  -- The end of a base shell starts another one.
  | .halt _ =>
    if s.curPcb.parentPid = noParent then executeText env (endBaseShell s) frame (some shell) else []
  | _ => []

section Calls

variable {env : Env} {s next : Kernel} {frame : CallFrame}

theorem markFish_place (s : Kernel) (fileName : List Byte) : (markFish s fileName).place = s.place := by
  unfold markFish
  split <;> rfl

/-- Of the plain calls only a write prints. -/
theorem PlainStep.place {request : Call} (step : PlainStep s request next)
    (silent : ∀ fd buf nbytes, request ≠ .write fd buf nbytes) : next.place = s.place := by
  cases step with
  | kept | line | listing | position | awaited | rate | opened | closed | view => rfl
  | written => exact absurd rfl (silent _ _ _)

/-- What a write leaves is what its text leaves. -/
theorem write_place {fd nbytes : Int} {buf : Option (List Byte)} {result : CallResult}
    (done : writeFile s fd buf nbytes = some result) :
    result.kernel.place = (putText s (callText env s frame (.write fd buf nbytes))).place := by
  have background : ∀ (text : List Byte) (m : Kernel), (text.foldl putm m).place = m.place := by
    intro text
    induction text with
    | nil => exact fun _ => rfl
    | cons c text ih => exact fun m => (ih _).trans (putm_place m c)
  cases writeFile_cases done with
  | range outside =>
    cases buf with
    | none => rfl
    | some text => rw [callText, if_neg fun prints => outside prints.1]; rfl
  | null => rfl
  | closed _ _ free => rw [callText, if_neg fun prints => prints.2.1 free]; rfl
  | @driver text table inside _ used points =>
    by_cases out : table = .stdout
    · subst out
      by_cases shown : s.currTerminal = s.currentId
      · rw [callText, if_pos ⟨inside, used, points, shown⟩]
        simp only [plainReturn, writeOp, terminalWrite, if_pos shown]
        rfl
      · rw [callText, if_neg fun prints => shown prints.2.2.2]
        simp only [plainReturn, writeOp, terminalWrite, if_neg shown]
        exact background _ s
    · -- Every other driver leaves the screen alone.
      have other : callText env s frame (.write fd (some text) nbytes) = [] :=
        if_neg fun prints => out (Option.some.inj (points.symm.trans prints.2.2.1))
      rw [other]
      cases table with
      | stdout => exact absurd rfl out
      | rtc =>
        simp only [plainReturn, writeOp, rtcWrite]
        split <;> rfl
      | dir | file | stdin | noOp => rfl

theorem Failed.place {command : Option (List Byte)} (failed : Failed env s frame command next)
    (inside : s.liveSheet.Inside) :
    next.place = (putText s (executeText env s frame command)).place := by
  -- A full process table prints its text, and the other two failures print nothing.
  cases failed with
  | null => rfl
  | missing parsed absent =>
    rw [executeText, parsed, Option.bind_some, absent, if_neg fun prints => by cases prints.1]
    exact markFish_place s _
  | full parsed found child full =>
    rw [executeText, parsed, Option.bind_some, found, if_pos ⟨rfl, child, full⟩]
    exact putText_place_congr inside (markFish_place s _) _

theorem Entered.place {command : List Byte} {entryPoint : Nat}
    (entered : Entered env s frame command entryPoint next) :
    next.place = (putText s (executeText env s frame (some command))).place := by
  rw [executeText, if_neg fun prints => entered.room prints.2]
  exact (congrArg Kernel.place entered.started).trans (markFish_place s _)

theorem Halted.place {status : Byte} {outcome : Outcome} (halted : Halted env s frame outcome next)
    (inside : s.liveSheet.Inside) :
    next.place = (putText s (callText env s frame (.halt status))).place := by
  -- Ending a process and resuming its parent print nothing.
  have ended : ∀ text, (putText (endBaseShell s) text).place = (putText s text).place :=
    putText_place_congr inside rfl
  cases halted with
  | child above =>
    rw [callText, if_neg above]
    rfl
  | stranded base refused =>
    rw [callText, if_pos base, ← ended]
    exact refused.place inside
  | restarted base entered =>
    rw [callText, if_pos base, ← ended]
    exact entered.place

/-- A call moves the copies as its text does. -/
theorem call_place {request : Call} (taken : step env s (.call frame request) = some next)
    (inside : s.liveSheet.Inside) :
    next.place = (putText s (callText env s frame request)).place := by
  cases request with
  | halt status =>
    obtain ⟨outcome, ended⟩ := halt_taken taken
    exact (halt_cases ended).2.place inside
  | execute command =>
    obtain ⟨outcome, executed⟩ := execute_taken taken
    rcases execute_cases executed with ⟨-, failed⟩ | ⟨_, _, rfl, -, ⟨entered⟩⟩
    · exact failed.place inside
    · exact entered.place
  | write fd buf nbytes =>
    obtain ⟨result, frames, done, -, rfl⟩ := call_taken taken
    have written : result.kernel.place = (putText s (callText env s frame (.write fd buf
        nbytes))).place := write_place done
    exact written
  | read | «open» | close | getargs | vidmap =>
    obtain ⟨result, frames, done, -, rfl⟩ := call_taken taken
    have plain := (plain_cases (by trivial) done).place fun _ _ _ => Call.noConfusion
    exact plain

theorem pitHandler_place (s : Kernel) (esp ebp : Nat) : (pitHandler s esp ebp).place = s.place := by
  have refreshed : ∀ m : Kernel, (refreshFish m).place = m.place := by
    intro m
    unfold refreshFish
    split <;> rfl
  exact refreshed (saveContext { s with nextTerminal := pickTerminal s } esp ebp)

end Calls

section Keys

variable {s : Kernel} {x y : Int}

@[simp] theorem place_resetPosition (s : Kernel) (x y : Int) :
    (resetPosition s x y).place = { s.place with screenX := x, screenY := y } := rfl

@[simp] theorem place_resetCursor (s : Kernel) (x y : Int) :
    (resetCursor s x y).place = { s.place with cursor := Place.cursorCell x y } := rfl

/-- Scrolling the page moves none of them. -/
@[simp] theorem place_scrolled (s : Kernel) : (clearRow (resetVideo s)).place = s.place := rfl

/-- Where the copies are once a typed character is printed and the editor may have wrapped. -/
theorem settle_place (wraps : Bool) (here : s.place = Place.all x y) :
    (settle wraps s).place =
      if wraps then if y = 24 then ⟨0, 25, 0, 24, Place.cursorCell 0 24⟩ else Place.all 0 (y + 1)
      else Place.all x y := by
  have column : s.keyboard.vdX = x := congrArg Place.vdX here
  have row : s.keyboard.vdY = y := congrArg Place.vdY here
  unfold settle
  split
  · -- The editor's row is counted up first, and the screen follows unless there is none.
    generalize moved : (s.setKeyboard fun kb =>
      { kb with count := kb.count + 1, vdY := kb.vdY + 1, vdX := 0 }) = m
    have first : m.keyboard.vdX = 0 := by
      rw [← moved]
      rfl
    have next : m.keyboard.vdY = y + 1 := by
      rw [← moved, ← row]
      rfl
    have place : m.place = { s.place with vdX := 0, vdY := y + 1 } := by
      rw [← moved, ← row]
      rfl
    by_cases bottom : y = 24
    · have passed : m.keyboard.vdY = 25 := by omega
      have above : m.keyboard.vdY - 1 = 24 := by omega
      simp only [if_pos passed, if_pos bottom, place_resetCursor, place_resetPosition,
        place_scrolled, keyboard_resetPosition, keyboard_scrolled, place, first, above]
      rw [bottom]
      rfl
    · have passed : ¬ m.keyboard.vdY = 25 := by omega
      rw [if_neg passed, if_neg bottom]
      simp only [place_resetCursor, place_resetPosition, keyboard_resetPosition, place, first, next]
      rfl
  · have kept : (s.setKeyboard fun kb => { kb with count := kb.count + 1 }).place = s.place := rfl
    rw [place_resetCursor, kept, here]
    change { Place.all x y with cursor := Place.cursorCell s.keyboard.vdX s.keyboard.vdY } = _
    rw [column, row]
    rfl

/-- A character is typed on a line with room: the copies are where it was printed, or wrapped. -/
theorem prout_place (coherent : s.place.Coherent) (below : s.keyboard.count ≠ bufsize) (c : Byte)
    {x y : Int} (moved : printPosition s.console.screenX s.console.screenY c = (x, y)) :
    (prout s c).place =
      if s.keyboard.vdX = 79 then
        if y = 24 then ⟨0, 25, 0, 24, Place.cursorCell 0 24⟩ else Place.all 0 (y + 1)
      else Place.all x y := by
  -- Storing the character leaves the screen's position alone.
  have printed : (putc (storeTyped s c) c).place = Place.all x y :=
    (putc_place (s := storeTyped s c) coherent.onColumn coherent.onRow c).trans
      (congrArg (fun next => Place.all next.1 next.2) moved)
  have wraps : (storeTyped s c).keyboard.vdX = screenLegth ↔ s.keyboard.vdX = 79 := by
    change s.keyboard.vdX + 1 = 80 ↔ _
    omega
  rw [prout_eq below, settle_place _ printed]
  simp only [wraps, decide_eq_true_eq]

/-- A full line only sends the cursor to where it is. -/
theorem prout_full_place (coherent : s.place.Coherent) (full : s.keyboard.count = bufsize)
    (c : Byte) : (prout s c).place = s.place := by
  have here := coherent.eq_all
  rw [prout_full full, place_resetCursor, show s.keyboard.vdX = s.place.screenX from coherent.column,
    show s.keyboard.vdY = s.place.screenY from coherent.row]
  conv_rhs => rw [here]
  exact congrArg (fun p => { p with cursor := Place.cursorCell s.place.screenX s.place.screenY }) here

/-- Where the copies are after the end of a line, by where the newline has left the editor. -/
theorem nextLine_place (s : Kernel) : (nextLine s).place =
    if s.keyboard.vdY ≤ 24 then
      { s.place with
        vdX := 0
        vdY := s.keyboard.vdY + 1
        cursor := Place.cursorCell 0 (s.keyboard.vdY + 1) }
    else Place.all 0 24 := by
  unfold nextLine
  have bound : s.keyboard.vdY ≤ screenWidth + 1 ↔ s.keyboard.vdY ≤ 24 := Iff.rfl
  by_cases above : s.keyboard.vdY ≤ 24
  · rw [if_pos (bound.mpr above), if_pos above]
    rfl
  · rw [if_neg (mt bound.mp above), if_neg above]
    rfl

end Keys

/-- The terminal's record holds the position at which the editor stands. -/
def SavedHere (s : Kernel) (t : Terminal) : Prop :=
  toInt32 (s.terminals t).screenX = s.keyboard.vdX ∧ toInt32 (s.terminals t).screenY = s.keyboard.vdY ∧
    Place.cursorCell (toInt32 (s.terminals t).cursorX) (toInt32 (s.terminals t).cursorY) =
      Place.cursorCell s.keyboard.vdX s.keyboard.vdY

/-- When what a key asks for keeps the copies coherent. -/
def KeepsPlace (s : Kernel) : KeyAction → Prop
  -- In the last cell the editor wraps to a row below the screen.
  | .char _ => s.keyboard.count = bufsize ∨ ¬ (s.keyboard.vdX = 79 ∧ s.keyboard.vdY = 24)
  -- The end of a line moves the editor once more than the newline has moved the screen.
  | .enter => s.keyboard.count ≠ bufsize ∧ s.keyboard.vdX = 79 ∧ 23 ≤ s.keyboard.vdY
  -- A switch moves the screen and the cursor, but never the editor.
  | .display t => t = s.currentId ∨
      if t = 0 ∨ (s.terminals t).isOpen then SavedHere s t
      else s.keyboard.vdX = 0 ∧ s.keyboard.vdY = 0
  | .backspace | .clear | .nothing => True

instance (s : Kernel) (t : Terminal) : Decidable (SavedHere s t) :=
  inferInstanceAs (Decidable (_ ∧ _ ∧ _))

instance (s : Kernel) : (action : KeyAction) → Decidable (KeepsPlace s action)
  | .char _ => inferInstanceAs (Decidable (_ ∨ ¬ (s.keyboard.vdX = 79 ∧ s.keyboard.vdY = 24)))
  | .enter => inferInstanceAs (Decidable (_ ∧ s.keyboard.vdX = 79 ∧ 23 ≤ s.keyboard.vdY))
  | .display t => inferInstanceAs (Decidable (t = s.currentId ∨
      if t = 0 ∨ (s.terminals t).isOpen then SavedHere s t
      else s.keyboard.vdX = 0 ∧ s.keyboard.vdY = 0))
  | .backspace | .clear | .nothing => inferInstanceAs (Decidable True)

section Actions

variable {s : Kernel}

/-- A typed character keeps the copies coherent except in the last cell. -/
theorem prout_coherent_iff (coherent : s.place.Coherent) {c : Byte} (printable : 0x20 ≤ c) :
    (prout s c).place.Coherent ↔ KeepsPlace s (.char c) := by
  have column : s.keyboard.vdX = s.console.screenX := coherent.column
  have row : s.keyboard.vdY = s.console.screenY := coherent.row
  have onColumn : 0 ≤ s.console.screenX ∧ s.console.screenX < 80 := coherent.onColumn
  have onRow : 0 ≤ s.console.screenY ∧ s.console.screenY < 25 := coherent.onRow
  by_cases full : s.keyboard.count = bufsize
  · rw [prout_full_place coherent full]
    exact ⟨fun _ => .inl full, fun _ => coherent⟩
  · have plain : ¬ (c = 0x0A ∨ c = 0x0D) := by
      rintro (rfl | rfl)
      · exact absurd printable (by decide)
      · exact absurd printable (by decide)
    rw [prout_place coherent full c (if_neg plain)]
    unfold KeepsPlace
    by_cases last : s.keyboard.vdX = 79
    · rw [if_pos last]
      by_cases bottom : s.console.screenY = 24
      · -- The editor is one row below the screen.
        rw [if_pos bottom]
        refine ⟨fun after => ?_, fun keeps => ?_⟩
        · have apart : (25 : Int) = 24 := after.row
          omega
        · exact absurd (keeps.resolve_left full) (not_not.mpr ⟨last, row.trans bottom⟩)
      · rw [if_neg bottom]
        exact ⟨fun _ => .inr fun corner => bottom (row.symm.trans corner.2),
          fun _ => Place.coherent_all (by omega) (by omega)⟩
    · rw [if_neg last]
      exact ⟨fun _ => .inr fun corner => last corner.1,
        fun _ => Place.coherent_all (by omega) (by omega)⟩

/-- Erasing keeps them coherent. -/
theorem backspace_coherent (coherent : s.place.Coherent) : (backspace s).place.Coherent := by
  have column : s.keyboard.vdX = s.console.screenX := coherent.column
  have row : s.keyboard.vdY = s.console.screenY := coherent.row
  have onColumn : 0 ≤ s.console.screenX ∧ s.console.screenX < 80 := coherent.onColumn
  have onRow : 0 ≤ s.console.screenY ∧ s.console.screenY < 25 := coherent.onRow
  have dropped : ∀ m : Kernel, (dropTyped m).place = m.place := by
    intro m
    unfold dropTyped
    split <;> rfl
  unfold backspace
  split
  · exact coherent
  split
  · exact coherent
  split
  · exact coherent
  rename_i notCorner _
  split
  · rename_i first
    simp only [dropped]
    change (Place.all (80 - 1) (s.keyboard.vdY - 1)).Coherent
    exact Place.coherent_all (by omega) (by omega)
  · simp only [dropped]
    change (Place.all (s.keyboard.vdX - 1) s.keyboard.vdY).Coherent
    exact Place.coherent_all (by omega) (by omega)

/-- The end of a line keeps them coherent only behind the last column of the last two rows. -/
theorem enterKey_coherent_iff (coherent : s.place.Coherent) :
    (enterKey s).place.Coherent ↔ KeepsPlace s .enter := by
  have column : s.keyboard.vdX = s.console.screenX := coherent.column
  have row : s.keyboard.vdY = s.console.screenY := coherent.row
  have onColumn : 0 ≤ s.console.screenX ∧ s.console.screenX < 80 := coherent.onColumn
  have onRow : 0 ≤ s.console.screenY ∧ s.console.screenY < 25 := coherent.onRow
  -- Handing the line over moves nothing, so the editor is where the newline has left it.
  have ended : (enterKey s).place = if (prout s 0x0A).place.vdY ≤ 24 then
      { (prout s 0x0A).place with
        vdX := 0
        vdY := (prout s 0x0A).place.vdY + 1
        cursor := Place.cursorCell 0 ((prout s 0x0A).place.vdY + 1) }
      else Place.all 0 24 := nextLine_place _
  -- Above the last row the editor moves down once more than the screen.
  have parts : ∀ x y : Int, y ≤ 24 → (prout s 0x0A).place = Place.all x y →
      ¬ (enterKey s).place.Coherent := by
    intro x y above here coherent
    rw [ended, here, if_pos (show (Place.all x y).vdY ≤ 24 from above)] at coherent
    have rows : y + 1 = y := coherent.row
    omega
  unfold KeepsPlace
  by_cases full : s.keyboard.count = bufsize
  · refine iff_of_false (parts _ _ ?_ ((prout_full_place coherent full _).trans coherent.eq_all))
      fun keeps => keeps.1 full
    change s.console.screenY ≤ 24
    omega
  · have printed := prout_place coherent full 0x0A rfl
    by_cases last : s.keyboard.vdX = 79
    · rw [if_pos last] at printed
      by_cases low : 23 ≤ s.keyboard.vdY
      · -- The newline has wrapped to the row below the screen, and the end of the line returns.
        have wrapped : (if s.console.screenY = 24 then 24 else s.console.screenY + 1 : Int) = 24 := by
          split <;> omega
        rw [if_pos wrapped] at printed
        have returned : (enterKey s).place = Place.all 0 24 := by
          rw [ended, printed]
          exact if_neg (by decide)
        rw [returned]
        exact ⟨fun _ => ⟨full, last, low⟩, fun _ => Place.coherent_all (by decide) (by decide)⟩
      · have above : ¬ (if s.console.screenY = 24 then 24 else s.console.screenY + 1 : Int) = 24 := by
          split <;> omega
        rw [if_neg above] at printed
        refine iff_of_false (parts _ _ ?_ printed) fun keeps => low keeps.2.2
        split <;> omega
    · rw [if_neg last] at printed
      refine iff_of_false (parts _ _ ?_ printed) fun keeps => last keeps.2.1
      split <;> omega

/-- The copies after a terminal's page is displayed again. -/
def shownPlace (s : Kernel) (t : Terminal) : Place :=
  { s.place with
    screenX := toInt32 (s.terminals t).screenX
    screenY := toInt32 (s.terminals t).screenY
    cursor := Place.cursorCell (toInt32 (s.terminals t).cursorX) (toInt32 (s.terminals t).cursorY) }

/-- They are coherent exactly when the record holds the editor's position. -/
theorem shownPlace_coherent_iff (coherent : s.place.Coherent) (t : Terminal) :
    (shownPlace s t).Coherent ↔ SavedHere s t := by
  -- The displayed position is that of the live screen, which is a cell of it.
  have column : s.keyboard.vdX = s.console.screenX := coherent.column
  have row : s.keyboard.vdY = s.console.screenY := coherent.row
  have onColumn : 0 ≤ s.keyboard.vdX ∧ s.keyboard.vdX < 80 := by
    rw [column]
    exact coherent.onColumn
  have onRow : 0 ≤ s.keyboard.vdY ∧ s.keyboard.vdY < 25 := by
    rw [row]
    exact coherent.onRow
  have cell := Place.cursorCell_eq onColumn onRow
  constructor
  · -- Three positions that agree with the displayed one agree with what was saved.
    intro shown
    have x : s.keyboard.vdX = toInt32 (s.terminals t).screenX := shown.column
    have y : s.keyboard.vdY = toInt32 (s.terminals t).screenY := shown.row
    have cursor := shown.cursor
    change (Place.cursorCell _ _ : Int) = numCols * toInt32 (s.terminals t).screenY +
      toInt32 (s.terminals t).screenX at cursor
    rw [← x, ← y, ← cell] at cursor
    exact ⟨x.symm, y.symm, Int.ofNat.inj cursor⟩
  · -- What was saved at the displayed position is loaded as that position everywhere.
    rintro ⟨x, y, cursor⟩
    have same : shownPlace s t = Place.all s.keyboard.vdX s.keyboard.vdY := by
      rw [shownPlace, x, y, cursor]
      rfl
    rw [same]
    exact Place.coherent_all onColumn onRow

/-- Saving the displayed terminal leaves the records of the others alone. -/
theorem saveTerminal_other {t : Terminal} (other : t ≠ s.currentId) :
    (saveTerminal s).terminals t = s.terminals t :=
  Function.update_of_ne other _ _

/-- The first terminal is displayed again. -/
theorem switchToTerminal1_coherent_iff (coherent : s.place.Coherent) :
    (switchToTerminal1 s).place.Coherent ↔ 0 = s.currentId ∨ SavedHere s 0 := by
  unfold switchToTerminal1
  by_cases here : 0 = s.currentId
  · rw [if_pos here.symm]
    exact iff_of_true (putText_coherent coherent _) (.inl here)
  · rw [if_neg (Ne.symm here), or_iff_right here, ← shownPlace_coherent_iff coherent]
    have shown : shownPlace (saveTerminal s) 0 = shownPlace s 0 := by
      rw [shownPlace, saveTerminal_other here]
      rfl
    rw [← shown]
    rfl

/-- The second and the third terminal are displayed again, or opened with an empty screen. -/
theorem switchToTerminal_coherent_iff (coherent : s.place.Coherent) (t : Terminal) (digit : Byte) :
    (switchToTerminal t digit s).place.Coherent ↔ t = s.currentId ∨
      if (s.terminals t).isOpen then SavedHere s t
      else s.keyboard.vdX = 0 ∧ s.keyboard.vdY = 0 := by
  unfold switchToTerminal
  by_cases here : t = s.currentId
  · rw [if_pos here.symm]
    exact iff_of_true (putText_coherent coherent _) (.inl here)
  have record := saveTerminal_other here
  simp only [if_neg (Ne.symm here), or_iff_right here, record]
  by_cases opened : (s.terminals t).isOpen
  · have shown : shownPlace (saveTerminal s) t = shownPlace s t := by
      rw [shownPlace, record]
      rfl
    rw [if_pos opened, if_pos opened, ← shownPlace_coherent_iff coherent, ← shown]
    rfl
  · -- A first opening puts the screen in the corner, where the editor may be or not.
    have corner : (openTerminal (saveTerminal s) t).place =
        ⟨s.keyboard.vdX, s.keyboard.vdY, 0, 0, Place.cursorCell 0 0⟩ := rfl
    rw [if_neg opened, if_neg opened, corner]
    refine ⟨fun after => ⟨after.column, after.row⟩, fun place => ?_⟩
    rw [place.1, place.2]
    exact Place.coherent_corner

/-- A function key keeps them coherent exactly when the new screen's position is the editor's. -/
theorem displayKey_coherent_iff (coherent : s.place.Coherent) (t : Terminal) :
    (displayKey s t).place.Coherent ↔ KeepsPlace s (.display t) := by
  -- Copying the line out first moves nothing.
  have copied : (copyKeyboardBuf s s.keyboard.keyboardbuf s.keyboard.bufIndex).place.Coherent :=
    coherent
  match t with
  | 0 =>
    simp only [KeepsPlace, true_or, if_true]
    exact switchToTerminal1_coherent_iff copied
  | 1 =>
    simp only [KeepsPlace, show ¬ (1 : Terminal) = 0 by decide, false_or]
    exact switchToTerminal_coherent_iff copied 1 0x32
  | 2 =>
    simp only [KeepsPlace, show ¬ (2 : Terminal) = 0 by decide, false_or]
    exact switchToTerminal_coherent_iff copied 2 0x33

/-- What a key asks for keeps them coherent exactly under the condition. -/
theorem performKey_coherent_iff (coherent : s.place.Coherent) {action : KeyAction}
    (printable : ∀ c, action = .char c → 0x20 ≤ c) :
    (performKey s action).place.Coherent ↔ KeepsPlace s action := by
  cases action with
  | char c => exact prout_coherent_iff coherent (printable c rfl)
  | backspace => exact iff_of_true (backspace_coherent coherent) trivial
  | enter => exact enterKey_coherent_iff coherent
  | clear => exact iff_of_true Place.coherent_corner trivial
  | display t => exact displayKey_coherent_iff coherent t
  | nothing => exact iff_of_true coherent trivial

/-- So does the keyboard interrupt, which updates the modifier flags first. -/
theorem printKeyboard_coherent_iff (coherent : s.place.Coherent) (c : Byte) :
    (printKeyboard s c).place.Coherent ↔ KeepsPlace s (pressAction s.keyboard c) := by
  obtain ⟨-, -, count, vdX, vdY⟩ := flagsAfter_kept s.keyboard c
  have place : (s.setKeyboard fun kb => flagsAfter kb c).place = s.place := by
    simp only [Kernel.place, Kernel.setKeyboard, vdX, vdY]
  have same : ∀ action, KeepsPlace (s.setKeyboard fun kb => flagsAfter kb c) action ↔
      KeepsPlace s action := by
    intro action
    cases action with
    | char | enter | display =>
      simp only [KeepsPlace, SavedHere, Kernel.setKeyboard, count, vdX, vdY]
    | backspace | clear | nothing => exact Iff.rfl
  rw [printKeyboard_eq, performKey_coherent_iff (place.symm ▸ coherent)
    fun _ typed => pressAction_printable typed, same]

end Actions

/-- What moves the print position: a step of the machine, or a character the kernel prints. -/
inductive PlaceEvent where
  | machine (event : Event)
  | putc (c : Byte)

/-- One such step. -/
def placeStep (env : Env) (s : Kernel) : PlaceEvent → Option Kernel
  | .machine event => step env s event
  | .putc c => some (putc s c)

/-- The condition on a step: only keys may separate the copies. -/
def StepKeepsPlace (s : Kernel) : PlaceEvent → Prop
  | .machine (.keyboard c) => KeepsPlace s (pressAction s.keyboard c)
  | _ => True

instance (s : Kernel) : (event : PlaceEvent) → Decidable (StepKeepsPlace s event)
  | .machine (.keyboard c) => inferInstanceAs (Decidable (KeepsPlace s (pressAction s.keyboard c)))
  | .machine (.pit _ _) | .machine .rtc | .machine (.call _ _) | .putc _ =>
    inferInstanceAs (Decidable True)

/-- A step from coherent copies keeps them so exactly under the condition. -/
theorem step_coherent_iff {env : Env} {s next : Kernel} {event : PlaceEvent}
    (coherent : s.place.Coherent) (taken : placeStep env s event = some next) :
    next.place.Coherent ↔ StepKeepsPlace s event := by
  cases event with
  | putc c =>
    cases taken
    exact iff_of_true (putc_coherent coherent c) trivial
  | machine event =>
    cases event with
    | keyboard c =>
      have pressed : step env s (.keyboard c) = some next := taken
      obtain ⟨-, rfl⟩ := key_taken pressed
      exact printKeyboard_coherent_iff coherent c
    | pit esp ebp =>
      cases taken
      exact iff_of_true ((pitHandler_place s esp ebp).symm ▸ coherent) trivial
    | rtc =>
      cases taken
      exact iff_of_true coherent trivial
    | call frame request =>
      have moved := call_place taken ⟨coherent.onColumn, coherent.onRow⟩
      exact iff_of_true (moved ▸ putText_coherent coherent _) trivial

/-- The booted machine prints in the corner. -/
theorem boot_coherent {env : Env} {start : Kernel} (booted : boot env = some start) :
    start.place.Coherent := by
  obtain ⟨_, ⟨entered⟩⟩ := boot_entered booted
  rw [entered.place]
  exact putText_coherent (s := initialKernel env) Place.coherent_corner _

/--
The copies of the print position agree as long as no key separates them.

In a run of the booted machine, with characters printed in between, they denote one cell of the
screen after every step exactly when every key meets the condition before it.
-/
theorem positions_coherent {env : Env} {start last : Kernel} {labels : List PlaceEvent}
    (booted : boot env = some start) :
    Run (placeStep env) (Leads (placeStep env) fun s => s.place.Coherent) start labels last ↔
      Run (placeStep env) StepKeepsPlace start labels last :=
  Run.leads_iff (boot_coherent booted) fun _ _ _ coherent taken => step_coherent_iff coherent taken

/-- Two terminals run, a character is erased again, and Enter comes at the end of the last row but one. -/
def printedToTheEdge : List PlaceEvent :=
  startSecond.map .machine ++
    [.machine (.keyboard 0x1E), .machine (.keyboard 0x30), .machine (.keyboard 0x0E)] ++
    List.replicate 23 (.putc 0x0A) ++ List.replicate 79 (.putc 0x61) ++ [.machine (.keyboard 0x1C)]

/-- The copies agree after every step of that run, the scrolling Enter at its end included. -/
theorem positions_coherent_sample : ∃ last,
    Run (placeStep sampleEnv) (Leads (placeStep sampleEnv) fun s => s.place.Coherent) sampleBooted
      printedToTheEdge last ∧ last.console.screenY = 24 := by
  -- Every key is executed, with the condition decided before it.
  have given : (replay (placeStep sampleEnv) StepKeepsPlace sampleBooted printedToTheEdge).map
      (fun last => decide (last.console.screenY = 24)) = some true := by decide +kernel
  obtain ⟨last, reached, row⟩ := Option.map_eq_some_iff.mp given
  exact ⟨last, (positions_coherent sample_boot).mpr (replay_run reached), of_decide_eq_true row⟩

/-- The first Enter leaves the editor one row below the screen. -/
theorem enter_separates : boot sampleEnv = some sampleBooted ∧
    Run (placeStep sampleEnv) Always sampleBooted [.machine (.keyboard 0x1C)]
      (printKeyboard sampleBooted 0x1C) ∧
    (printKeyboard sampleBooted 0x1C).keyboard.vdY = 2 ∧
    (printKeyboard sampleBooted 0x1C).console.screenY = 1 ∧
    ¬ (printKeyboard sampleBooted 0x1C).place.Coherent := by
  have editor : (printKeyboard sampleBooted 0x1C).keyboard.vdY = 2 := by decide +kernel
  have screen : (printKeyboard sampleBooted 0x1C).console.screenY = 1 := by decide +kernel
  have defined : KeyDefined sampleBooted (pressAction sampleBooted.keyboard 0x1C) := by
    decide +kernel
  have pressed : step sampleEnv sampleBooted (.keyboard 0x1C) = _ := step_key defined
  refine ⟨sample_boot, .snoc (.nil _) trivial pressed, editor, screen, fun coherent => ?_⟩
  have same := (editor.symm.trans coherent.row).trans screen
  exact absurd same (by decide)

end SmallOs
