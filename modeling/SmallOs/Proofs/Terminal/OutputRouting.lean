import SmallOs.Kernel.Writer
import SmallOs.Proofs.Terminal.Output
import SmallOs.Proofs.Terminal.Switching

/-! Where the bytes of one write go while the displayed terminal changes. -/

namespace SmallOs

open Foundation

/-- The screen of a terminal: the live one while it is displayed, else its backing page. -/
def Kernel.sheet (s : Kernel) (t : Terminal) : Sheet :=
  -- While a terminal is displayed its backing page is out of date, and so is its saved position.
  if t = s.currentId then s.liveSheet else s.backSheet t

/-- The cells a face shows, with its position. -/
def Face.sheet (face : Face) : Sheet :=
  -- The last bytes of the page lie below the screen.
  ⟨window 0 sheetBytes face.page, face.screenX, face.screenY⟩

section Sheets

variable {s next : Kernel}

theorem sheet_front (s : Kernel) : s.sheet s.currentId = s.liveSheet :=
  if_pos rfl

theorem sheet_other {t : Terminal} (other : t ≠ s.currentId) : s.sheet t = s.backSheet t :=
  if_neg other

/-- The screen of a terminal is part of what the terminal shows. -/
theorem sheet_face (range : s.positions.InRange) (t : Terminal) :
    s.sheet t = (s.desk.faces t).sheet := by
  have fits : sheetBytes ≤ onepage := by decide
  by_cases here : t = s.currentId
  · subst here
    rw [sheet_front, desk_front, Face.sheet]
    exact congrArg (Sheet.mk · s.console.screenX s.console.screenY) (window_window fits).symm
  · -- A saved position is a small word, the same with a sign and without.
    have within : (s.terminals t).screenX < 80 ∧ (s.terminals t).screenY < 25 := range.saved t
    have saved : s.desk.faces t = s.savedFace t := if_neg here
    have x : toInt32 (s.terminals t).screenX = (s.terminals t).screenX :=
      toInt32_of_lt (by omega)
    have y : toInt32 (s.terminals t).screenY = (s.terminals t).screenY :=
      toInt32_of_lt (by omega)
    rw [sheet_other here, saved, Face.sheet, Kernel.savedFace, x, y, window_window fits]
    rfl

/-- Every position lies on its screen. -/
theorem sheet_inside (range : s.positions.InRange) (t : Terminal) : (s.sheet t).Inside := by
  -- The displayed terminal has the console's position, and every other one its saved position.
  by_cases here : t = s.currentId
  · subst here
    rw [sheet_front]
    exact ⟨range.column, range.row⟩
  · have within : (s.terminals t).screenX < 80 ∧ (s.terminals t).screenY < 25 := range.saved t
    have column : 0 ≤ ((s.terminals t).screenX : Int) ∧ ((s.terminals t).screenX : Int) < 80 := by
      omega
    have row : 0 ≤ ((s.terminals t).screenY : Int) ∧ ((s.terminals t).screenY : Int) < 25 := by
      omega
    rw [sheet_other here]
    exact ⟨column, row⟩

/-- A screen in the background depends on the record and the backing page only. -/
theorem backSheet_congr {t : Terminal} (record : next.terminals t = s.terminals t)
    (page : window (videoPtr t) sheetBytes next.console.video =
      window (videoPtr t) sheetBytes s.console.video) : next.backSheet t = s.backSheet t := by
  unfold Kernel.backSheet
  rw [record, page]

/-- A switch changes no terminal's screen, but only where it is kept. -/
theorem sheet_switch (range : s.positions.InRange) (sound : Switchable s) {t : Terminal}
    (taken : switchStep s t = some next) (u : Terminal) :
    next.positions.InRange ∧ next.sheet u = s.sheet u := by
  have switched := switchStep_switched sound taken
  have desk := switched.desk (switchStep_other taken)
  have kept : next.positions.InRange := by
    unfold switchStep at taken
    split at taken
    · cases taken
      exact displayKey_inRange range t
    · cases taken
  refine ⟨kept, ?_⟩
  -- Faces are what a switch of the desk keeps.
  rw [sheet_face kept, sheet_face range, desk]
  rfl

/-- `putc` prints on the screen of the displayed terminal, and on no other. -/
theorem sheet_putc (range : s.positions.InRange) (c : Byte) (u : Terminal) :
    (putc s c).sheet u = if u = s.currentId then (s.sheet u).print c else s.sheet u := by
  have only := deviceOnly_putc s c
  -- The records are untouched, and the cells of the live screen lie apart from all backing pages.
  by_cases here : u = s.currentId
  · have front : (putc s c).sheet s.currentId = (putc s c).liveSheet :=
      only.currentId ▸ sheet_front (putc s c)
    subst here
    rw [if_pos rfl, front, sheet_front, putc_sheet ⟨range.column, range.row⟩]
  · have there : u ≠ (putc s c).currentId := by
      rw [only.currentId]
      exact here
    rw [if_neg here, sheet_other here, sheet_other there]
    refine backSheet_congr (congrFun only.terminals u) ?_
    have apart : videoPtr u + sheetBytes ≤ videoBase ∨ videoBase + sheetBytes ≤ videoPtr u := by
      have pages := videoPtr_apart u
      simp only [onepage, sheetBytes] at pages ⊢
      omega
    exact (putc_agree range.column range.row c).window_eq apart

/-- `putm` writes the record of the scheduled terminal only. -/
theorem putm_terminals {t : Terminal} (other : t ≠ s.currTerminal) (c : Byte) :
    (putm s c).terminals t = s.terminals t := by
  -- All three branches store a position, each in the scheduled terminal's record.
  unfold putm
  simp only
  split
  · split
    · exact Function.update_of_ne other _ _
    · exact Function.update_of_ne other _ _
  · exact Function.update_of_ne other _ _

/-- `putm` changes neither which terminal is displayed nor the position on the live screen. -/
theorem putm_live (s : Kernel) (c : Byte) :
    (putm s c).currentId = s.currentId ∧ (putm s c).console.screenX = s.console.screenX ∧
      (putm s c).console.screenY = s.console.screenY := by
  unfold putm
  simp only
  split
  · split
    · exact ⟨rfl, rfl, rfl⟩
    · exact ⟨rfl, rfl, rfl⟩
  · exact ⟨rfl, rfl, rfl⟩

/-- `putm` prints on the screen of the scheduled terminal while another one is displayed. -/
theorem sheet_putm (range : s.positions.InRange) (hidden : s.currTerminal ≠ s.currentId) (c : Byte)
    (u : Terminal) :
    (putm s c).sheet u = if u = s.currTerminal then (s.sheet u).print c else s.sheet u := by
  obtain ⟨shown, x, y⟩ := putm_live s c
  have inside : (s.backSheet s.currTerminal).Inside :=
    sheet_other hidden ▸ sheet_inside range s.currTerminal
  have agree := putm_agree inside c
  -- The page of the scheduled terminal is printed on, and it is none of the others.
  by_cases running : u = s.currTerminal
  · subst running
    have behind : s.currTerminal ≠ (putm s c).currentId := by
      rw [shown]
      exact hidden
    rw [if_pos rfl, sheet_other hidden, sheet_other behind, putm_sheet inside]
  · rw [if_neg running]
    by_cases here : u = s.currentId
    · -- The live screen is not among the backing pages.
      have front : (putm s c).sheet s.currentId = (putm s c).liveSheet :=
        shown ▸ sheet_front (putm s c)
      have cells : window videoBase sheetBytes (putm s c).console.video =
          window videoBase sheetBytes s.console.video := by
        have pages := videoPtr_apart s.currTerminal
        refine agree.window_eq ?_
        simp only [onepage, sheetBytes] at pages ⊢
        omega
      subst here
      rw [front, sheet_front, Kernel.liveSheet, x, y, cells]
      rfl
    · have there : u ≠ (putm s c).currentId := by
        rw [shown]
        exact here
      rw [sheet_other here, sheet_other there]
      refine backSheet_congr (putm_terminals running c) (agree.window_eq ?_)
      have pages := videoPtr_disjoint running
      simp only [onepage, sheetBytes] at pages ⊢
      omega

end Sheets

section Uninterrupted

/-- Steps that each print the next byte with one output routine print the whole text with it. -/
theorem prints_steps {output : Kernel → Byte → Kernel} {route : Route}
    (prints : ∀ s c rest i, ∃ j, writerStep ⟨s, route, c :: rest, i⟩ .print =
      some ⟨output s c, route, rest, j⟩) (s : Kernel) (text : List Byte) (i : Bool) :
    ∃ j, Run writerStep Always ⟨s, route, text, i⟩ (List.replicate text.length .print)
      ⟨text.foldl output s, route, [], j⟩ := by
  -- The induction follows the text; each step takes one byte off its front.
  induction text generalizing s i with
  | nil => exact ⟨i, .nil _⟩
  | cons c text ih =>
    obtain ⟨j, printed⟩ := prints s c text i
    obtain ⟨last, rest⟩ := ih (output s c) j
    have first : Run writerStep Always ⟨s, route, c :: text, i⟩ [.print]
        ⟨output s c, route, text, j⟩ := .snoc (.nil _) trivial printed
    exact ⟨last, first.append rest⟩

/-- Without an interrupt the steps of the driver are the whole driver. -/
theorem terminalWrite_steps (s : Kernel) (buf : List Byte) (nbytes : Int) : ∃ last,
    Run writerStep Always (.begin s ((List.range nbytes.toNat).map (cstr buf)))
        (.compare :: List.replicate nbytes.toNat .print) last ∧
      last.rest = [] ∧ last.kernel = (terminalWrite s buf nbytes).2 := by
  -- The bytes are the same in both, so only their number matters from here on.
  generalize listed : (List.range nbytes.toNat).map (cstr buf) = text
  have length : nbytes.toNat = text.length := by rw [← listed, List.length_map, List.length_range]
  have compared : Run writerStep Always (.begin s text) [.compare]
      ⟨s, if s.currTerminal = s.currentId then .foreground else .background, text, true⟩ :=
    .snoc (.nil _) trivial rfl
  rw [length]
  unfold terminalWrite
  simp only [listed]
  -- The comparison decides for one of the two output routines.
  by_cases shown : s.currTerminal = s.currentId
  · rw [if_pos shown] at compared
    have prints : ∀ s c rest i, ∃ j, writerStep ⟨s, .foreground, c :: rest, i⟩ .print =
        some ⟨putc s c, .foreground, rest, j⟩ := fun _ _ _ _ => ⟨false, rfl⟩
    obtain ⟨j, printed⟩ := prints_steps prints s text true
    rw [if_pos shown]
    exact ⟨_, compared.append printed, rfl, rfl⟩
  · rw [if_neg shown] at compared
    have prints : ∀ s c rest i, ∃ j, writerStep ⟨s, .background, c :: rest, i⟩ .print =
        some ⟨putm s c, .background, rest, j⟩ := fun _ _ _ i => ⟨i, rfl⟩
    obtain ⟨j, printed⟩ := prints_steps prints s text true
    rw [if_neg shown]
    exact ⟨_, compared.append printed, rfl, rfl⟩

end Uninterrupted

/-- What makes a step leave every byte on the screen of the writing process. -/
def Routes (w : Writing) : WriterEvent → Prop
  -- The lines that the switch copies fit their buffers.
  | .switch _ => w.kernel.keyboard.bufIndex ≤ bufsize ∧
      ∀ t, (w.kernel.terminals t).bufIndex ≤ bufsize
  -- The process's terminal is displayed now exactly when it was at the comparison.
  | .print => w.route = .foreground ↔ w.kernel.currTerminal = w.kernel.currentId
  | _ => True

instance (w : Writing) : (event : WriterEvent) → Decidable (Routes w event)
  | .switch _ =>
    inferInstanceAs (Decidable (w.kernel.keyboard.bufIndex ≤ bufsize ∧
      ∀ t, (w.kernel.terminals t).bufIndex ≤ bufsize))
  | .print =>
    inferInstanceAs (Decidable (w.route = .foreground ↔
      w.kernel.currTerminal = w.kernel.currentId))
  | .compare | .leave => inferInstanceAs (Decidable True)

/-- The bytes written so far are on the screen of the writing process, and on no other. -/
structure Routed (start : Kernel) (text : List Byte) (w : Writing) : Prop where
  range : w.kernel.positions.InRange
  running : w.kernel.currTerminal = start.currTerminal
  printed : ∃ written, text = written ++ w.rest ∧
    w.kernel.sheet start.currTerminal = (start.sheet start.currTerminal).prints written
  others : ∀ u ≠ start.currTerminal, w.kernel.sheet u = start.sheet u

namespace Routed

variable {start : Kernel} {text : List Byte} {w after : Writing}

/-- A switch moves screens, and changes none. -/
theorem switch (routed : Routed start text w) {next : Kernel} {t : Terminal}
    (fits : Routes w (.switch t)) (taken : switchStep w.kernel t = some next) :
    Routed start text { w with kernel := next } := by
  obtain ⟨range, running, ⟨written, split, printed⟩, others⟩ := routed
  have column : 0 ≤ w.kernel.console.screenX ∧ w.kernel.console.screenX < 80 := range.column
  have row : 0 ≤ w.kernel.console.screenY ∧ w.kernel.console.screenY < 25 := range.row
  -- Positions on the screen are C integers, so a switch saves and restores them exactly.
  have sound : Switchable w.kernel :=
    ⟨⟨by omega, by omega⟩, ⟨by omega, by omega⟩, fits.1, fits.2⟩
  have kept := sheet_switch range sound taken
  have still : next.currTerminal = w.kernel.currTerminal := by
    unfold switchStep at taken
    split at taken
    · cases taken
      exact (screenOnly_displayKey w.kernel t).agree Kernel.currTerminal fun _ => rfl
    · cases taken
  refine ⟨(kept t).1, still.trans running, ⟨written, split, ?_⟩, fun u other => ?_⟩
  · rw [(kept _).2]
    exact printed
  · rw [(kept u).2]
    exact others u other

/-- A byte that is printed on the screen of the writing process is one more of its bytes. -/
theorem print (routed : Routed start text w) {next : Kernel} {c : Byte} {rest : List Byte}
    (more : w.rest = c :: rest) (range : next.positions.InRange)
    (running : next.currTerminal = w.kernel.currTerminal)
    (sheets : ∀ u, next.sheet u =
      if u = w.kernel.currTerminal then (w.kernel.sheet u).print c else w.kernel.sheet u)
    (route : Route) (interrupts : Bool) : Routed start text ⟨next, route, rest, interrupts⟩ := by
  obtain ⟨-, scheduled, ⟨written, split, printed⟩, others⟩ := routed
  -- The text is split one byte later, and the screen is printed on once more.
  refine ⟨range, running.trans scheduled, ⟨written ++ [c], ?_, ?_⟩, fun u other => ?_⟩
  · rw [split, more, List.append_assoc]
    rfl
  · rw [sheets, if_pos scheduled.symm, printed, Sheet.prints, Sheet.prints, List.foldl_append]
    rfl
  · have away : ¬ u = w.kernel.currTerminal := by
      rw [scheduled]
      exact other
    rw [sheets, if_neg away]
    exact others u other

/-- Every step that meets its condition keeps every byte where it belongs. -/
theorem step (routed : Routed start text w) {event : WriterEvent} (routes : Routes w event)
    (taken : writerStep w event = some after) : Routed start text after := by
  -- Only a switch and a byte change the kernel.
  cases event with
  | switch t =>
    simp only [writerStep] at taken
    split at taken
    · obtain ⟨next, moved, rfl⟩ := Option.map_eq_some_iff.mp taken
      exact routed.switch routes moved
    · cases taken
  | compare =>
    simp only [writerStep] at taken
    split at taken
    · cases taken
      exact ⟨routed.range, routed.running, routed.printed, routed.others⟩
    · cases taken
  | print =>
    simp only [writerStep] at taken
    split at taken
    · rename_i c rest decided more
      cases taken
      -- The comparison still holds, so the displayed screen is that of the process.
      have shown : w.kernel.currTerminal = w.kernel.currentId := routes.mp decided
      have only := deviceOnly_putc w.kernel c
      refine routed.print more (putc_inRange routed.range c) only.currTerminal (fun u => ?_) _ _
      rw [shown]
      exact sheet_putc routed.range c u
    · rename_i c rest decided more
      cases taken
      have hidden : w.kernel.currTerminal ≠ w.kernel.currentId := fun shown =>
        Route.noConfusion (decided.symm.trans (routes.mpr shown))
      exact routed.print more (putm_inRange routed.range c) (putm_currTerminal w.kernel c)
        (sheet_putm routed.range hidden c) _ _
    · cases taken
  | leave =>
    simp only [writerStep] at taken
    split at taken
    · cases taken
      exact ⟨routed.range, routed.running, routed.printed, routed.others⟩
    · cases taken

end Routed

/--
Every byte of a write goes to the screen of the terminal it is written from.

In every run whose steps meet the condition, the bytes written so far are printed on that terminal's
screen, in order, wherever the screen is kept by then, and no other terminal's screen has changed.
-/
theorem output_routed {env : Env} {start : Kernel} {text : List Byte} {labels : List WriterEvent}
    {last : Writing} (reach : Reachable env start)
    (run : Run writerStep Routes (.begin start text) labels last) :
    (∃ written, text = written ++ last.rest ∧ last.kernel.sheet start.currTerminal =
        (start.sheet start.currTerminal).prints written) ∧
      ∀ u ≠ start.currTerminal, last.kernel.sheet u = start.sheet u := by
  -- Nothing is written at first, and every step keeps what is said of the bytes so far.
  have begun : Routed start text (.begin start text) :=
    ⟨reach.inRange, rfl, ⟨[], rfl, rfl⟩, fun _ _ => rfl⟩
  have routed := run.invariant (Routed start text) begun fun _ _ _ routed routes taken =>
    routed.step routes taken
  exact ⟨routed.printed, routed.others⟩

/-- The sample once its second terminal is open too, with the first one displayed again. -/
def sampleTwoOpen : Kernel :=
  printKeyboard (printKeyboard (printKeyboard sampleBooted 0x38) 0x3C) 0x3B

theorem sampleTwoOpen_reachable : Reachable sampleEnv sampleTwoOpen := by
  -- Each key is one step of the machine, since nothing is in the line yet.
  have pressed : ∀ s : Kernel, ∀ scancode, Reachable sampleEnv s →
      KeyDefined s (pressAction s.keyboard scancode) → Reachable sampleEnv (printKeyboard s scancode) :=
    fun s scancode reach defined => reach.step (step_key defined)
  have booted : Reachable sampleEnv sampleBooted := ⟨sampleBooted, [], sample_boot, .nil _⟩
  exact pressed _ 0x3B (pressed _ 0x3C (pressed _ 0x38 booted (by decide +kernel))
    (by decide +kernel)) (by decide +kernel)

/-- A byte written in the foreground stays on its terminal's screen after the next switch. -/
theorem output_routed_sample : ∃ last,
    Run writerStep Routes (.begin sampleTwoOpen [0x61]) [.compare, .print, .leave, .switch 1] last ∧
      last.kernel.currentId = 1 ∧
      last.kernel.sheet 0 = (sampleTwoOpen.sheet 0).prints [0x61] := by
  have given : (replay writerStep Routes (.begin sampleTwoOpen [0x61])
      [.compare, .print, .leave, .switch 1]).map (fun w => (w.rest, w.kernel.currentId)) =
        some ([], 1) := by decide +kernel
  obtain ⟨last, reached, same⟩ := Option.map_eq_some_iff.mp given
  obtain ⟨rest, shown⟩ := Prod.ext_iff.mp same
  have run := replay_run reached
  obtain ⟨⟨written, split, printed⟩, -⟩ := output_routed sampleTwoOpen_reachable run
  rw [show last.rest = [] from rest, List.append_nil] at split
  subst split
  exact ⟨last, run, shown, printed⟩

/-- A switch between the comparison and the first byte sends the byte to the other terminal's screen. -/
theorem output_misrouted : ∃ last,
    Run writerStep Always (.begin sampleTwoOpen [0x61]) [.compare, .switch 1, .print] last ∧
      last.rest = [] ∧ last.kernel.sheet 0 ≠ (sampleTwoOpen.sheet 0).prints [0x61] ∧
      last.kernel.sheet 1 ≠ sampleTwoOpen.sheet 1 := by
  have given : (replay writerStep Always (.begin sampleTwoOpen [0x61])
      [.compare, .switch 1, .print]).map (fun w =>
        (w.rest, (w.kernel.sheet 0).x, (w.kernel.sheet 1).x)) = some ([], 0, 1) := by
    decide +kernel
  obtain ⟨last, reached, same⟩ := Option.map_eq_some_iff.mp given
  obtain ⟨rest, columns⟩ := Prod.ext_iff.mp same
  obtain ⟨first, second⟩ := Prod.ext_iff.mp columns
  refine ⟨last, replay_run reached, rest, fun printed => ?_, fun kept => ?_⟩
  · -- The byte would have moved the position of the first screen.
    have moved : (last.kernel.sheet 0).x = 1 :=
      (congrArg Sheet.x printed).trans (by decide +kernel)
    exact absurd (moved.symm.trans first) (by decide)
  · have still : (last.kernel.sheet 1).x = 0 := (congrArg Sheet.x kept).trans (by decide +kernel)
    exact absurd (still.symm.trans second) (by decide)

end SmallOs
