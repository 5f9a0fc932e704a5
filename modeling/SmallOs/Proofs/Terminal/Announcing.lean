import SmallOs.Proofs.Terminal.Coherence
import SmallOs.Proofs.Terminal.Printing

/-! What calls and ticks do to the screens of the terminals. -/

namespace SmallOs

open Foundation

section Sheets

variable {s next : Kernel}

/-- The screens are kept in the video memory and the positions; the displayed terminal's page is not. -/
theorem sheet_congr (positions : next.positions = s.positions) (shown : next.currentId = s.currentId)
    (video : AgreeOutside (videoPtr s.currentId) onepage s.console.video next.console.video)
    (u : Terminal) : next.sheet u = s.sheet u := by
  -- The displayed screen is read from the live page, and every other one from its own.
  have x : next.console.screenX = s.console.screenX := congrArg Positions.screenX positions
  have y : next.console.screenY = s.console.screenY := congrArg Positions.screenY positions
  have saved := congrFun (congrArg Positions.saved positions) u
  have savedX : (next.terminals u).screenX = (s.terminals u).screenX := congrArg Prod.fst saved
  have savedY : (next.terminals u).screenY = (s.terminals u).screenY := congrArg Prod.snd saved
  by_cases here : u = s.currentId
  · subst here
    have front : next.sheet s.currentId = next.liveSheet := shown ▸ sheet_front next
    have apart := sheet_apart s.currentId
    rw [front, sheet_front, Kernel.liveSheet, x, y, video.window_eq (by omega)]
    rfl
  · have there : u ≠ next.currentId := shown ▸ here
    have apart := videoPtr_disjoint here
    rw [sheet_other here, sheet_other there, Kernel.backSheet, savedX, savedY,
      video.window_eq (by simp only [onepage, sheetBytes] at apart ⊢; omega)]
    rfl

/-- A text of the kernel is printed on the displayed terminal. -/
theorem sheet_putText (range : s.positions.InRange) (text : List Byte) (u : Terminal) :
    (putText s text).sheet u =
      if u = s.currentId then (s.sheet u).prints text else s.sheet u := by
  -- The induction follows the text, and needs a position on the screen at every character.
  induction text generalizing s with
  | nil => exact (ite_self (s.sheet u)).symm
  | cons c text ih =>
    have shown := (deviceOnly_putc s c).currentId
    have rest := ih (putc_inRange range c)
    rw [shown, sheet_putc range] at rest
    refine rest.trans ?_
    split
    · rfl
    · rfl

end Sheets

/-- A text has come to the screen of the displayed terminal, and every other one is as it was. -/
def Announced (s : Kernel) (text : List Byte) (next : Kernel) : Prop :=
  ∀ u, next.sheet u = if u = s.currentId then (s.sheet u).prints text else s.sheet u

/-- Where no screen changes nothing was announced. -/
theorem Announced.of_same {s next : Kernel} (same : ∀ u, next.sheet u = s.sheet u) :
    Announced s [] next :=
  fun u => (same u).trans (ite_self (s.sheet u)).symm

section Calls

variable {env : Env} {s next : Kernel} {frame : CallFrame}

/-- The name of one program draws on the page of the displayed terminal, which is not shown. -/
theorem sheet_markFish (s : Kernel) (fileName : List Byte) (u : Terminal) :
    (markFish s fileName).sheet u = s.sheet u := by
  -- The name is drawn on the backing page of the displayed terminal only.
  refine sheet_congr (positions_markFish s fileName) (markFish_currentId s fileName) ?_ u
  unfold markFish
  split
  · intro address outside
    exact if_neg (by omega)
  · exact AgreeOutside.refl _

/-- Starting a process leaves the screens alone. -/
theorem Entered.sheet {command : List Byte} {entryPoint : Nat}
    (entered : Entered env s frame command entryPoint next) (u : Terminal) :
    next.sheet u = s.sheet u := by
  -- The video memory is that after the name was looked at, and no position has moved.
  have video : next.console.video = (markFish s entered.fileName).console.video :=
    congrArg (fun k => k.console.video) entered.started
  have marked := markFish_currentId s entered.fileName
  have kept : next.positions = (markFish s entered.fileName).positions :=
    entered.positions.trans (positions_markFish s _).symm
  rw [sheet_congr kept (entered.currentId.trans marked.symm) (video ▸ AgreeOutside.refl _) u,
    sheet_markFish]

/-- The text of a refused call is printed on the displayed terminal. -/
theorem Failed.announced {command : Option (List Byte)} (range : s.positions.InRange)
    (failed : Failed env s frame command next) :
    Announced s (executeText env s frame command) next := by
  -- A full process table prints its text, and the other two failures print nothing.
  cases failed with
  | null => exact .of_same fun _ => rfl
  | @missing command fileName arg parsed absent =>
    rw [executeText, parsed, Option.bind_some, absent, if_neg fun prints => by cases prints.1]
    exact .of_same (sheet_markFish s fileName)
  | @full command fileName arg program parsed found child full =>
    rw [executeText, parsed, Option.bind_some, found, if_pos ⟨rfl, child, full⟩]
    intro u
    rw [sheet_putText ((positions_markFish s fileName).symm ▸ range), markFish_currentId,
      sheet_markFish]

/-- Ending a process moves no position. -/
theorem positions_endProcess (s : Kernel) : (endProcess s).positions = s.positions := by
  have unmarked : (s.setTerminal s.currTerminal fun term =>
      { term with fish := false }).positions = s.positions :=
    positions_setTerminal s _ fun _ => ⟨by rfl, by rfl⟩
  exact unmarked

/-- Neither does resuming its parent. -/
theorem positions_resumeParent (s : Kernel) (parentId : Nat) :
    (resumeParent s parentId).positions = s.positions := by
  have record : (s.setTerminal s.currTerminal fun term =>
      { term with curPcb := pcbAddr parentId, currentPid := parentId }).positions = s.positions :=
    positions_setTerminal s _ fun _ => ⟨by rfl, by rfl⟩
  exact record

/-- So is that of a process that ends. -/
theorem Halted.announced {status : Byte} {outcome : Outcome} (range : s.positions.InRange)
    (halted : Halted env s frame outcome next) :
    Announced s (callText env s frame (.halt status)) next := by
  -- Only the restart of a base shell prints, and the records that change hold no position.
  have vacated : (endBaseShell s).positions = s.positions :=
    (positions_setTerminal (endProcess s) _ fun _ => ⟨by rfl, by rfl⟩).trans
      (positions_endProcess s)
  have resumed : ∀ m parent, ∀ u, (resumeParent m parent).sheet u = m.sheet u := fun m parent =>
    sheet_congr (positions_resumeParent m parent) rfl (AgreeOutside.refl _)
  have emptied : ∀ u, (endBaseShell s).sheet u = s.sheet u :=
    sheet_congr vacated rfl (AgreeOutside.refl _)
  cases halted with
  | child above =>
    rw [callText, if_neg above]
    refine .of_same fun u => ?_
    rw [resumed]
    exact sheet_congr (positions_endProcess s) rfl (AgreeOutside.refl _) u
  | stranded base refused =>
    rw [callText, if_pos base]
    intro u
    rw [resumed, refused.announced (vacated.symm ▸ range) u, emptied]
    rfl
  | restarted base entered =>
    rw [callText, if_pos base, executeText, if_neg fun prints => entered.room prints.2]
    exact .of_same fun u => (entered.sheet u).trans (emptied u)

/-- The text a write prints for the process that runs. -/
def writtenText (s : Kernel) (fd : Int) (buf : Option (List Byte)) (nbytes : Int) : List Byte :=
  -- The descriptor is looked up in the displayed terminal's process.
  let descriptor := (s.pcbs s.displayed.curPcb).fd fd.toNat
  buf.elim [] fun text =>
    if ValidFd fd ∧ descriptor.flags ≠ 0 ∧ descriptor.opTable = some .stdout then
      (List.range nbytes.toNat).map (cstr text)
    else []

/-- A write prints on the screen of the terminal that runs, wherever that is kept. -/
theorem write_sheet {fd nbytes : Int} {buf : Option (List Byte)} {result : CallResult}
    (range : s.positions.InRange) (done : writeFile s fd buf nbytes = some result) (u : Terminal) :
    result.kernel.sheet u =
      if u = s.currTerminal then (s.sheet u).prints (writtenText s fd buf nbytes)
      else s.sheet u := by
  have silent : ∀ {next : Kernel}, writtenText s fd buf nbytes = [] →
      next.sheet u = s.sheet u → next.sheet u =
        if u = s.currTerminal then (s.sheet u).prints (writtenText s fd buf nbytes)
        else s.sheet u := by
    intro next empty same
    rw [empty, same]
    exact (ite_self (s.sheet u)).symm
  cases writeFile_cases done with
  | range outside =>
    refine silent ?_ rfl
    cases buf with
    | none => rfl
    | some text => exact if_neg fun prints => outside prints.1
  | null => exact silent rfl rfl
  | closed _ _ free =>
    refine silent ?_ rfl
    exact if_neg fun prints => prints.2.1 free
  | @driver text table inside _ used points =>
    by_cases out : table = .stdout
    · subst out
      have written : writtenText s fd (some text) nbytes =
          (List.range nbytes.toNat).map (cstr text) := if_pos ⟨inside, used, points⟩
      rw [written]
      exact (terminalWrite_printed range text nbytes).sheets u
    · have other : writtenText s fd (some text) nbytes = [] :=
        if_neg fun prints => out (Option.some.inj (points.symm.trans prints.2.2))
      refine silent other ?_
      -- Every other driver leaves the screen alone.
      cases table with
      | stdout => exact absurd rfl out
      | rtc =>
        simp only [plainReturn, writeOp, rtcWrite]
        split <;> rfl
      | dir | file | stdin | noOp => rfl

/-- No other plain call changes a screen. -/
theorem PlainStep.sheet {request : Call} (step : PlainStep s request next)
    (silent : ∀ fd buf nbytes, request ≠ .write fd buf nbytes) (u : Terminal) :
    next.sheet u = s.sheet u := by
  cases step with
  | kept | listing | position | awaited | rate | opened | closed | view => rfl
  | line => exact sheet_congr (positions_takeLine s) rfl (AgreeOutside.refl _) u
  | written => exact absurd rfl (silent _ _ _)

/-- Every other call prints no more than a text of the kernel. -/
theorem call_announced {request : Call} (range : s.positions.InRange)
    (taken : step env s (.call frame request) = some next)
    (other : ∀ fd buf nbytes, request ≠ .write fd buf nbytes) :
    Announced s (callText env s frame request) next := by
  -- The calls that start or end a process may print, and of the plain ones only a write.
  cases request with
  | halt status =>
    obtain ⟨outcome, ended⟩ := halt_taken taken
    exact (halt_cases ended).2.announced range
  | execute command =>
    obtain ⟨outcome, executed⟩ := execute_taken taken
    rcases execute_cases executed with ⟨-, failed⟩ | ⟨_, _, rfl, -, ⟨entered⟩⟩
    · exact failed.announced range
    · rw [callText, executeText, if_neg fun prints => entered.room prints.2]
      exact .of_same entered.sheet
  | write fd buf nbytes => exact absurd rfl (other fd buf nbytes)
  | read | «open» | close | getargs | vidmap =>
    -- What a call stores in its caller's page is on no screen.
    obtain ⟨result, frames, done, -, rfl⟩ := call_taken taken
    exact .of_same ((plain_cases (by trivial) done).sheet other)

end Calls

/-- A tick changes no screen, unless it refreshes the one `fish` is on. -/
theorem sheet_pitHandler {s : Kernel} (esp ebp : Nat)
    (calm : ¬ (s.currTerminal = s.currentId ∧ s.scheduled.fish = true)) (u : Terminal) :
    (pitHandler s esp ebp).sheet u = s.sheet u := by
  -- The context that is saved holds no screen, so a calm tick stores to none.
  have saved : (saveContext { s with nextTerminal := pickTerminal s } esp ebp).scheduled.fish =
      s.scheduled.fish := by
    simp [saveContext, Kernel.scheduled, Kernel.setTerminal]
  have idle : refreshFish (saveContext { s with nextTerminal := pickTerminal s } esp ebp) =
      saveContext { s with nextTerminal := pickTerminal s } esp ebp :=
    if_neg fun refreshed => calm (saved ▸ refreshed)
  refine sheet_congr (positions_pitHandler s esp ebp) ?_ ?_ u
  · have shown := congrArg Kernel.currentId idle
    exact shown
  · have video := congrArg (fun k => k.console.video) idle
    have same : (pitHandler s esp ebp).console.video = s.console.video := video
    exact same ▸ AgreeOutside.refl _

end SmallOs
