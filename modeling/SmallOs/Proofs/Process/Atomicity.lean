import SmallOs.Proofs.Terminal.Screen

/-! When a failed call of `execute` leaves everything but the printed message as it was. -/

namespace SmallOs

open Foundation

/-- What a failed call must leave alone: all of the state but the live screen and its positions. -/
structure Untouched (s next : Kernel) : Prop where
  processArray : next.processArray = s.processArray
  pcbs : next.pcbs = s.pcbs
  terminals : next.terminals = s.terminals
  backing : ∀ t, window (videoPtr t) onepage next.console.video =
    window (videoPtr t) onepage s.console.video
  pageDirectory : next.pageDirectory = s.pageDirectory
  tss : next.tss = s.tss
  currentPcb : next.currentPcb = s.currentPcb
  currTerminal : next.currTerminal = s.currTerminal

/-- The first word of the command starts with the four letters that mark a terminal. -/
def NamesFish (command : List Byte) : Prop :=
  (command.takeWhile (· ≠ 0x20)).take 4 = ascii ['f', 'i', 's', 'h']

instance (command : List Byte) : Decidable (NamesFish command) :=
  inferInstanceAs (Decidable (_ = _))

/-- The displayed terminal is already marked, and its backing page already shows its screen. -/
def MarkedBefore (s : Kernel) : Prop :=
  s.displayed.fish = true ∧
    window (videoPtr s.currentId) onepage s.console.video =
      window videoBase onepage s.console.video

/-- The message of a full table leaves everything but the screen alone. -/
theorem putText_untouched {s : Kernel} (range : s.positions.InRange) (text : List Byte) :
    Untouched s (putText s text) := by
  have same := deviceOnly_putText s text
  -- The message stays on the live screen while the positions are in range.
  refine ⟨same.processArray, same.pcbs, same.terminals, fun t => ?_, ?_, ?_, same.currentPcb,
    same.currTerminal⟩
  · exact (putText_agree range.column range.row text).window_eq (sheet_apart t)
  · exact same.agree Kernel.pageDirectory fun _ => rfl
  · exact same.agree Kernel.tss fun _ => rfl

theorem Untouched.trans {s middle next : Kernel} (first : Untouched s middle)
    (second : Untouched middle next) : Untouched s next :=
  ⟨second.processArray.trans first.processArray, second.pcbs.trans first.pcbs,
    second.terminals.trans first.terminals, fun t => (second.backing t).trans (first.backing t),
    second.pageDirectory.trans first.pageDirectory, second.tss.trans first.tss,
    second.currentPcb.trans first.currentPcb, second.currTerminal.trans first.currTerminal⟩

theorem Untouched.refl (s : Kernel) : Untouched s s :=
  ⟨rfl, rfl, rfl, fun _ => rfl, rfl, rfl, rfl, rfl⟩

/-- Printing does not decide whether the state before it was touched. -/
theorem untouched_putText_iff {s middle : Kernel} (range : middle.positions.InRange)
    (text : List Byte) : Untouched s (putText middle text) ↔ Untouched s middle := by
  have printed := putText_untouched range text
  refine ⟨fun whole => ?_, fun whole => whole.trans printed⟩
  exact ⟨printed.processArray.symm.trans whole.processArray, printed.pcbs.symm.trans whole.pcbs,
    printed.terminals.symm.trans whole.terminals,
    fun t => (printed.backing t).symm.trans (whole.backing t),
    printed.pageDirectory.symm.trans whole.pageDirectory, printed.tss.symm.trans whole.tss,
    printed.currentPcb.symm.trans whole.currentPcb,
    printed.currTerminal.symm.trans whole.currTerminal⟩

/-- Marking the terminal is invisible only where it was marked before. -/
theorem untouched_markFish_iff (s : Kernel) (fileName : List Byte) :
    Untouched s (markFish s fileName) ↔
      fileName.take 4 ≠ ascii ['f', 'i', 's', 'h'] ∨ MarkedBefore s := by
  unfold markFish
  split
  · rename_i marked
    -- The displayed terminal's flag is set, and its screen is copied to its backing page.
    have shown : window (videoPtr s.currentId) onepage
        (copyBlock (videoPtr s.currentId) videoBase onepage s.console.video) =
        window videoBase onepage s.console.video := window_copyBlock_same _ _
    constructor
    · intro whole
      refine .inr ⟨?_, ?_⟩
      · have flag := congrArg (fun terms => (terms s.currentId).fish) whole.terminals
        simpa [Kernel.setTerminal, Kernel.setConsole, Kernel.displayed] using flag.symm
      · exact (whole.backing s.currentId).symm.trans shown
    · rintro (unmarked | ⟨flag, page⟩)
      · exact absurd marked unmarked
      · refine ⟨rfl, rfl, ?_, fun t => ?_, rfl, rfl, rfl, rfl⟩
        · funext t
          by_cases same : t = s.currentId
          · subst same
            have record : ∀ term : InitTerminal, term.fish = true →
                { term with fish := true } = term := by
              intro term flag
              rw [← flag]
            simp only [Kernel.setTerminal, Kernel.setConsole, Function.update_self]
            exact record _ flag
          · simp [Kernel.setTerminal, Kernel.setConsole, same]
        · by_cases same : t = s.currentId
          · subst same
            exact shown.trans page.symm
          · exact window_copyBlock_apart (videoPtr_disjoint same)
  · rename_i unmarked
    exact iff_of_true (Untouched.refl s) (.inl unmarked)

/-- Marking a program's terminal keeps the positions on the screen. -/
theorem markFish_inRange {s : Kernel} (range : s.positions.InRange) (fileName : List Byte) :
    (markFish s fileName).positions.InRange := by
  rw [positions_markFish]
  exact range

/--
A failed call of `execute` is atomic exactly when it does not mark the terminal, or had marked it before.

The mark is made by the name of the program alone, before the program is looked up.
-/
theorem failed_execute_untouched_iff {env : Env} {s next : Kernel} {frame : CallFrame}
    {command : List Byte} (reach : Reachable env s)
    (failed : execute env s frame (some command) = some (.returned (-1), next)) :
    Untouched s next ↔ ¬ NamesFish command ∨ MarkedBefore s := by
  have range := reach.inRange
  have named : ∀ {fileName arg : List Byte}, parseCommand command = some (fileName, arg) →
      (fileName.take 4 ≠ ascii ['f', 'i', 's', 'h'] ↔ ¬ NamesFish command) := by
    intro fileName arg parsed
    simp only [parseCommand] at parsed
    split at parsed
    · cases parsed
      exact Iff.rfl
    · cases parsed
  -- Both failures come after the mark, and the second one prints a message on top.
  rcases execute_cases failed with ⟨-, failure⟩ | ⟨_, _, -, entered, -⟩
  · cases failure with
    | missing parsed absent => rw [untouched_markFish_iff, named parsed]
    | full parsed found child full =>
      rw [untouched_putText_iff (markFish_inRange range _), untouched_markFish_iff, named parsed]
  · cases entered

/-- An unknown name fails without a trace on the sample. -/
theorem failed_execute_untouched_iff_sample :
    ∃ next, execute sampleEnv
        (startProcess sampleEnv (initialKernel sampleEnv) bootFrame sampleShell [] 0) bootFrame
        (some (ascii ['x'])) = some (.returned (-1), next) ∧
      Untouched (startProcess sampleEnv (initialKernel sampleEnv) bootFrame sampleShell [] 0)
        next := by
  have parsed : parseCommand (ascii ['x']) = some (ascii ['x'], []) := by decide +kernel
  have absent : findProgram sampleImage bootFrame (ascii ['x']) = none := by
    have missing : readDentryByName sampleImage (cstr (ascii ['x'])) = none := by decide +kernel
    simp only [findProgram, missing]
  have failed : execute sampleEnv
      (startProcess sampleEnv (initialKernel sampleEnv) bootFrame sampleShell [] 0) bootFrame
      (some (ascii ['x'])) = some (.returned (-1), markFish
        (startProcess sampleEnv (initialKernel sampleEnv) bootFrame sampleShell [] 0)
        (ascii ['x'])) := by
    simp only [execute, parsed, sampleEnv, absent]
  exact ⟨_, failed, (failed_execute_untouched_iff sample_reachable failed).mpr
    (.inl (by decide +kernel))⟩

/-- An unknown name that starts with `fish` leaves the terminal marked. -/
theorem failed_execute_marks_terminal :
    Reachable sampleEnv
        (startProcess sampleEnv (initialKernel sampleEnv) bootFrame sampleShell [] 0) ∧
      ∃ next, execute sampleEnv
          (startProcess sampleEnv (initialKernel sampleEnv) bootFrame sampleShell [] 0) bootFrame
          (some (ascii ['f', 'i', 's', 'h'])) = some (.returned (-1), next) ∧
        ¬ Untouched (startProcess sampleEnv (initialKernel sampleEnv) bootFrame sampleShell [] 0)
          next := by
  have parsed : parseCommand (ascii ['f', 'i', 's', 'h']) =
      some (ascii ['f', 'i', 's', 'h'], []) := by decide +kernel
  have absent : findProgram sampleImage bootFrame (ascii ['f', 'i', 's', 'h']) = none := by
    have missing : readDentryByName sampleImage (cstr (ascii ['f', 'i', 's', 'h'])) = none := by
      decide +kernel
    simp only [findProgram, missing]
  refine ⟨sample_reachable, markFish
    (startProcess sampleEnv (initialKernel sampleEnv) bootFrame sampleShell [] 0)
    (ascii ['f', 'i', 's', 'h']), ?_, fun whole => ?_⟩
  · simp only [execute, parsed, sampleEnv, absent]
  · -- The flag was clear before the call, so the call set it.
    rcases (untouched_markFish_iff _ _).mp whole with unmarked | ⟨flag, -⟩
    · exact unmarked (by decide +kernel)
    · revert flag
      decide +kernel

end SmallOs
