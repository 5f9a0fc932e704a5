import SmallOs.Kernel.ClockReader
import SmallOs.Proofs.Process.Boot
import SmallOs.Proofs.Process.Step

/-! Processes that wait for the clock share one flag, and when each still wakes at its interrupt. -/

namespace SmallOs

open Foundation

/-- Whether the clock has interrupted since the process of a terminal last set the flag. -/
abbrev Answers :=
  Terminal → Bool

/-- What an observer of the clock and its readers remembers. -/
def watchAnswers (answered : Answers) (r : ClockReading) (event : ClockEvent)
    (_ : ClockReading) : Answers :=
  match event with
  | .interrupt .rtc => fun _ => true
  | .enter => Function.update answered r.kernel.currTerminal false
  | _ => answered

/-- A waiting process the clock has interrupted for finds the flag clear at its next test. -/
def Wakes (r : ClockReading) (answered : Answers) : Prop :=
  ∀ t, r.phases t = .waiting → answered t = true → r.kernel.rtcInterruptFlag = false

/-- Such a process leaves the driver at its next test. -/
theorem Wakes.returns {env : Env} {r : ClockReading} {answered : Answers} (wakes : Wakes r answered)
    (waits : r.phase = .waiting) (heard : answered r.kernel.currTerminal = true) :
    clockStep env r .test = some (r.goTo .outside) := by
  -- The flag it tests is the one that is clear.
  have clear := wakes r.kernel.currTerminal waits heard
  simp [clockStep, waits, clear]

/-- No process sets the flag while another one's interrupt has come, and its next test has not. -/
def EntersAlone (state : ClockReading × Answers) : ClockEvent → Prop
  | .enter => ∀ t, t ≠ state.1.kernel.currTerminal → state.1.phases t = .waiting →
      state.2 t = false
  | _ => True

instance (state : ClockReading × Answers) : (event : ClockEvent) →
    Decidable (EntersAlone state event)
  | .enter => inferInstanceAs (Decidable (∀ _, _ → _ → _))
  | .interrupt _ | .call _ _ | .test => inferInstanceAs (Decidable True)

/-- No step outside the driver sets the flag. -/
theorem flag_stays_clear {env : Env} {s next : Kernel} {event : Event}
    (taken : step env s event = some next) (clear : s.rtcInterruptFlag = false) :
    next.rtcInterruptFlag = false := by
  rcases apart_cases taken with kept | clock | ⟨frame, request, result, -, -, plain, same⟩
  · exact (congrArg Apart.rtcInterruptFlag kept).trans clear
  · subst clock
    cases taken
    rfl
  · -- Of the plain calls only those of the clock's own driver write to it.
    refine (congrArg Apart.rtcInterruptFlag same).trans ?_
    generalize result.kernel = after at plain ⊢
    cases plain with
    | kept | listing | position | rate | opened | closed | view => exact clear
    | awaited => rfl
    | line => exact (congrArg Apart.rtcInterruptFlag (screenOnly_takeLine s).apart).trans clear
    | written =>
      exact (congrArg Apart.rtcInterruptFlag (screenOnly_terminalWrite s _ _).apart).trans clear

namespace Wakes

variable {env : Env} {r : ClockReading} {answered : Answers}

/-- A step of the kernel outside the driver keeps every answered process awake. -/
theorem step {event : Event} {next : Kernel} (wakes : Wakes r answered)
    (taken : SmallOs.step env r.kernel event = some next) :
    Wakes { r with kernel := next } answered :=
  fun t waits heard => flag_stays_clear taken (wakes t waits heard)

/-- A call of the driver keeps them awake exactly when there is none besides the caller. -/
theorem enter_iff :
    Wakes ({ r with kernel := { r.kernel with rtcInterruptFlag := true } }.goTo .waiting)
        (Function.update answered r.kernel.currTerminal false) ↔
      EntersAlone (r, answered) .enter := by
  constructor
  · intro wakes t other waits
    -- The flag is set now, so a process that was answered would not find it clear.
    by_contra heard
    have set := wakes t ((Function.update_of_ne other _ _).trans waits)
      ((Function.update_of_ne other _ _).trans (Bool.eq_true_of_not_eq_false heard))
    cases set
  · intro alone t waits heard
    by_cases own : t = r.kernel.currTerminal
    · -- The caller itself has not been answered yet.
      subst own
      rw [Function.update_self] at heard
      cases heard
    · have silent := alone t own ((Function.update_of_ne own _ _).symm.trans waits)
      rw [Function.update_of_ne own] at heard
      exact absurd (heard.symm.trans silent) (by decide)

/-- From a state in which all answered processes wake, a step keeps that exactly under the condition. -/
theorem step_iff {event : ClockEvent} {after : ClockReading} (wakes : Wakes r answered)
    (taken : clockStep env r event = some after) :
    Wakes after (watchAnswers answered r event after) ↔ EntersAlone (r, answered) event := by
  cases event with
  | interrupt event =>
    refine ⟨fun _ => trivial, fun _ => ?_⟩
    cases event with
    | call => cases taken
    | rtc =>
      -- The interrupt clears the flag for every process.
      cases taken
      exact fun _ _ _ => rfl
    | keyboard | pit =>
      simp only [clockStep, Option.map_eq_some_iff] at taken
      obtain ⟨next, moved, rfl⟩ := taken
      exact wakes.step moved
  | call frame request =>
    refine ⟨fun _ => trivial, fun _ => ?_⟩
    simp only [clockStep] at taken
    split at taken
    · obtain ⟨next, moved, rfl⟩ := Option.map_eq_some_iff.mp taken
      exact wakes.step moved
    · cases taken
  | enter =>
    simp only [clockStep] at taken
    split at taken
    · cases taken
      exact enter_iff
    · cases taken
  | test =>
    refine ⟨fun _ => trivial, fun _ => ?_⟩
    simp only [clockStep] at taken
    split at taken
    · cases taken
      split
      · exact wakes
      · -- The process that leaves does not wait any longer.
        rename_i clear
        have cleared : r.kernel.rtcInterruptFlag = false := by simpa using clear
        exact fun _ _ _ => cleared
    · cases taken

end Wakes

/--
Every waiting process wakes at its own interrupt, as long as none sets the flag in between.

In a run that starts with nobody in the driver, every state is one in which a process the clock has
interrupted for returns at its next test, exactly when no process calls the driver while another one
has been interrupted for and has not tested the flag yet.
-/
theorem clock_wakes (env : Env) (start : Kernel) (labels : List ClockEvent)
    (last : ClockReading × Answers) :
    Run (observed (clockStep env) watchAnswers)
        (Leads (observed (clockStep env) watchAnswers) fun state => Wakes state.1 state.2)
        (⟨start, fun _ => .outside⟩, fun _ => false) labels last ↔
      Run (observed (clockStep env) watchAnswers) EntersAlone
        (⟨start, fun _ => .outside⟩, fun _ => false) labels last := by
  -- At the start nobody waits, and the lemma for one step is exact.
  refine Run.leads_iff (fun _ waits => ClockPhase.noConfusion waits) ?_
  intro before label after wakes taken
  simp only [observed, Option.map_eq_some_iff] at taken
  obtain ⟨next, moved, rfl⟩ := taken
  exact wakes.step_iff moved

/-- The second terminal is opened, and its shell is started. -/
def openSecond : List ClockEvent :=
  [.interrupt (.keyboard 0x38), .interrupt (.keyboard 0x3C),
    .call sampleFrame (.execute (some shell))]

/-- One process is interrupted for, and another one calls the driver before it is scheduled again. -/
def wakeLost : List ClockEvent :=
  [.enter, .interrupt .rtc, .interrupt (.pit 8 12), .enter, .interrupt (.pit 16 20), .test]

/-- The first process goes on waiting, although its interrupt has come. -/
theorem wakeup_lost : ∃ last answered,
    Run (observed (clockStep sampleEnv) watchAnswers) Always
        (⟨sampleBooted, fun _ => .outside⟩, fun _ => false) (openSecond ++ wakeLost)
        (last, answered) ∧
      last.phase = .waiting ∧ answered last.kernel.currTerminal = true ∧
      last.kernel.rtcInterruptFlag = true := by
  have given : (replay (observed (clockStep sampleEnv) watchAnswers) Always
      (⟨sampleBooted, fun _ => .outside⟩, fun _ => false) (openSecond ++ wakeLost)).map (fun state =>
        (state.1.phase, state.2 state.1.kernel.currTerminal, state.1.kernel.rtcInterruptFlag)) =
      some (.waiting, true, true) := by decide +kernel
  obtain ⟨⟨last, answered⟩, reached, same⟩ := Option.map_eq_some_iff.mp given
  obtain ⟨phase, rest⟩ := Prod.ext_iff.mp same
  obtain ⟨heard, flag⟩ := Prod.ext_iff.mp rest
  exact ⟨last, answered, replay_run reached, phase, heard, flag⟩

end SmallOs
