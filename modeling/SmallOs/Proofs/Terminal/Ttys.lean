import SmallOs.Proofs.Process.Turns
import SmallOs.Proofs.Terminal.Echo

/-! One machine as three terminals: when each of them shows what it was sent, and nothing else. -/

namespace SmallOs

open Foundation

namespace LineBuffers

variable {b : LineBuffers}

/-- A key that is typed on a line opens no terminal. -/
theorem key_isOpen_eq (erases : Bool) {action : KeyAction} (onLine : action.OnLine)
    (u : Terminal) : ((b.key erases action).mailboxes u).isOpen = (b.mailboxes u).isOpen := by
  -- What is typed or erased stays in the editor, and Enter fills a mailbox without opening it.
  cases action with
  | char c => exact congrArg Mailbox.isOpen (congrFun (type_mailboxes (b := b) c).1 u)
  | backspace =>
    simp only [LineBuffers.key, erase]
    split
    · split <;> rfl
    · rfl
  | enter => exact enter_isOpen u
  | clear | nothing => rfl
  | display t => exact absurd rfl (onLine t)

/-- The same terminal stays displayed. -/
theorem key_displayed (erases : Bool) {action : KeyAction} (onLine : action.OnLine) :
    (b.key erases action).displayed = b.displayed := by
  cases action with
  | char c => exact (type_mailboxes (b := b) c).2
  | backspace =>
    simp only [LineBuffers.key, erase]
    split
    · split <;> rfl
    · rfl
  | enter => exact (type_mailboxes (b := b) 0x0A).2
  | clear | nothing => rfl
  | display t => exact absurd rfl (onLine t)

/-- A function key opens no terminal but its own, and not the one that is displayed. -/
theorem display_isOpen {t u : Terminal} (away : u ≠ t ∨ b.displayed = t) :
    ((b.display t).mailboxes u).isOpen = (b.mailboxes u).isOpen := by
  -- The terminal that is left keeps its flag, and only the one that is displayed may get it.
  unfold display
  split
  · rfl
  · rename_i moves
    split
    · exact leave_isOpen u
    · have elsewhere := away.resolve_right moves
      exact (congrArg Mailbox.isOpen (Function.update_of_ne elsewhere _ _)).trans (leave_isOpen u)

end LineBuffers

/-- The keys of the user, each for the terminal that is displayed. -/
def pressTtys (ttys : Ttys) (s : Kernel) : KeyAction → Ttys
  | .display t =>
    if t = s.currentId then ttys.print t (alreadyIn (UInt8.ofNat (0x31 + t.val)))
    else if (s.terminals t).isOpen then ttys
    else ttys.start t
  | action => ttys.type s.currentId action

/-- An observer who has three terminals, and sends each of them its keys and its output. -/
def watchTtys (env : Env) (ttys : Ttys) (s : Kernel) (event : Event) (_ : Kernel) : Ttys :=
  match event with
  | .keyboard scancode => pressTtys ttys s (pressAction s.keyboard scancode)
  -- A process writes to its own terminal, and the kernel speaks on the displayed one.
  | .call _ (.write fd buf nbytes) => ttys.print s.currTerminal (writtenText s fd buf nbytes)
  | .call frame request => ttys.print s.currentId (callText env s frame request)
  | .pit _ _ | .rtc => ttys

/-- When a step does to the terminals what the observer expects. -/
def Echoes (s : Kernel) : Event → Prop
  | .keyboard scancode => KeyEchoes s (pressAction s.keyboard scancode)
  -- The timer rolls the screen of `fish` back to an old page.
  | .pit _ _ => ¬ (s.currTerminal = s.currentId ∧ s.scheduled.fish = true)
  | .call _ _ | .rtc => True

instance (s : Kernel) : (event : Event) → Decidable (Echoes s event)
  | .keyboard scancode =>
    inferInstanceAs (Decidable (KeyEchoes s (pressAction s.keyboard scancode)))
  | .pit _ _ =>
    inferInstanceAs (Decidable (¬ (s.currTerminal = s.currentId ∧ s.scheduled.fish = true)))
  | .call _ _ | .rtc => inferInstanceAs (Decidable True)

/-- When a step keeps the line buffers, and does to the terminals what the observer expects. -/
def Hosted (s : Kernel) (event : Event) : Prop :=
  KeepsIndices s event ∧ Echoes s event

/-- The machine has the terminals of the observer. -/
structure Hosts (s : Kernel) (ttys : Ttys) : Prop where
  range : s.positions.InRange
  within : WithinBuffers s.lines
  opened : s.lines.Opened
  closed : s.lines.ClosedEmpty
  lines : ∀ t, s.lines.unfinished t = (ttys t).line
  screens : ∀ t, (s.terminals t).isOpen = true → Shows (s.sheet t) (ttys t).screen

namespace Hosts

variable {env : Env} {s next : Kernel} {ttys : Ttys}

/-- A text that comes to the screen of one terminal is printed there. -/
theorem printed (hosts : Hosts s ttys) {t : Terminal} {text : List Byte}
    (sheets : ∀ u, next.sheet u = if u = t then (s.sheet u).prints text else s.sheet u)
    (still : ∀ u, (next.terminals u).isOpen = (s.terminals u).isOpen) (u : Terminal)
    (opened : (next.terminals u).isOpen = true) :
    Shows (next.sheet u) (ttys.print t text u).screen := by
  -- The screen with the text shows the text, and every other one is as it was.
  have shows := hosts.screens u (still u ▸ opened)
  rw [sheets]
  by_cases here : u = t
  · subst here
    rw [if_pos rfl, Ttys.print, Function.update_self]
    exact shows.prints text
  · rw [if_neg here, Ttys.print, Function.update_of_ne here]
    exact shows

/-- A printed text is no line. -/
theorem print_line (t : Terminal) (text : List Byte) (u : Terminal) :
    (ttys.print t text u).line = (ttys u).line := by
  -- Printing replaces the screen of one terminal.
  by_cases here : u = t
  · subst here
    rw [Ttys.print, Function.update_self]
    rfl
  · rw [Ttys.print, Function.update_of_ne here]

/-- The line of the displayed terminal is in the editor's buffer. -/
theorem length (hosts : Hosts s ttys) :
    (ttys s.currentId).line.length = s.keyboard.bufIndex := by
  -- The unfinished line of the displayed terminal is the one in the editor.
  have front := LineBuffers.unfinished_front (b := s.lines)
  rw [← hosts.lines s.currentId]
  exact (congrArg List.length front).trans (bytesOf_length _ _)

/-- A function key leaves every screen as it was, or opens a blank one. -/
theorem display_screens (hosts : Hosts s ttys) (t u : Terminal)
    (opened : ((performKey s (.display t)).terminals u).isOpen = true) :
    Shows ((performKey s (.display t)).sheet u) (pressTtys ttys s (.display t) u).screen := by
  -- The key speaks to the displayed terminal, goes back to an open one, or opens a blank one.
  have still : ∀ v, v ≠ t ∨ s.currentId = t →
      ((performKey s (.display t)).terminals v).isOpen = (s.terminals v).isOpen := fun v away =>
    (congrArg (fun b => (b.mailboxes v).isOpen) (lines_performKey s (.display t))).trans
      (LineBuffers.display_isOpen away)
  simp only [pressTtys]
  by_cases here : t = s.currentId
  · subst here
    rw [if_pos rfl]
    exact hosts.printed (display_announced hosts.range) (fun v => still v (.inr rfl)) u opened
  · rw [if_neg here]
    by_cases known : (s.terminals t).isOpen = true
    · obtain ⟨column, row⟩ := int32_of_inRange hosts.range
      have sound : Switchable s := ⟨column, row, hosts.within.typed, hosts.within.saved⟩
      have taken : switchStep s t = some (displayKey s t) := sound.switchStep_eq here known
      have before : (s.terminals u).isOpen = true := by
        by_cases same : u = t
        · rw [same]
          exact known
        · rw [← still u (.inl same)]
          exact opened
      have kept : (performKey s (.display t)).sheet u = s.sheet u :=
        (sheet_switch hosts.range sound taken u).2
      rw [if_pos known, kept]
      exact hosts.screens u before
    · have first : t ≠ 0 := fun zero => known (zero ▸ hosts.opened.first)
      obtain ⟨blank, others⟩ := display_opens hosts.range first here (by simpa using known)
      rw [if_neg known, Ttys.start]
      by_cases same : u = t
      · subst same
        rw [Function.update_self]
        exact blank
      · have kept : (performKey s (.display t)).sheet u = s.sheet u := others u same
        rw [Function.update_of_ne same, kept]
        exact hosts.screens u (still u (.inl same) ▸ opened)

/-- Any other key is echoed on the displayed terminal. -/
theorem typed_screens (hosts : Hosts s ttys) {action : KeyAction} (onLine : action.OnLine)
    (echoes : KeyEchoes s action) (printable : ∀ c, action = .char c → 0x20 ≤ c) (u : Terminal)
    (opened : ((performKey s action).terminals u).isOpen = true) :
    Shows ((performKey s action).sheet u) (ttys.type s.currentId action u).screen := by
  -- The displayed terminal echoes the key, and no cell of another one is stored to.
  have lines := lines_performKey s action
  have still : ((performKey s action).terminals u).isOpen = (s.terminals u).isOpen :=
    (congrArg (fun b => (b.mailboxes u).isOpen) lines).trans
      (LineBuffers.key_isOpen_eq _ onLine u)
  have shows := hosts.screens u (still ▸ opened)
  by_cases here : u = s.currentId
  · subst here
    have shown : (performKey s action).currentId = s.currentId :=
      (congrArg LineBuffers.displayed lines).trans (LineBuffers.key_displayed _ onLine)
    have front := sheet_front (performKey s action)
    rw [shown] at front
    rw [sheet_front] at shows
    rw [front, Ttys.type, Function.update_self]
    exact key_shows hosts.range onLine shows hosts.length hosts.within.typed echoes printable
  · rw [key_others hosts.range onLine (echoes.inside hosts.range) here, Ttys.type,
      Function.update_of_ne here]
    exact shows

/-- A key of the user reaches the displayed terminal, and no other one. -/
theorem key_screens (hosts : Hosts s ttys) {action : KeyAction} (echoes : KeyEchoes s action)
    (printable : ∀ c, action = .char c → 0x20 ≤ c) (u : Terminal)
    (opened : ((performKey s action).terminals u).isOpen = true) :
    Shows ((performKey s action).sheet u) (pressTtys ttys s action u).screen := by
  cases action with
  | display t => exact hosts.display_screens t u opened
  | char | backspace | enter | clear | nothing =>
    exact hosts.typed_screens (fun _ => KeyAction.noConfusion) echoes printable u opened

/-- What a key does to the lines. -/
theorem key_lines (hosts : Hosts s ttys) {action : KeyAction} (echoes : KeyEchoes s action)
    (u : Terminal) :
    (s.lines.key (erases s) action).unfinished u = (pressTtys ttys s action u).line := by
  -- Only the displayed terminal's line is edited, and a function key edits none at all.
  rw [LineBuffers.editedBy_key hosts.within.typed hosts.closed echoes.edits.lines u, hosts.lines u]
  have typed : (if u = s.currentId then edit (ttys u).line action else (ttys u).line) =
      (ttys.type s.currentId action u).line := by
    by_cases here : u = s.currentId
    · subst here
      rw [if_pos rfl, Ttys.type, Function.update_self]
      rfl
    · rw [if_neg here, Ttys.type, Function.update_of_ne here]
  cases action with
  | display t =>
    simp only [edit, ite_self, pressTtys]
    split
    · rw [print_line]
    · split
      · rfl
      · rename_i shut
        by_cases here : u = t
        · -- A terminal that was never opened has no line.
          subst here
          have first : u ≠ 0 := fun zero => shut (zero ▸ hosts.opened.first)
          have closed : (s.lines.mailboxes u).isOpen = false := by
            change (s.terminals u).isOpen = false
            simpa using shut
          obtain ⟨behind, none⟩ := hosts.closed u first closed
          rw [Ttys.start, Function.update_self, ← hosts.lines u,
            LineBuffers.unfinished_other behind, none]
          rfl
        · rw [Ttys.start, Function.update_of_ne here]
  | char | backspace | enter | clear | nothing => exact typed

/-- The modifier flags are no part of the terminals. -/
theorem flags (hosts : Hosts s ttys) (c : Byte) :
    Hosts (s.setKeyboard fun kb => flagsAfter kb c) ttys := by
  -- A flag is neither a position nor a part of a line.
  obtain ⟨buf, index, count, -, -⟩ := flagsAfter_kept s.keyboard c
  have lines : (s.setKeyboard fun kb => flagsAfter kb c).lines = s.lines := by
    simp only [Kernel.lines, Kernel.setKeyboard, buf, index, count]
  refine ⟨(positions_flagsAfter s c).symm ▸ hosts.range, ?_, ?_, ?_, ?_, hosts.screens⟩
  · exact lines.symm ▸ hosts.within
  · exact lines.symm ▸ hosts.opened
  · exact lines.symm ▸ hosts.closed
  · exact lines.symm ▸ hosts.lines

/-- The keyboard interrupt. -/
theorem key {env : Env} (hosts : Hosts s ttys) {scancode : Byte}
    (keeps : KeepsIndices s (.keyboard scancode)) (echoes : Echoes s (.keyboard scancode))
    (taken : step env s (.keyboard scancode) = some (printKeyboard s scancode)) :
    Hosts (printKeyboard s scancode) (pressTtys ttys s (pressAction s.keyboard scancode)) := by
  -- The flags are set first, and the lemmas about keys are used behind them.
  have lines := lines_printKeyboard s scancode
  refine ⟨printKeyboard_inRange hosts.range scancode,
    ((step_within_iff hosts.within taken).mp keeps).1, opened_of_step hosts.opened taken, ?_,
    fun u => ?_, fun u opened => ?_⟩
  · rw [lines]
    exact hosts.closed.key _ _
  · rw [lines]
    exact hosts.key_lines echoes u
  · have flagged := hosts.flags scancode
    have same := echoes.flags scancode
    rw [printKeyboard_eq] at opened ⊢
    exact flagged.key_screens same (fun c typed => pressAction_printable typed) u opened

/-- What is not typed changes no line, and opens no terminal. -/
theorem untyped_lines (hosts : Hosts s ttys) {event : Event} (taken : step env s event = some next)
    (silent : ∀ scancode, event ≠ .keyboard scancode) :
    next.lines.ClosedEmpty ∧ (∀ t, next.lines.unfinished t = s.lines.unfinished t) ∧
      ∀ t, (next.terminals t).isOpen = (s.terminals t).isOpen := by
  -- A reader may take a line that waits, which is no unfinished one.
  cases line_cases taken with
  | key scancode => exact absurd rfl (silent scancode)
  | taken takes ready here frames after =>
    have lines : next.lines = s.lines.take := by
      rw [after]
      exact lines_takeLine s
    rw [lines]
    exact ⟨hosts.closed.take, LineBuffers.unfinished_take, fun t =>
      (congrArg (fun b => (b.mailboxes t).isOpen) lines).trans (LineBuffers.take_isOpen t)⟩
  | other spares silent kept =>
    rw [kept]
    exact ⟨hosts.closed, fun _ => rfl, fun t => congrArg (fun b => (b.mailboxes t).isOpen) kept⟩

/-- A step that prints a text on one terminal, and is no key, is a text printed there. -/
theorem outputs (hosts : Hosts s ttys) {event : Event} {t : Terminal} {text : List Byte}
    (keeps : KeepsIndices s event) (taken : step env s event = some next)
    (silent : ∀ scancode, event ≠ .keyboard scancode)
    (sheets : ∀ u, next.sheet u = if u = t then (s.sheet u).prints text else s.sheet u) :
    Hosts next (ttys.print t text) := by
  -- The text is new on one screen, and the lines are those before the step.
  obtain ⟨closed, lines, still⟩ := hosts.untyped_lines taken silent
  refine ⟨step_inRange taken hosts.range, ((step_within_iff hosts.within taken).mp keeps).1,
    opened_of_step hosts.opened taken, closed, fun u => ?_, hosts.printed sheets still⟩
  rw [lines u, hosts.lines u, print_line]

/-- Every step is one of the terminals that the observer has. -/
theorem step (hosts : Hosts s ttys) {event : Event} (keeps : KeepsIndices s event)
    (echoes : Echoes s event) (taken : step env s event = some next) :
    Hosts next (watchTtys env ttys s event next) := by
  -- What prints nothing at all prints the empty text.
  have nothing : ∀ {event}, KeepsIndices s event → SmallOs.step env s event = some next →
      (∀ scancode, event ≠ .keyboard scancode) → (∀ u, next.sheet u = s.sheet u) →
      Hosts next ttys := by
    intro event keeps taken silent same
    have printed : Hosts next (ttys.print s.currentId []) :=
      hosts.outputs keeps taken silent (Announced.of_same same)
    rwa [show ttys.print s.currentId [] = ttys from Function.update_eq_self _ _] at printed
  cases event with
  | keyboard scancode =>
    have pressed := taken
    obtain ⟨-, rfl⟩ := key_taken pressed
    exact hosts.key keeps echoes taken
  | pit esp ebp =>
    refine nothing keeps taken (fun _ => Event.noConfusion) ?_
    cases taken
    exact sheet_pitHandler esp ebp echoes
  | rtc =>
    refine nothing keeps taken (fun _ => Event.noConfusion) fun _ => ?_
    cases taken
    rfl
  | call frame request =>
    have announced := call_announced hosts.range taken
    cases request with
    | write fd buf nbytes =>
      refine hosts.outputs keeps taken (fun _ => Event.noConfusion) ?_
      obtain ⟨result, done, rfl⟩ := call_taken_plain rfl taken
      exact write_sheet hosts.range done
    | halt | execute | read | «open» | close | getargs | vidmap =>
      exact hosts.outputs keeps taken (fun _ => Event.noConfusion)
        (announced fun _ _ _ => Call.noConfusion)

/-- The booted machine has three blank terminals, of which the first is open. -/
theorem booted {start : Kernel} (booted : boot env = some start) :
    Hosts start fun _ => .blank := by
  obtain ⟨_, ⟨entered⟩⟩ := boot_entered booted
  have lines : start.lines = (initialKernel env).lines := entered.lines
  have own := OwnLines.booted booted
  have opened : start.lines.Opened := by
    rw [lines]
    exact ⟨rfl, rfl⟩
  refine ⟨boot_inRange booted, booted_within booted, opened, own.closed, own.lines,
    fun t up => ?_⟩
  have first : t = 0 := by
    have box := congrArg (fun b => (b.mailboxes t).isOpen) lines
    have zero : decide (t = 0) = true := box.symm.trans up
    exact of_decide_eq_true zero
  subst first
  -- The first one is displayed, and its screen was cleared.
  have front : (initialKernel env).sheet 0 = (initialKernel env).liveSheet :=
    sheet_front (initialKernel env)
  rw [entered.sheet, front]
  simp only [Kernel.liveSheet, initialKernel]
  exact shows_blank env.videoMemory

end Hosts

/--
One machine is three text terminals that have nothing to do with each other.

In every run whose steps keep the line buffers, and whose keys find the editor in step with the line
and the screen, each terminal that is open shows what a terminal of its own would show that was sent
only the text its processes wrote, the keys pressed while it was displayed, and the messages of the
kernel at that time. So is the line that is being typed on it. The timer must not refresh a `fish`.
-/
theorem terminals_hosted {env : Env} {start last : Kernel} {labels : List Event} {ttys : Ttys}
    (booted : boot env = some start)
    (run : Run (observed (step env) (watchTtys env))
      (fun state event => Hosted state.1 event) (start, fun _ => .blank) labels (last, ttys))
    (t : Terminal)
    (opened : (last.terminals t).isOpen = true) :
    Shows (last.sheet t) (ttys t).screen ∧ last.unfinished t = (ttys t).line := by
  -- The invariant ties the machine to the observer's terminals after every step.
  have hosts : Hosts last ttys :=
    run.observed_invariant Hosts (Hosts.booted booted) fun _ _ _ _ hosts hosted taken =>
      hosts.step hosted.1 hosted.2 taken
  exact ⟨hosts.screens t opened, hosts.lines t⟩

instance (s : Kernel) (event : Event) : Decidable (Hosted s event) :=
  inferInstanceAs (Decidable (_ ∧ _))

/-- A letter on the first terminal, then one on the second, and back: Alt is held for F2 and F1 only. -/
def sampleKeys : List Event :=
  [0x1E, 0x38, 0x3C, 0xB8, 0x30, 0x38, 0x3B].map .keyboard

/-- Each of the sample's two terminals has its own letter, wherever the keys went afterwards. -/
theorem terminals_hosted_sample : ∃ last ttys,
    replay (observed (step sampleEnv) (watchTtys sampleEnv))
        (fun state event => Hosted state.1 event) (sampleBooted, fun _ => .blank) sampleKeys =
      some (last, ttys) ∧
      last.currentId = 0 ∧ last.unfinished 0 = [0x61] ∧ last.unfinished 1 = [0x62] ∧
      Shows (last.sheet 0) (ttys 0).screen ∧ Shows (last.sheet 1) (ttys 1).screen := by
  -- The run is computed once, for the lines and for the terminals that are open.
  have given : (replay (observed (step sampleEnv) (watchTtys sampleEnv))
      (fun state event => Hosted state.1 event) (sampleBooted, fun _ => .blank) sampleKeys).map
        (fun state => (state.1.currentId, (state.1.terminals 0).isOpen,
          (state.1.terminals 1).isOpen, (state.2 0).line, (state.2 1).line)) =
      some (0, true, true, [0x61], [0x62]) := by decide +kernel
  obtain ⟨⟨last, ttys⟩, reached, same⟩ := Option.map_eq_some_iff.mp given
  simp only [Prod.mk.injEq] at same
  obtain ⟨shown, first, second, one, two⟩ := same
  obtain ⟨screen, line⟩ := terminals_hosted sample_boot (replay_run reached) 0 first
  obtain ⟨screen', line'⟩ := terminals_hosted sample_boot (replay_run reached) 1 second
  exact ⟨last, ttys, reached, shown, line.trans one, line'.trans two, screen, screen'⟩

end SmallOs
