import SmallOs.Kernel.Keyboard

/-! The lines of a user who types on several terminals: what each key does, and whose line it is. -/

namespace SmallOs

/-- What a key does to the line of the terminal it is typed on. -/
def edit (line : List Byte) : KeyAction → List Byte
  -- A full line takes no further character.
  | .char c => if line.length < bufsize then line ++ [c] else line
  | .backspace => line.dropLast
  | .enter | .clear => []
  | .display _ | .nothing => line

/-- The line left by a sequence of keys. -/
def edits (line : List Byte) (actions : List KeyAction) : List Byte :=
  actions.foldl edit line

/-- One more key edits the line once more. -/
@[simp] theorem edits_append (line : List Byte) (actions : List KeyAction) (action : KeyAction) :
    edits line (actions ++ [action]) = edit (edits line actions) action := by
  simp [edits]

/-- No key makes a line longer than its buffer. -/
theorem edit_length {line : List Byte} (fits : line.length ≤ bufsize) (action : KeyAction) :
    (edit line action).length ≤ bufsize := by
  -- Only a character makes a line longer, and a full line takes none.
  cases action with
  | char c =>
    simp only [edit]
    split
    · rw [List.length_append, List.length_singleton]
      omega
    · exact fits
  | backspace =>
    simp only [edit, List.length_dropLast]
    omega
  | enter | clear => exact Nat.zero_le _
  | display | nothing => exact fits

/-- A line of characters stays one when no NUL is typed. -/
theorem edit_solid {line : List Byte} (solid : 0 ∉ line) {action : KeyAction}
    (typed : action ≠ .char 0) : 0 ∉ edit line action := by
  -- Only a character adds to a line, and it is not the NUL.
  cases action with
  | char c =>
    simp only [edit]
    split
    · have other : (0 : Byte) ≠ c := fun same => typed (same ▸ rfl)
      simp [solid, other]
    · exact solid
  | backspace => exact fun member => solid ((List.dropLast_sublist line).subset member)
  | enter | clear => exact List.not_mem_nil
  | display | nothing => exact solid

/-- Neither does a sequence of keys. -/
theorem edits_length {line : List Byte} (fits : line.length ≤ bufsize) (actions : List KeyAction) :
    (edits line actions).length ≤ bufsize := by
  -- Each key is bounded by the lemma above.
  induction actions generalizing line with
  | nil => exact fits
  | cons action actions ih => exact ih (edit_length fits action)

/-- The keys typed on each terminal while it was displayed, in their order. -/
abbrev Typed := Terminal → List KeyAction

/-- One more key is typed on a terminal. -/
def Typed.type (typed : Typed) (t : Terminal) (action : KeyAction) : Typed :=
  Function.update typed t (typed t ++ [action])

/-- A key is pressed while a terminal is displayed: a switch is not typed on it. -/
def Typed.press (typed : Typed) (t : Terminal) : KeyAction → Typed
  | .display _ => typed
  | action => typed.type t action

namespace Typed

variable {typed : Typed} {t : Terminal} {action : KeyAction}

theorem type_same : typed.type t action t = typed t ++ [action] :=
  Function.update_self _ _ _

theorem type_other {u : Terminal} (other : u ≠ t) : typed.type t action u = typed u :=
  Function.update_of_ne other _ _

end Typed

/--
The terminals as their users and readers know them.

A line is drafted on the terminal that is displayed, completed by Enter, and delivered to a reader.
-/
structure LineLog where
  drafts : Terminal → List Byte
  completed : Terminal → List (List Byte)
  delivered : Terminal → List (List Byte)

namespace LineLog

/-- Nothing has been typed or read. -/
def empty : LineLog :=
  ⟨fun _ => [], fun _ => [], fun _ => []⟩

/-- A key is pressed while a terminal is displayed; Enter completes the draft with a newline. -/
def press (log : LineLog) (t : Terminal) (action : KeyAction) : LineLog :=
  { log with
    drafts := Function.update log.drafts t (edit (log.drafts t) action)
    completed :=
      if action = .enter then
        Function.update log.completed t (log.completed t ++ [log.drafts t ++ [0x0A]])
      else log.completed }

/-- Only Enter completes a line, and only on the terminal that is displayed. -/
theorem completed_press (log : LineLog) (t u : Terminal) (action : KeyAction) :
    (log.press t action).completed u =
      if action = .enter ∧ u = t then log.completed t ++ [log.drafts t ++ [0x0A]]
      else log.completed u := by
  unfold press
  -- No other key than Enter touches what was completed.
  by_cases enters : action = .enter
  · by_cases here : u = t
    · subst here
      simp [enters]
    · simp [enters, here]
  · simp [enters]

/-- A reader on a terminal is given some bytes. -/
def deliver (log : LineLog) (t : Terminal) (bytes : List Byte) : LineLog :=
  { log with delivered := Function.update log.delivered t (log.delivered t ++ [bytes]) }

end LineLog

end SmallOs
