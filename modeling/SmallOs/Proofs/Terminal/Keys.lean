import SmallOs.Abstract.Lines

/-! What a scan code asks for, by the modifier flags alone, and the keyboard interrupt as one action. -/

namespace SmallOs

/-- The four modifier flags. -/
def Keyboard.modifiers (kb : Keyboard) : Bool × Bool × Bool × Bool :=
  (kb.capsLockFlags, kb.shiftFlags, kb.ctrlFlags, kb.altFlags)

/-- What the scan codes of a sequence ask for, one after the other. -/
def pressActions : Keyboard → List Byte → List KeyAction
  -- Each scan code is read with the flags the ones before it have left.
  | _, [] => []
  | kb, c :: scancodes => pressAction kb c :: pressActions (flagsAfter kb c) scancodes

/-- The keyboard interrupt updates the flags, and then carries out one action. -/
theorem printKeyboard_eq (s : Kernel) (c : Byte) :
    printKeyboard s c =
      performKey (s.setKeyboard fun kb => flagsAfter kb c) (pressAction s.keyboard c) := by
  unfold printKeyboard pressAction flagsAfter
  -- The source returns early on a release, where the action is to do nothing.
  by_cases release : c > 0x80
  · simp only [if_pos release]
    rfl
  · simp only [if_neg release]
    rfl

section Flags

variable {kb other : Keyboard}

/-- Only a release of a modifier clears its flag. -/
theorem releaseFlags_eq (kb : Keyboard) (c : Byte) :
    releaseFlags kb c =
      { kb with
        shiftFlags := if c = 0xAA ∨ c = 0xB6 then false else kb.shiftFlags
        ctrlFlags := if c = 0x9D then false else kb.ctrlFlags
        altFlags := if c = 0xB8 then false else kb.altFlags } := by
  unfold releaseFlags
  -- The three tests are independent of each other.
  split <;> split <;> split <;> rfl

/-- Only a press of a modifier sets its flag, or toggles it. -/
theorem pressFlags_eq (kb : Keyboard) (c : Byte) :
    pressFlags kb c =
      { kb with
        capsLockFlags := if c = 0x3A then !kb.capsLockFlags else kb.capsLockFlags
        shiftFlags := if c = 0x2A ∨ c = 0x36 then true else kb.shiftFlags
        ctrlFlags := if c = 0x1D then true else kb.ctrlFlags
        altFlags := if c = 0x38 then true else kb.altFlags } := by
  unfold pressFlags
  -- So are these four.
  split <;> split <;> split <;> split <;> rfl

/-- Equal flags are equal one by one. -/
theorem modifiers_iff : kb.modifiers = other.modifiers ↔
    kb.capsLockFlags = other.capsLockFlags ∧ kb.shiftFlags = other.shiftFlags ∧
      kb.ctrlFlags = other.ctrlFlags ∧ kb.altFlags = other.altFlags := by
  -- The flags are a tuple of four.
  simp only [Keyboard.modifiers, Prod.mk.injEq]

/-- The tests of the modifier keys read no more than the flags. -/
theorem flagsAfter_congr (same : kb.modifiers = other.modifiers) (c : Byte) :
    (flagsAfter kb c).modifiers = (flagsAfter other c).modifiers := by
  -- With the flags written out, both sides compute the same four.
  obtain ⟨caps, shift, ctrl, alt⟩ := modifiers_iff.mp same
  unfold flagsAfter
  split
  · simp only [releaseFlags_eq, Keyboard.modifiers, caps, shift, ctrl, alt]
  · simp only [pressFlags_eq, releaseFlags_eq, Keyboard.modifiers, caps, shift, ctrl, alt]

/-- Neither does the choice of what to do. -/
theorem pressAction_congr (same : kb.modifiers = other.modifiers) (c : Byte) :
    pressAction kb c = pressAction other c := by
  -- The flags decide which table is searched, and the scan code what is found there.
  obtain ⟨caps, shift, ctrl, alt⟩ := modifiers_iff.mp (flagsAfter_congr same c)
  simp only [pressAction, keyAction, typedChar, caps, shift, ctrl, alt]

theorem pressActions_congr (same : kb.modifiers = other.modifiers) (scancodes : List Byte) :
    pressActions kb scancodes = pressActions other scancodes := by
  -- The flags stay equal along the sequence.
  induction scancodes generalizing kb other with
  | nil => rfl
  | cons c scancodes ih =>
    simp only [pressActions]
    rw [pressAction_congr same c, ih (flagsAfter_congr same c)]

/-- Updating the flags changes neither the line nor the editor's position. -/
theorem flagsAfter_kept (kb : Keyboard) (c : Byte) :
    (flagsAfter kb c).keyboardbuf = kb.keyboardbuf ∧ (flagsAfter kb c).bufIndex = kb.bufIndex ∧
      (flagsAfter kb c).count = kb.count ∧ (flagsAfter kb c).vdX = kb.vdX ∧
      (flagsAfter kb c).vdY = kb.vdY := by
  -- The updates name the flags only.
  unfold flagsAfter
  split
  · rw [releaseFlags_eq]
    exact ⟨rfl, rfl, rfl, rfl, rfl⟩
  · rw [pressFlags_eq, releaseFlags_eq]
    exact ⟨rfl, rfl, rfl, rfl, rfl⟩

end Flags

section Tables

variable {kb : Keyboard} {c ascii : Byte}

/-- A character that is found stands in the table. -/
theorem lookupKey_mem {table : List Kboard} (found : lookupKey table c = some ascii) :
    ∃ key ∈ table, key.asciiNumber = ascii := by
  unfold lookupKey at found
  -- The search returns the first entry with the scan code.
  obtain ⟨key, first, same⟩ := Option.map_eq_some_iff.mp found
  exact ⟨key, List.mem_of_find?_eq_some first, same⟩

/-- A typed character is no control character. -/
theorem typedChar_printable (typed : typedChar kb c = some ascii) : 0x20 ≤ ascii := by
  -- The tables are short enough to be looked through.
  have shifted : ∀ key ∈ shiftKeys ++ keyboardCap, 0x20 ≤ key.asciiNumber := by decide
  have capital : ∀ key ∈ plainKeys ++ keyboardSc.take 10 ++ keyboardCap.drop 10,
      0x20 ≤ key.asciiNumber := by decide
  have plain : ∀ key ∈ plainKeys ++ keyboardSc, 0x20 ≤ key.asciiNumber := by decide
  unfold typedChar at typed
  split at typed
  · obtain ⟨key, member, rfl⟩ := lookupKey_mem typed
    exact shifted key member
  · split at typed
    · obtain ⟨key, member, rfl⟩ := lookupKey_mem typed
      exact capital key member
    · obtain ⟨key, member, rfl⟩ := lookupKey_mem typed
      exact plain key member

/-- No key types a control character. -/
theorem pressAction_printable (typed : pressAction kb c = .char ascii) : 0x20 ≤ ascii := by
  unfold pressAction keyAction at typed
  -- The tests come in the order of the source, and two of them end in a character.
  split at typed
  · cases typed
  split at typed
  · cases typed
  split at typed
  · cases typed
  split at typed
  · cases typed
  split at typed
  · cases typed
  split at typed
  · cases typed
  split at typed
  · cases typed
    decide
  split at typed
  · cases typed
  split at typed
  · rename_i found
    cases typed
    exact typedChar_printable found
  · cases typed

/-- No key types a NUL. -/
theorem pressAction_ne_zero (typed : pressAction kb c = .char ascii) : ascii ≠ 0 := by
  rintro rfl
  exact absurd (pressAction_printable typed) (by decide)

end Tables

end SmallOs
