import SmallOs.Proofs.Library.Format

/-! What `printf` prints of a whole format, and its numbers as numerals that can be read back. -/

namespace SmallOs

open Foundation

/--
The text of a format, with its arguments from some number on.

Inside a conversion it is known whether a flag was read.
-/
def rendered (call : FormatCall) : Option Bool → Nat → List Byte → List Byte
  | _, _, [] => []
  | none, esp, c :: rest =>
    if c = 0x25 then rendered call (some false) esp rest else c :: rendered call none esp rest
  | some alternate, esp, c :: rest =>
    -- A flag keeps the conversion open, and every other character closes it.
    if c = 0x23 then rendered call (some true) esp rest
    else conversion call alternate c (u32 (call.args esp)) ++
      rendered call none (esp + argumentsUsed c) rest

/-- The number of arguments a stretch of a format uses up, read from inside a conversion or not. -/
def argumentsIn (inside : Bool) : List Byte → Nat
  | [] => 0
  | c :: rest =>
    (if inside ∧ c ≠ 0x23 then argumentsUsed c else 0) +
      argumentsIn (if inside then c = 0x23 else c = 0x25) rest

section Stretches

variable {call : FormatCall} {state : Option Bool} {front : List Byte}

/-- A stretch that ends outside a conversion leaves the rest of the format as complete as it is. -/
theorem complete_append {inside : Bool} (whole : complete inside front = true) (rest : List Byte) :
    complete inside (front ++ rest) = complete false rest := by
  induction front generalizing inside with
  | nil =>
    have outside : inside = false := by simpa [complete] using whole
    rw [outside]
    rfl
  | cons c front ih => exact ih whole

/-- Such a stretch is rendered by itself, and the rest with the arguments it has left. -/
theorem rendered_append (esp : Nat) (whole : complete state.isSome front = true)
    (rest : List Byte) : rendered call state esp (front ++ rest) =
      rendered call state esp front ++
        rendered call none (esp + argumentsIn state.isSome front) rest := by
  -- The induction follows the stretch, inside a conversion and outside.
  induction front generalizing state esp with
  | nil =>
    cases state with
    | none => rfl
    | some alternate => cases whole
  | cons c front ih =>
    rw [List.cons_append]
    cases state with
    | none =>
      simp only [rendered, argumentsIn, Option.isSome_none, complete] at whole ⊢
      by_cases percent : c = 0x25
      · have opened := @ih (some false) esp (by simpa [percent] using whole)
        simp [percent, opened]
      · have printed := @ih none esp (by simpa [percent] using whole)
        simp [percent, printed]
    | some alternate =>
      simp only [rendered, argumentsIn, Option.isSome_some, complete] at whole ⊢
      by_cases flag : c = 0x23
      · have opened := @ih (some true) esp (by simpa [flag] using whole)
        simp [flag, opened]
      · have closed := @ih none (esp + argumentsUsed c) (by simpa [flag] using whole)
        simp [flag, closed, Nat.add_assoc]

end Stretches

section Output

variable {call : FormatCall} {fmt : List Byte} {p q : Printing}

/-- Texts printed one after another are one text. -/
theorem putText_append (s : Kernel) (first second : List Byte) :
    putText (putText s first) second = putText s (first ++ second) :=
  List.foldl_append.symm

/-- Between two points of a call a text was printed of which a rest is left. -/
def PrintedUpTo (p q : Printing) (whole rest : List Byte) : Prop :=
  ∃ text, q.kernel = putText p.kernel text ∧ whole = text ++ rest

/-- What the switch prints is the text of the stretch it reads. -/
theorem formatCharSwitch_printed (points : Points (call.pointer call.format) fmt)
    {alternate : Bool} {fuel : Nat} (within : p.buf ≤ fmt.length)
    (given : formatCharSwitch call p alternate fuel = some q) :
    PrintedUpTo p q (rendered call (some alternate) p.esp (fmt.drop p.buf))
      (rendered call none q.esp (fmt.drop (q.buf + 1))) := by
  -- Each flag is one turn, and the induction is on the fuel that bounds them.
  induction fuel generalizing p alternate with
  | zero => cases given
  | succ fuel ih =>
    by_cases before : p.buf < fmt.length
    · by_cases flag : p.char call = 0x23
      · have again : formatCharSwitch call p alternate (fuel + 1) =
            formatCharSwitch call p.look.next true fuel := by
          simp [formatCharSwitch, flag]
        have kept : rendered call (some alternate) p.esp (fmt.drop p.buf) =
            rendered call (some true) p.esp (fmt.drop (p.buf + 1)) := by
          rw [drop_char points before]
          simp [rendered, flag]
        rw [again] at given
        rw [kept]
        exact @ih p.look.next true before given
      · -- The character that closes the conversion says what is printed.
        rw [formatCharSwitch_single points flag, Option.some.injEq] at given
        subst given
        refine ⟨_, rfl, ?_⟩
        rw [drop_char points before, rendered, if_neg flag]
        rfl
    · -- The NUL prints nothing.
      obtain ends : p.buf = fmt.length := by omega
      have nul : p.char call = 0 := by rw [Printing.char, ends, points.nul]
      rw [formatCharSwitch_single points (by rw [nul]; decide), Option.some.injEq, nul] at given
      subst given
      refine ⟨_, rfl, ?_⟩
      rw [List.drop_eq_nil_of_le ends.ge, List.drop_eq_nil_of_le (by simp [Printing.look, ends])]
      rfl

/-- Where the switch has a result, its pointer has gone over a conversion. -/
theorem formatCharSwitch_goes (points : Points (call.pointer call.format) fmt)
    {alternate : Bool} {fuel : Nat} (within : p.buf ≤ fmt.length)
    (given : formatCharSwitch call p alternate fuel = some q) : Advanced fmt true p q := by
  obtain ⟨last, found, advanced⟩ | ⟨endless, -⟩ :=
    formatCharSwitch_advanced points alternate fuel within
  · rw [given, Option.some.injEq] at found
    rwa [found]
  · rw [given] at endless
    cases endless

/-- The loop prints the text of the format from its pointer on. -/
theorem printfLoop_rendered (points : Points (call.pointer call.format) fmt) {fuel : Nat}
    (within : p.buf ≤ fmt.length) (whole : complete false (fmt.drop p.buf) = true)
    (given : printfLoop call p fuel = some q) :
    q.kernel = putText p.kernel (rendered call none p.esp (fmt.drop p.buf)) := by
  -- A turn shows the text of a character or of a conversion, and leaves a complete rest.
  induction fuel generalizing p with
  | zero => cases given
  | succ fuel ih =>
    by_cases before : p.buf < fmt.length
    · have nonzero : p.char call ≠ 0 := (points.ne_zero before).2
      rw [drop_char points before] at whole ⊢
      rw [printfLoop, if_neg nonzero] at given
      by_cases percent : p.char call = 0x25
      · -- The text of a conversion, and then that of what is left behind it.
        rw [if_pos percent] at given
        obtain ⟨last, converted, rest⟩ := Option.bind_eq_some_iff.mp given
        obtain ⟨text, shown, same⟩ := formatCharSwitch_printed points (p := p.look.next) before converted
        have advanced := formatCharSwitch_goes points (p := p.look.next) before converted
        have opened : complete true (fmt.drop (p.buf + 1)) = true := by
          simpa [complete, percent] using whole
        have left := advanced.rest.symm.trans opened
        rw [Bool.and_eq_true, decide_eq_true_eq] at left
        have ended := @ih last.next left.1 left.2 rest
        rw [rendered, if_pos percent, show rendered call (some false) p.esp (fmt.drop (p.buf + 1)) = _
          from same, ← putText_append]
        exact ended.trans (congrArg (putText · _) shown)
      · -- Any other character is printed as it is.
        rw [if_neg percent] at given
        have plain : complete false (fmt.drop (p.buf + 1)) = true := by
          simpa [complete, percent] using whole
        rw [rendered, if_neg percent]
        exact @ih (p.look.putc (p.char call)).next before plain given
    · obtain ends : p.buf = fmt.length := by omega
      have nul : p.char call = 0 := by rw [Printing.char, ends, points.nul]
      rw [printfLoop, if_pos nul, Option.some.injEq] at given
      subst given
      rw [List.drop_eq_nil_of_le ends.ge]
      rfl

/-- `printf` of a complete format returns its length, and has printed its text. -/
theorem printf_rendered (points : Points (call.pointer call.format) fmt)
    (whole : complete false fmt = true) (s : Kernel) {fuel : Nat} (enough : fmt.length < fuel) :
    ∃ p, printf call s fuel = some (fmt.length, p) ∧
      p.kernel = putText s (rendered call none 0 fmt) := by
  obtain ⟨p, looped, ends, -⟩ := printfLoop_complete (p := ⟨s, 0, 0, []⟩) points fuel (Nat.zero_le _)
    (by simpa using enough) whole
  have printed := printfLoop_rendered (p := ⟨s, 0, 0, []⟩) points (Nat.zero_le _) whole looped
  exact ⟨p, by rw [printf, looped, Option.map_some, ends], printed⟩

end Output

section Directives

/--
What a directive prints of a word, wherever it stands in a complete format.

`printf` returns, and the text of the word stands on the screen between the texts of the parts of
the format before and after the directive.
-/
def Prints (value : Nat) (directive : List Byte) (property : List Byte → Prop) : Prop :=
  ∀ call s before after, Points (call.pointer call.format) (before ++ directive ++ after) →
    complete false before = true → complete false after = true →
    u32 (call.args (argumentsIn false before)) = value →
    ∃ text, property text ∧ ∀ fuel > (before ++ directive ++ after).length, ∃ p,
      printf call s fuel = some ((before ++ directive ++ after).length, p) ∧
        p.kernel = putText s (rendered call none 0 before ++ text ++
          rendered call none (argumentsIn false before + 1) after)

/-- A directive that renders a word as a text prints it. -/
theorem prints_of_rendered {value : Nat} {directive : List Byte} {property : List Byte → Prop}
    (text : List Byte) (holds : property text) (closed : complete false directive = true)
    (renders : ∀ call esp, u32 (call.args esp) = value →
      rendered call none esp directive = text ∧ argumentsIn false directive = 1) :
    Prints value directive property := by
  intro call s before after points front back given
  refine ⟨text, holds, fun fuel enough => ?_⟩
  -- The three parts of the format are rendered one after another.
  have whole : complete false (before ++ directive ++ after) = true := by
    rw [List.append_assoc, complete_append front, complete_append closed, back]
  obtain ⟨p, returned, printed⟩ := printf_rendered points whole s enough
  obtain ⟨same, used⟩ := renders call (0 + argumentsIn false before) (by rwa [Nat.zero_add])
  refine ⟨p, returned, printed.trans (congrArg (putText s) ?_)⟩
  rw [List.append_assoc, @rendered_append call none _ 0 front, @rendered_append call none _ _ closed]
  change _ ++ (rendered call none (0 + argumentsIn false before) directive ++
    rendered call none (0 + argumentsIn false before + argumentsIn false directive) after) = _
  rw [same, used, Nat.zero_add, List.append_assoc]

end Directives

/--
Every word is written as its canonical numeral in every radix from two to 36.

What the number directives of `printf` print denotes the argument, and the alternate hexadecimal
form has exactly eight digits.
-/
theorem numerals_round_trip {value : Nat} (word : value < 2 ^ 32) :
    (∀ radix, 2 ≤ radix → radix ≤ 36 → ∀ buf, ∃ after text, itoa value buf radix = some after ∧
      Writes buf after text ∧ Canonical radix text value) ∧
    Prints value [0x25, 0x75] (fun text => Canonical 10 text value) ∧
    Prints value [0x25, 0x78] (fun text => Canonical 16 text value) ∧
    Prints value [0x25, 0x64] (fun text => decodeSigned 10 text = some (toInt32 value)) ∧
    Prints value [0x25, 0x23, 0x78] (fun text => text.length = 8 ∧ decode 16 text = some value) := by
  -- The first part is about `itoa` alone, and the others about one directive each.
  refine ⟨fun radix low high buf => ?_, ?_, ?_, ?_, ?_⟩
  · obtain ⟨after, written, writes⟩ := itoa_writes word radix low high buf
    exact ⟨after, _, written, writes, canonical_numeralText low high word⟩
  · refine prints_of_rendered (numeralText 10 value) (canonical_numeralText (by decide) (by decide) word)
      rfl fun call esp given => ⟨?_, rfl⟩
    simp [rendered, conversion, given]
  · refine prints_of_rendered (numeralText 16 value) (canonical_numeralText (by decide) (by decide) word)
      rfl fun call esp given => ⟨?_, rfl⟩
    simp [rendered, conversion, given]
  · refine prints_of_rendered (signedText value) (decodeSigned_signedText word) rfl
      fun call esp given => ⟨?_, rfl⟩
    simp [rendered, conversion, given]
  · refine prints_of_rendered (paddedText value)
      ⟨paddedText_length word, decode_paddedText value⟩ rfl fun call esp given => ⟨?_, rfl⟩
    simp [rendered, conversion, given]

/-- The format `%d;` in memory, with the word of the smallest integer as its argument. -/
def signedFormat : FormatCall :=
  ⟨fun address => [0x25, 0x64, 0x3B, 0].getD (address - 0x400000) 0, 0x400000, fun _ => 0x80000000,
    fun _ => 0⟩

/-- The smallest integer, whose negation wraps to itself, is printed with its sign. -/
theorem numerals_round_trip_smallest :
    (∀ radix, 2 ≤ radix → radix ≤ 36 → ∀ buf, ∃ after text,
      itoa 0x80000000 buf radix = some after ∧ Writes buf after text ∧
        Canonical radix text 0x80000000) ∧
    ∃ text p, decodeSigned 10 text = some (-2147483648) ∧
      printf signedFormat sampleBooted 4 = some (3, p) ∧
        p.kernel = putText sampleBooted (text ++ [0x3B]) := by
  obtain ⟨written, -, -, signed, -⟩ := @numerals_round_trip 0x80000000 (by decide)
  refine ⟨written, ?_⟩
  obtain ⟨text, denotes, prints⟩ := signed signedFormat sampleBooted [] [0x3B]
    ⟨by decide, by decide⟩ rfl rfl rfl
  obtain ⟨p, returned, printed⟩ := prints 4 (by decide)
  exact ⟨text, p, denotes, returned, printed⟩

end SmallOs
