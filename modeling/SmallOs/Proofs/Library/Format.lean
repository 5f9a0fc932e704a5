import SmallOs.Proofs.Library.Numerals
import SmallOs.Proofs.Process.Boot

/-! How far `printf` reads into its format: a conversion that is cut off carries it past the end. -/

namespace SmallOs

open Foundation

/-- Whether no conversion is cut off by the end of a format, read from inside a conversion or not. -/
def complete (inside : Bool) : List Byte → Bool
  | [] => !inside
  | c :: rest =>
    -- A flag keeps the conversion open, and every other character closes it.
    complete (if inside then c = 0x23 else c = 0x25) rest

/-- A run of `printf` that stays inside a format of some length and returns that length. -/
def StaysInside (call : FormatCall) (s : Kernel) (length : Nat) : Prop :=
  ∃ fuel p, printf call s fuel = some (length, p) ∧ ∀ i ∈ p.reads, i ≤ length

/-- The string at a pointer, up to its first NUL. -/
def stringText (str : Nat → Byte) : List Byte :=
  bytesOf str (strlen str (2 ^ 32))

/-- The text a conversion prints of its argument, by the character that closes it. -/
def conversion (call : FormatCall) (alternate : Bool) (c : Byte) (arg : Nat) : List Byte :=
  if c = 0x25 then [0x25]
  else if c = 0x78 then if alternate then paddedText arg else numeralText 16 arg
  else if c = 0x75 then numeralText 10 arg
  else if c = 0x64 then signedText arg
  else if c = 0x63 then [UInt8.ofNat arg]
  else if c = 0x73 then stringText (call.pointer arg)
  else []

/-- How many arguments a conversion uses up. -/
def argumentsUsed (c : Byte) : Nat :=
  if c = 0x78 ∨ c = 0x75 ∨ c = 0x64 ∨ c = 0x63 ∨ c = 0x73 then 1 else 0

theorem conversion_string (call : FormatCall) (alternate : Bool) (arg : Nat) :
    conversion call alternate 0x73 arg = stringText (call.pointer arg) := rfl

section Strings

variable {str : Nat → Byte}

/-- A pointer to a string that fits the memory has it as its text. -/
theorem Points.stringText {text : List Byte} (points : Points str text)
    (fits : text.length < 2 ^ 32) : SmallOs.stringText str = text := by
  rw [SmallOs.stringText, points.strlen fits, bytesOf]
  refine List.ext_getElem (by simp) fun i _ inside => ?_
  rw [List.getElem_map, List.getElem_range]
  exact (points.ne_zero inside).1

/-- A pointer with a NUL somewhere behind it points to a string. -/
theorem exists_points {last : Nat} (nul : str last = 0) :
    ∃ text, Points str text ∧ text.length ≤ last := by
  -- The string ends at the first NUL.
  have some : ∃ i, str i = 0 := ⟨last, nul⟩
  refine ⟨(List.range (Nat.find some)).map str, ⟨?_, fun i within => ?_⟩, ?_⟩
  · rw [List.mem_map]
    rintro ⟨i, there, zero⟩
    exact Nat.find_min some (List.mem_range.mp there) zero
  · rw [List.length_map, List.length_range] at within
    rcases Nat.lt_or_eq_of_le within with inside | rfl
    · simp [cstr, inside]
    · rw [Nat.find_spec some]
      simp [cstr]
  · rw [List.length_map, List.length_range]
    exact Nat.find_min' some nul

variable {call : FormatCall} {fmt : List Byte}

/-- With one NUL in memory every pointer points to a string. -/
theorem pointer_points (points : Points (call.pointer call.format) fmt) (address : Nat) :
    ∃ text, Points (call.pointer address) text ∧ text.length < 2 ^ 32 := by
  -- Addresses wrap around, so the NUL of the format is somewhere behind every address.
  have nul := points.nul
  have there :
      call.pointer address (u32 (call.format + fmt.length + (2 ^ 32 - u32 address))) = 0 := by
    unfold FormatCall.pointer at nul ⊢
    rw [← nul]
    congr 1
    unfold u32
    omega
  obtain ⟨text, found, short⟩ := exists_points there
  exact ⟨text, found, short.trans_lt (u32_lt _)⟩

end Strings

section Switch

variable {call : FormatCall} {fmt : List Byte} {p q : Printing}

/-- What is left of a format starts with the character at the pointer. -/
theorem drop_char (points : Points (call.pointer call.format) fmt) (before : p.buf < fmt.length) :
    fmt.drop p.buf = p.char call :: fmt.drop (p.buf + 1) := by
  rw [List.drop_eq_getElem_cons before, ← (points.ne_zero before).1]
  rfl

/-- The pointer has gone over a stretch of the format up to a character, which is its last one. -/
structure Advanced (fmt : List Byte) (inside : Bool) (p q : Printing) : Prop where
  forward : p.buf ≤ q.buf
  within : q.buf ≤ fmt.length
  reads : q.reads = p.reads ++ List.range' p.buf (q.buf + 1 - p.buf)
  /-- Only a conversion that is cut off takes the pointer to the NUL. -/
  rest : complete inside (fmt.drop p.buf) =
    (decide (q.buf < fmt.length) && complete false (fmt.drop (q.buf + 1)))

/-- A character before, and then a stretch from the next one on. -/
theorem Advanced.behind {inside opened : Bool} (advanced : Advanced fmt opened p.look.next q)
    (opens : complete inside (fmt.drop p.buf) = complete opened (fmt.drop (p.buf + 1))) :
    Advanced fmt inside p q := by
  have moved : p.buf + 1 ≤ q.buf := advanced.forward
  have turns : q.buf + 1 - p.buf = q.buf + 1 - (p.buf + 1) + 1 := by omega
  refine ⟨by omega, advanced.within, ?_, opens.trans advanced.rest⟩
  rw [advanced.reads, turns, List.range'_succ]
  simp [Printing.look, Printing.next]

/-- A stretch of one character, which closes a conversion or starts none. -/
theorem Advanced.single {inside : Bool} {s : Kernel} {esp : Nat} (before : p.buf < fmt.length)
    (closes : complete inside (fmt.drop p.buf) = complete false (fmt.drop (p.buf + 1))) :
    Advanced fmt inside p { p.look with kernel := s, esp := esp } := by
  refine ⟨le_rfl, before.le, by simp [Printing.look], ?_⟩
  simp [Printing.look, before, closes]

/-- A conversion prints its text, uses up an argument or none, and looks at one character. -/
theorem formatCharSwitch_single (points : Points (call.pointer call.format) fmt)
    (other : p.char call ≠ 0x23) (alternate : Bool) (fuel : Nat) :
    formatCharSwitch call p alternate (fuel + 1) =
      some { p.look with
        kernel := putText p.kernel (conversion call alternate (p.char call) (p.arg call))
        esp := p.esp + argumentsUsed (p.char call) } := by
  -- The seven cases of the switch are tested in the order of the source.
  simp only [formatCharSwitch, if_neg other]
  split
  · rename_i here
    rw [here]
    rfl
  split
  · rename_i here
    rw [here]
    exact printHex_eq call p.look alternate
  split
  · rename_i here
    rw [here]
    exact printUnsigned_eq call p.look
  split
  · rename_i here
    rw [here]
    exact printSigned_eq call p.look
  split
  · rename_i here
    rw [here]
    rfl
  split
  · rename_i here
    obtain ⟨text, string, fits⟩ := pointer_points points (p.look.arg call)
    rw [here, conversion_string, show stringText (call.pointer (p.arg call)) = text from
      string.stringText fits]
    exact putsArg_eq string fits p.look
  · rename_i percent hex unsigned signed char string
    have none : conversion call alternate (p.char call) (p.arg call) = [] := by
      simp [conversion, percent, hex, unsigned, signed, char, string]
    have kept : argumentsUsed (p.char call) = 0 := by
      simp [argumentsUsed, hex, unsigned, signed, char, string]
    rw [none, kept]
    rfl

/-- The switch reads on through the flags to the character that closes the conversion. -/
theorem formatCharSwitch_advanced (points : Points (call.pointer call.format) fmt)
    (alternate : Bool) (fuel : Nat) (within : p.buf ≤ fmt.length) :
    (∃ q, formatCharSwitch call p alternate fuel = some q ∧ Advanced fmt true p q) ∨
      formatCharSwitch call p alternate fuel = none ∧ p.buf + fuel ≤ fmt.length := by
  -- Each flag is one turn, and the induction is on the fuel that bounds them.
  induction fuel generalizing p alternate with
  | zero => exact .inr ⟨rfl, within⟩
  | succ fuel ih =>
    by_cases before : p.buf < fmt.length
    · by_cases flag : p.char call = 0x23
      · have again : formatCharSwitch call p alternate (fuel + 1) =
            formatCharSwitch call p.look.next true fuel := by
          simp [formatCharSwitch, flag]
        have opens : complete true (fmt.drop p.buf) = complete true (fmt.drop (p.buf + 1)) := by
          rw [drop_char points before]
          simp [complete, flag]
        rw [again]
        obtain ⟨q, given, advanced⟩ | ⟨endless, short⟩ := @ih p.look.next true before
        · exact .inl ⟨q, given, advanced.behind opens⟩
        · have moved : p.buf + 1 + fuel ≤ fmt.length := short
          exact .inr ⟨endless, by omega⟩
      · have given := formatCharSwitch_single points flag alternate fuel
        refine .inl ⟨_, given, Advanced.single before ?_⟩
        rw [drop_char points before]
        simp [complete, flag]
    · -- The NUL is no flag, and closes nothing.
      obtain ends : p.buf = fmt.length := by omega
      have nul : p.char call = 0 := by rw [Printing.char, ends, points.nul]
      have given := formatCharSwitch_single points (by rw [nul]; decide) alternate fuel
      refine .inl ⟨_, given, le_rfl, within, by simp [Printing.look], ?_⟩
      rw [ends, List.drop_length]
      simp [complete, Printing.look, ends]

end Switch

section Loop

variable {call : FormatCall} {fmt : List Byte} {p q : Printing}

/-- One turn of the loop goes over a character that is printed, or over a conversion. -/
theorem printfLoop_turn (points : Points (call.pointer call.format) fmt) (fuel : Nat)
    (before : p.buf < fmt.length) :
    (∃ q, printfLoop call p (fuel + 1) = printfLoop call q.next fuel ∧ Advanced fmt false p q) ∨
      printfLoop call p (fuel + 1) = none ∧ p.buf + 1 + fuel ≤ fmt.length := by
  -- A percent sign opens a conversion for the switch, and any other character is printed.
  have nonzero : p.char call ≠ 0 := (points.ne_zero before).2
  by_cases percent : p.char call = 0x25
  · have opens : complete false (fmt.drop p.buf) = complete true (fmt.drop (p.buf + 1)) := by
      rw [drop_char points before]
      simp [complete, percent]
    obtain ⟨q, given, advanced⟩ | ⟨endless, short⟩ :=
      formatCharSwitch_advanced (p := p.look.next) points false fuel before
    · exact .inl ⟨q, printfLoop_percent percent given, advanced.behind opens⟩
    · refine .inr ⟨?_, short⟩
      rw [printfLoop, percent, if_neg (by decide), if_pos rfl, endless]
      rfl
  · refine .inl ⟨p.look.putc (p.char call), ?_, Advanced.single before ?_⟩
    · rw [printfLoop, if_neg nonzero, if_neg percent]
    · rw [drop_char points before]
      simp [complete, percent]

/-- Places read one after another join to one stretch. -/
theorem range'_join {first middle last : Nat} (low : first ≤ middle) (high : middle ≤ last) :
    List.range' first (middle - first) ++ List.range' middle (last - middle) =
      List.range' first (last - first) := by
  obtain ⟨m, rfl⟩ := Nat.exists_eq_add_of_le low
  obtain ⟨n, rfl⟩ := Nat.exists_eq_add_of_le high
  have lengths : first + m + n - first = m + n := by omega
  rw [Nat.add_sub_cancel_left, Nat.add_sub_cancel_left, lengths, List.range'_append_1]

/-- A complete format is read up to its NUL, one character after another. -/
theorem printfLoop_complete (points : Points (call.pointer call.format) fmt) (fuel : Nat)
    (within : p.buf ≤ fmt.length) (enough : fmt.length < p.buf + fuel)
    (whole : complete false (fmt.drop p.buf) = true) :
    ∃ q, printfLoop call p fuel = some q ∧ q.buf = fmt.length ∧
      q.reads = p.reads ++ List.range' p.buf (fmt.length + 1 - p.buf) := by
  -- A turn leaves a complete rest, which is shorter.
  induction fuel generalizing p with
  | zero => omega
  | succ fuel ih =>
    by_cases before : p.buf < fmt.length
    · obtain ⟨q, turned, advanced⟩ | ⟨-, short⟩ := printfLoop_turn points fuel before
      · have forward := advanced.forward
        rw [advanced.rest, Bool.and_eq_true, decide_eq_true_eq] at whole
        obtain ⟨last, given, ends, reads⟩ := @ih q.next whole.1
          (show fmt.length < q.buf + 1 + fuel by omega) whole.2
        refine ⟨last, turned.trans given, ends, ?_⟩
        rw [reads, Printing.next, advanced.reads, List.append_assoc,
          range'_join (by omega) (by omega)]
      · omega
    · obtain ends : p.buf = fmt.length := by omega
      have nul : p.char call = 0 := by rw [Printing.char, ends, points.nul]
      refine ⟨p.look, by rw [printfLoop, if_pos nul], ends, ?_⟩
      rw [ends, Nat.add_sub_cancel_left]
      simp [Printing.look, ends]

/-- Whatever the switch reads is added to what was read before. -/
theorem formatCharSwitch_reads (points : Points (call.pointer call.format) fmt) {alternate : Bool}
    {fuel : Nat} (given : formatCharSwitch call p alternate fuel = some q) : p.reads <+: q.reads := by
  -- Each flag is one turn that reads one character, and every other character the last one.
  induction fuel generalizing p alternate with
  | zero => cases given
  | succ fuel ih =>
    by_cases flag : p.char call = 0x23
    · simp only [formatCharSwitch, flag] at given
      exact (List.prefix_append _ _).trans (ih given)
    · have single := formatCharSwitch_single points flag alternate fuel
      rw [single, Option.some.injEq] at given
      subst given
      exact List.prefix_append _ _

/-- The loop reads the character at its pointer, wherever that is. -/
theorem printfLoop_looks (points : Points (call.pointer call.format) fmt) {fuel : Nat}
    (given : printfLoop call p fuel = some q) : p.reads ++ [p.buf] <+: q.reads := by
  -- Later turns only add to it.
  induction fuel generalizing p with
  | zero => cases given
  | succ fuel ih =>
    simp only [printfLoop] at given
    split at given
    · rw [Option.some.injEq] at given
      subst given
      exact List.prefix_rfl
    split at given
    · obtain ⟨last, converted, rest⟩ := Option.bind_eq_some_iff.mp given
      have more : p.look.next.reads <+: last.reads := formatCharSwitch_reads points converted
      exact more.trans ((List.prefix_append _ _).trans (@ih last.next rest))
    · exact (List.prefix_append _ _).trans (@ih (p.look.putc (p.char call)).next given)

/-- A format that is cut off inside a conversion is read past its NUL. -/
theorem printfLoop_incomplete (points : Points (call.pointer call.format) fmt) {fuel : Nat}
    (within : p.buf ≤ fmt.length) (cut : complete false (fmt.drop p.buf) = false)
    (given : printfLoop call p fuel = some q) : fmt.length + 1 ∈ q.reads := by
  -- A turn leaves a shorter rest that is cut off too, or goes on behind the NUL.
  induction fuel generalizing p with
  | zero => cases given
  | succ fuel ih =>
    have before : p.buf < fmt.length := by
      by_contra ends
      rw [List.drop_eq_nil_of_le (by omega)] at cut
      cases cut
    obtain ⟨last, turned, advanced⟩ | ⟨endless, -⟩ := printfLoop_turn points fuel before
    · rw [turned] at given
      rw [advanced.rest, Bool.and_eq_false_iff, decide_eq_false_iff_not] at cut
      have within := advanced.within
      by_cases inside : last.buf < fmt.length
      · exact @ih last.next inside (cut.resolve_left (not_not.mpr inside)) given
      · have behind : last.next.buf = fmt.length + 1 := by
          change last.buf + 1 = _
          omega
        exact (printfLoop_looks points given).subset (by simp [behind])
    · rw [endless] at given
      cases given

end Loop

/--
`printf` stays inside its format exactly when the format does not end inside a conversion.

It then reads every character up to the NUL and returns the length of the format.
-/
theorem printf_inside_iff {call : FormatCall} {fmt : List Byte}
    (points : Points (call.pointer call.format) fmt) (s : Kernel) :
    StaysInside call s fmt.length ↔ complete false fmt = true := by
  constructor
  · rintro ⟨fuel, p, given, inside⟩
    -- Otherwise the place behind the NUL was read.
    by_contra cut
    rw [printf, Option.map_eq_some_iff] at given
    obtain ⟨q, looped, same⟩ := given
    obtain rfl : q = p := congrArg Prod.snd same
    have past := inside _ (printfLoop_incomplete points (Nat.zero_le _) (by simpa using cut) looped)
    omega
  · intro whole
    obtain ⟨p, looped, ends, reads⟩ := printfLoop_complete (p := ⟨s, 0, 0, []⟩) points
      (fmt.length + 1) (Nat.zero_le _) (show fmt.length < 0 + (fmt.length + 1) by omega) whole
    refine ⟨fmt.length + 1, p, ?_, fun i there => ?_⟩
    · rw [printf, looped, Option.map_some, ends]
    · rw [reads, List.nil_append, List.mem_range'_1] at there
      omega

/-- A format in memory that ends with a percent sign, with two more characters behind its NUL. -/
def cutFormat : FormatCall :=
  ⟨fun address => [0x25, 0, 0x41].getD (address - 0x400000) 0, 0x400000, fun _ => 0, fun _ => 0⟩

theorem cutFormat_points : Points (cutFormat.pointer cutFormat.format) [0x25] :=
  ⟨by decide, by decide⟩

/-- The equivalence for a format that is one percent sign. -/
theorem printf_inside_iff_sample : StaysInside cutFormat sampleBooted 1 ↔ complete false [0x25] = true :=
  printf_inside_iff cutFormat_points sampleBooted

/-- `printf` of one percent sign prints what stands behind the format. -/
theorem cut_format_overread : Points (cutFormat.pointer cutFormat.format) [0x25] ∧
    ((printf cutFormat sampleBooted 4).map fun result => (result.1, result.2.reads)) =
      some (3, [0, 1, 2, 3]) ∧ ¬ StaysInside cutFormat sampleBooted 1 := by
  refine ⟨cutFormat_points, by decide +kernel, ?_⟩
  rintro ⟨fuel, p, given, inside⟩
  rw [printf, Option.map_eq_some_iff] at given
  obtain ⟨q, looped, same⟩ := given
  obtain rfl : q = p := congrArg Prod.snd same
  exact absurd (inside _ (printfLoop_incomplete cutFormat_points (Nat.zero_le _) rfl looped)) (by decide)

end SmallOs
