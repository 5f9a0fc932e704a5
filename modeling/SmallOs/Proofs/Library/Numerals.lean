import SmallOs.Foundation.Numeral
import SmallOs.Kernel.Format

/-! The numerals `itoa` writes and `printf` prints read back as the words they came from. -/

namespace SmallOs

open Foundation

/-- The character of a digit. -/
def digitChar (digit : Nat) : Byte :=
  itoa.lookup.getD digit 0

/-- The digit a character stands for. -/
def digitOf (c : Byte) : Option Nat :=
  if 0x30 ≤ c ∧ c ≤ 0x39 then some (c.toNat - 0x30)
  else if 0x41 ≤ c ∧ c ≤ 0x5A then some (c.toNat - 0x41 + 10)
  else none

/-- The number a text denotes in a radix, if all its characters are digits below the radix. -/
def decode (radix : Nat) (text : List Byte) : Option Nat :=
  (text.mapM digitOf).bind fun digits =>
    if ∀ digit ∈ digits, digit < radix then some (readDigits radix digits) else none

/-- The number a text denotes when it may start with a sign. -/
def decodeSigned (radix : Nat) (text : List Byte) : Option Int :=
  if text.head? = some 0x2D then (decode radix text.tail).map fun value : Nat => -(value : Int)
  else (decode radix text).map fun value : Nat => (value : Int)

/-- A text is the canonical numeral of a word. -/
structure Canonical (radix : Nat) (text : List Byte) (value : Nat) : Prop where
  denotes : decode radix text = some value
  /-- There is no leading zero, except that zero is written with one digit. -/
  leading : text.head? = some 0x30 → text = [0x30]
  nonempty : text ≠ []
  short : text.length ≤ 32

/-- A pointer to a string: its characters, and then a NUL. -/
structure Points (str : Nat → Byte) (text : List Byte) : Prop where
  solid : 0 ∉ text
  bytes : ∀ i ≤ text.length, str i = cstr text i

/-- The characters of a numeral. -/
def numeralText (radix value : Nat) : List Byte :=
  (numeral radix value).map digitChar

section Digits

/-- Each character of the table stands for its place in it. -/
theorem digitOf_digitChar {digit : Nat} (small : digit < 36) :
    digitOf (digitChar digit) = some digit := by
  have all : ∀ digit < 36, digitOf (digitChar digit) = some digit := by decide
  exact all digit small

theorem digitChar_ne_zero {digit : Nat} (small : digit < 36) : digitChar digit ≠ 0 := by
  have all : ∀ digit < 36, digitChar digit ≠ 0 := by decide
  exact all digit small

/-- Only the digit zero is written with the character zero. -/
theorem digitChar_zero {digit : Nat} (small : digit < 36) (zero : digitChar digit = 0x30) :
    digit = 0 := by
  have all : ∀ digit < 36, digitChar digit = 0x30 → digit = 0 := by decide
  exact all digit small zero

/-- The characters of digits stand for those digits. -/
theorem mapM_digitOf {digits : List Nat} (small : ∀ digit ∈ digits, digit < 36) :
    (digits.map digitChar).mapM digitOf = some digits := by
  induction digits with
  | nil => rfl
  | cons digit digits ih =>
    rw [List.forall_mem_cons] at small
    rw [List.map_cons, List.mapM_cons, digitOf_digitChar small.1, ih small.2]
    rfl

variable {radix value : Nat}

/-- A text of digits below the radix denotes what they read as. -/
theorem decode_digits (high : radix ≤ 36) {digits : List Nat}
    (small : ∀ digit ∈ digits, digit < radix) :
    decode radix (digits.map digitChar) = some (readDigits radix digits) := by
  rw [decode, mapM_digitOf fun digit there => (small digit there).trans_le high]
  exact if_pos small

/-- The text of a numeral is canonical. -/
theorem canonical_numeralText (low : 2 ≤ radix) (high : radix ≤ 36) (word : value < 2 ^ 32) :
    Canonical radix (numeralText radix value) value := by
  have small : ∀ digit ∈ numeral radix value, digit < radix := fun _ there => numeral_lt low there
  refine ⟨?_, fun leading => ?_, ?_, ?_⟩
  · rw [numeralText, decode_digits high small, readDigits_numeral]
  · -- A leading zero is the digit of the number zero.
    rw [numeralText, List.head?_map, Option.map_eq_some_iff] at leading
    obtain ⟨digit, first, written⟩ := leading
    have below := small digit (List.mem_of_mem_head? first)
    rw [digitChar_zero (by omega) written] at first
    rw [numeralText, numeral_head first]
    rfl
  · simpa [numeralText] using numeral_ne_nil radix value
  · -- Every radix from two on needs at most as many digits as two.
    have fits : value < radix ^ 32 := word.trans_le (Nat.pow_le_pow_left low 32)
    rw [numeralText, List.length_map]
    exact numeral_length low (by decide) fits

/-- No character of a numeral is a NUL. -/
theorem solid_numeralText (low : 2 ≤ radix) (high : radix ≤ 36) : 0 ∉ numeralText radix value := by
  rw [numeralText, List.mem_map]
  rintro ⟨digit, there, zero⟩
  exact digitChar_ne_zero ((numeral_lt low there).trans_le high) zero

end Digits

section Reversal

/-- The loop of `strrev` turns the bytes between its two ends around. -/
theorem strrevLoop_apply (s : Nat → Byte) (beg last i : Nat) : strrevLoop s beg last i =
    if beg ≤ i ∧ i ≤ last then s (beg + last - i) else s i := by
  -- Each turn swaps the outermost two, and the rest is turned around by the induction.
  induction last generalizing s beg with
  | zero =>
    unfold strrevLoop
    split
    · congr 1
      omega
    · rfl
  | succ last ih =>
    unfold strrevLoop
    split
    · rename_i apart
      rw [ih]
      grind
    · split
      · congr 1
        omega
      · rfl

/-- The characters of a string are those of its text. -/
theorem Points.ne_zero {str : Nat → Byte} {text : List Byte} (points : Points str text) {i : Nat}
    (inside : i < text.length) : str i = text[i] ∧ str i ≠ 0 := by
  have here : str i = text[i] := by
    rw [points.bytes i inside.le]
    simp [cstr, inside]
  exact ⟨here, fun zero => points.solid (zero ▸ here ▸ List.getElem_mem inside)⟩

/-- A string ends with a NUL. -/
theorem Points.nul {str : Nat → Byte} {text : List Byte} (points : Points str text) :
    str text.length = 0 := by
  rw [points.bytes _ le_rfl]
  simp [cstr]

/-- The length of a string is found within any bound that passes its NUL. -/
theorem Points.strlen {str : Nat → Byte} {text : List Byte} (points : Points str text) {bound : Nat}
    (passed : text.length < bound) : SmallOs.strlen str bound = text.length :=
  strlenFrom_eq bound (Nat.zero_le _) (by omega) points.nul
    fun _ _ inside => (points.ne_zero inside).2

/-- A reversed string is the string of the reversed text. -/
theorem Points.strrev {str : Nat → Byte} {text : List Byte} (points : Points str text) {bound : Nat}
    (passed : text.length < bound) : Points (SmallOs.strrev str bound) text.reverse := by
  refine ⟨by simpa using points.solid, fun i within => ?_⟩
  rw [List.length_reverse] at within
  rw [SmallOs.strrev, points.strlen passed, strrevLoop_apply]
  by_cases inside : i < text.length
  · -- A character comes from the same distance at the other end.
    rw [if_pos (by omega), points.bytes _ (by omega)]
    have other : 0 + (text.length - 1) - i < text.length := by omega
    have mirrored : text.reverse[i]? = text[text.length - 1 - i]? :=
      List.getElem?_reverse (by omega)
    simp only [cstr, List.getD_eq_getElem?_getD, mirrored, Nat.zero_add]
  · -- The terminating NUL stays where it is.
    obtain rfl : i = text.length := by omega
    have nul := points.nul
    have past : cstr text.reverse text.length = 0 := by simp [cstr]
    rw [past]
    split
    · rename_i only
      have empty : text.length = 0 := by omega
      rw [empty] at nul ⊢
      exact nul
    · exact nul

end Reversal

section Itoa

variable {radix : Nat}

/-- The digit loop stores the digits from the least significant one on. -/
theorem itoaLoop_eq (low : 2 ≤ radix) (buf : Nat → Byte) (newbuf newval fuel : Nat)
    (enough : (Nat.digits radix newval).length < fuel) :
    itoaLoop radix buf newbuf newval fuel =
      some (storeAll (storesFrom newbuf ((Nat.digits radix newval).map digitChar)) buf,
        newbuf + (Nat.digits radix newval).length) := by
  -- Each turn stores one digit and leaves the others to the next one.
  induction fuel generalizing buf newbuf newval with
  | zero => omega
  | succ fuel ih =>
    unfold itoaLoop
    split
    · rename_i positive
      have digits := Nat.digits_def' (by omega : 1 < radix) positive
      rw [digits, List.length_cons] at enough
      rw [ih _ _ _ (by omega), digits]
      simp only [List.map_cons, storesFrom, storeAll, List.foldl_cons, List.length_cons, digitChar]
      congr 2
      omega
    · have zero : newval = 0 := by omega
      subst zero
      simp [storesFrom, storeAll]

/-- What `itoa` leaves: the numeral, a NUL, and the bytes after it as they were. -/
structure Writes (buf after : Nat → Byte) (text : List Byte) : Prop where
  points : Points after text
  frame : ∀ i, text.length < i → after i = buf i

/-- A text stored with a NUL behind it is a string. -/
theorem writes_store (buf : Nat → Byte) {text : List Byte} (solid : 0 ∉ text) :
    Writes buf (Function.update (storeAll (storesFrom 0 text) buf) text.length 0) text := by
  refine ⟨⟨solid, fun i within => ?_⟩, fun i past => ?_⟩
  · by_cases ends : i = text.length
    · subst ends
      simp [cstr]
    · have inside : i < text.length := by omega
      rw [Function.update_of_ne ends, storeAll_storesFrom, if_pos (Nat.zero_le _)]
      simp [cstr, inside]
  · rw [Function.update_of_ne (by omega), storeAll_storesFrom, if_pos (Nat.zero_le _)]
    simp [Nat.le_of_lt past]

/-- Reversing a string leaves the bytes behind it alone. -/
theorem Writes.strrev {buf after : Nat → Byte} {text : List Byte} (writes : Writes buf after text)
    {bound : Nat} (passed : text.length < bound) :
    Writes buf (SmallOs.strrev after bound) text.reverse := by
  refine ⟨writes.points.strrev passed, fun i past => ?_⟩
  rw [List.length_reverse] at past
  rw [SmallOs.strrev, writes.points.strlen passed, strrevLoop_apply, if_neg (by omega)]
  exact writes.frame i past

/-- `itoa` writes the canonical numeral of a word, and nothing behind it. -/
theorem itoa_writes {value : Nat} (word : value < 2 ^ 32) (radix : Nat) (low : 2 ≤ radix)
    (high : radix ≤ 36) (buf : Nat → Byte) :
    ∃ after, itoa value buf radix = some after ∧ Writes buf after (numeralText radix value) := by
  unfold itoa
  split
  · -- Zero has a numeral of its own.
    rename_i zero
    subst zero
    refine ⟨_, rfl, ⟨⟨solid_numeralText low high, fun i within => ?_⟩, fun i past => ?_⟩⟩
    · have short : i ≤ 1 := within
      interval_cases i <;> rfl
    · have past : 1 < i := past
      rw [Function.update_of_ne (by omega), Function.update_of_ne (by omega)]
  · rename_i positive
    -- The digits are stored from the lowest one on, and then turned around.
    have text : numeralText radix value = ((Nat.digits radix value).map digitChar).reverse := by
      rw [numeralText, numeral, if_neg positive, List.map_reverse]
    have short : (Nat.digits radix value).length ≤ 32 := by
      have canonical := (canonical_numeralText low high word).short
      simpa [text] using canonical
    have solid : 0 ∉ (Nat.digits radix value).map digitChar := by
      have whole : 0 ∉ numeralText radix value := solid_numeralText low high
      simpa [text] using whole
    rw [itoaLoop_eq low _ _ _ _ (by omega), Option.map_some, text]
    refine ⟨_, rfl, ?_⟩
    have stored := writes_store buf solid
    rw [List.length_map] at stored
    rw [Nat.zero_add]
    exact stored.strrev (by rw [List.length_map]; omega)

end Itoa

section Printing

/-- `puts` prints the rest of a string, whatever it is given beyond that. -/
theorem putsFrom_eq {str : Nat → Byte} {text : List Byte} (points : Points str text) (s : Kernel)
    (index rest fuel : Nat) (left : index + rest = text.length) (enough : rest < fuel) :
    putsFrom str s index fuel = some (text.length, putText s (text.drop index)) := by
  -- The induction is on the characters that are not printed yet.
  induction rest generalizing s index fuel with
  | zero =>
    obtain ⟨more, rfl⟩ : ∃ more, fuel = more + 1 := ⟨fuel - 1, by omega⟩
    obtain rfl : index = text.length := by omega
    unfold putsFrom
    rw [if_neg (not_not.mpr points.nul), List.drop_length]
    rfl
  | succ rest ih =>
    obtain ⟨more, rfl⟩ : ∃ more, fuel = more + 1 := ⟨fuel - 1, by omega⟩
    have inside : index < text.length := by omega
    obtain ⟨here, nonzero⟩ := points.ne_zero inside
    unfold putsFrom
    rw [if_pos nonzero, ih _ _ _ (by omega) (by omega), List.drop_eq_getElem_cons inside, here]
    rfl

/-- `puts` prints a string and returns its length. -/
theorem puts_eq {str : Nat → Byte} {text : List Byte} (points : Points str text)
    (fits : text.length < 2 ^ 32) (s : Kernel) :
    puts s str = some (text.length, putText s text) :=
  putsFrom_eq points s 0 text.length (2 ^ 32) (Nat.zero_add _) fits

/-- A conversion prints a text and uses up one argument. -/
def Printing.prints (p : Printing) (text : List Byte) : Printing :=
  { p with kernel := putText p.kernel text, esp := p.esp + 1 }

theorem putsArg_eq {str : Nat → Byte} {text : List Byte} (points : Points str text)
    (fits : text.length < 2 ^ 32) (p : Printing) : p.putsArg str = some (p.prints text) := by
  rw [Printing.putsArg, puts_eq points fits]
  rfl

variable (call : FormatCall) (p : Printing)

/-- An argument is a word. -/
theorem arg_lt : p.arg call < 2 ^ 32 := u32_lt _

/-- A numeral is much shorter than the address space. -/
theorem numeralText_fits {radix value : Nat} (low : 2 ≤ radix) (high : radix ≤ 36)
    (word : value < 2 ^ 32) : (numeralText radix value).length < 2 ^ 32 :=
  (canonical_numeralText low high word).short.trans_lt (by decide)

theorem printUnsigned_eq :
    printUnsigned call p = some (p.prints (numeralText 10 (p.arg call))) := by
  have word := arg_lt call p
  obtain ⟨after, written, writes⟩ := itoa_writes word 10 (by decide) (by decide) call.stack
  rw [printUnsigned, written]
  exact putsArg_eq writes.points (numeralText_fits (by decide) (by decide) word) p

/-- What the `d` conversion prints of a word. -/
def signedText (value : Nat) : List Byte :=
  if toInt32 value < 0 then 0x2D :: numeralText 10 (sub32 0 value) else numeralText 10 value

/-- The negation of a word is a word. -/
theorem sub32_lt (left right : Nat) : sub32 left right < 2 ^ 32 :=
  Nat.mod_lt _ (by decide)

theorem printSigned_eq : printSigned call p = some (p.prints (signedText (p.arg call))) := by
  have word := arg_lt call p
  unfold printSigned signedText
  split
  · -- The numeral of the negation stands behind the sign.
    have negated := sub32_lt 0 (p.arg call)
    obtain ⟨after, written, writes⟩ := itoa_writes negated 10 (by decide) (by decide)
      fun i => call.stack (1 + i)
    have fits : (numeralText 10 (sub32 0 (p.arg call))).length ≤ 32 :=
      (canonical_numeralText (by decide) (by decide) negated).short
    have signed : Points (fun i => if i = 0 then 0x2D else after (i - 1))
        (0x2D :: numeralText 10 (sub32 0 (p.arg call))) := by
      refine ⟨?_, fun i within => ?_⟩
      · rw [List.mem_cons, not_or]
        exact ⟨by decide, writes.points.solid⟩
      · cases i with
        | zero => rfl
        | succ i => exact writes.points.bytes i (by simpa using within)
    rw [written]
    exact putsArg_eq signed (by rw [List.length_cons]; omega) p
  · obtain ⟨after, written, writes⟩ := itoa_writes word 10 (by decide) (by decide) call.stack
    rw [written]
    exact putsArg_eq writes.points (numeralText_fits (by decide) (by decide) word) p

/-- What the `x` conversion prints of a word in its alternate form. -/
def paddedText (value : Nat) : List Byte :=
  List.replicate (8 - (numeralText 16 value).length) 0x30 ++ numeralText 16 value

/-- A word has at most eight hexadecimal digits. -/
theorem numeralText_hex {value : Nat} (word : value < 2 ^ 32) :
    (numeralText 16 value).length ≤ 8 := by
  rw [numeralText, List.length_map]
  exact numeral_length (by decide) (by decide) word

theorem paddedText_length {value : Nat} (word : value < 2 ^ 32) :
    (paddedText value).length = 8 := by
  have short := numeralText_hex word
  rw [paddedText, List.length_append, List.length_replicate]
  omega

theorem printHex_eq (alternate : Bool) : printHex call p alternate =
    some (p.prints (if alternate then paddedText (p.arg call) else numeralText 16 (p.arg call))) := by
  have word := arg_lt call p
  cases alternate with
  | false =>
    obtain ⟨after, written, writes⟩ := itoa_writes word 16 (by decide) (by decide) call.stack
    simp only [printHex, written]
    exact putsArg_eq writes.points (numeralText_fits (by decide) (by decide) word) p
  | true =>
    obtain ⟨after, written, writes⟩ := itoa_writes word 16 (by decide) (by decide)
      fun i => call.stack (8 + i)
    have short := numeralText_hex word
    have length := writes.points.strlen (show (numeralText 16 (p.arg call)).length < 33 by omega)
    -- From the index on stand as many zeros as digits are missing, and then the digits.
    have padded : Points (fun i => (List.range' (strlen after 33) (8 - strlen after 33)).foldl
        (fun convBuf i => Function.update convBuf i 0x30)
        (fun i => if i < 8 then call.stack i else after (i - 8)) (strlen after 33 + i))
        (paddedText (p.arg call)) := by
      rw [length]
      refine ⟨?_, fun i within => ?_⟩
      · rw [paddedText, List.mem_append, not_or]
        exact ⟨by simp, writes.points.solid⟩
      · rw [paddedText_length word] at within
        rw [foldl_fill]
        by_cases zeros : i < 8 - (numeralText 16 (p.arg call)).length
        · rw [if_pos (by omega)]
          simp [cstr, paddedText, List.getElem?_append, zeros]
        · rw [if_neg (by omega), if_neg (by omega), writes.points.bytes _ (by omega)]
          simp only [cstr, paddedText, List.getD_eq_getElem?_getD, List.getElem?_append,
            List.length_replicate, if_neg zeros]
          have place : (numeralText 16 (p.arg call)).length + i - 8 =
              i - (8 - (numeralText 16 (p.arg call)).length) := by omega
          rw [place]
    simp only [printHex, written]
    exact putsArg_eq padded (by rw [paddedText_length word]; decide) p

end Printing

section Decoding

variable {value : Nat}

/-- Eight hexadecimal digits, zeros in front included, denote the word. -/
theorem decode_paddedText (value : Nat) : decode 16 (paddedText value) = some value := by
  -- The zeros are digits too, and do not count.
  have digits : paddedText value = (List.replicate (8 - (numeralText 16 value).length) 0 ++
      numeral 16 value).map digitChar := by
    rw [List.map_append, List.map_replicate]
    rfl
  rw [digits, decode_digits (by decide), readDigits_zeros, readDigits_numeral]
  intro digit there
  rcases List.mem_append.mp there with zero | there
  · rw [List.eq_of_mem_replicate zero]
    decide
  · exact numeral_lt (by decide) there

/-- No numeral starts with a sign. -/
theorem decodeSigned_numeralText (word : value < 2 ^ 32) :
    decodeSigned 10 (numeralText 10 value) = some (value : Int) := by
  have denotes : decode 10 (numeralText 10 value) = some value :=
    (canonical_numeralText (by decide) (by decide) word).denotes
  unfold decodeSigned
  split
  · rename_i signed
    -- The sign is no character of the table.
    have sign : (0x2D : Byte) ∈ numeralText 10 value := List.mem_of_mem_head? signed
    rw [numeralText, List.mem_map] at sign
    obtain ⟨digit, there, written⟩ := sign
    have none : ∀ digit < 10, digitChar digit ≠ 0x2D := by decide
    exact absurd written (none digit (numeral_lt (by decide) there))
  · rw [denotes]
    rfl

/-- What the `d` conversion prints denotes the word as a signed integer. -/
theorem decodeSigned_signedText (word : value < 2 ^ 32) :
    decodeSigned 10 (signedText value) = some (toInt32 value) := by
  have reduced := u32_of_lt word
  unfold signedText
  split
  · rename_i negative
    -- The negation of the smallest integer is the same word, and reads as its absolute value.
    have denotes : decode 10 (numeralText 10 (sub32 0 value)) = some (sub32 0 value) :=
      (canonical_numeralText (by decide) (by decide) (sub32_lt 0 value)).denotes
    have negation : -((sub32 0 value : Nat) : Int) = toInt32 value := by
      unfold toInt32 sub32 at *
      rw [reduced] at *
      split at negative
      · omega
      · rename_i high
        rw [if_neg high]
        omega
    rw [decodeSigned, List.head?_cons, if_pos rfl, List.tail_cons, denotes, Option.map_some,
      negation]
  · rename_i nonneg
    have same : toInt32 value = value := by
      unfold toInt32 at *
      rw [reduced] at *
      split at nonneg
      · rename_i low
        rw [if_pos low]
      · omega
    rw [decodeSigned_numeralText word, same]

end Decoding

/-- At a percent sign the loop goes on behind what the switch has read. -/
theorem printfLoop_percent {call : FormatCall} {p q : Printing} {fuel : Nat}
    (percent : p.char call = 0x25)
    (converted : formatCharSwitch call p.look.next false fuel = some q) :
    printfLoop call p (fuel + 1) = printfLoop call q.next fuel := by
  rw [printfLoop, percent, if_neg (by decide), if_pos rfl, converted]
  rfl

end SmallOs
