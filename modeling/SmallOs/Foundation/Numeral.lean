import Mathlib.Data.Nat.Digits.Lemmas

/-! Positional numerals: the digits of a number from the most significant down, and how they read back. -/

namespace Foundation

/-- The digits of a number, most significant first, where zero has one digit. -/
def numeral (radix value : Nat) : List Nat :=
  if value = 0 then [0] else (Nat.digits radix value).reverse

/-- The number that digits denote, most significant first. -/
def readDigits (radix : Nat) (digits : List Nat) : Nat :=
  digits.foldl (fun value digit => radix * value + digit) 0

section Numeral

variable {radix value : Nat}

/-- Digits read from the left are the digits of the library read from the right. -/
theorem readDigits_reverse (radix : Nat) (digits : List Nat) :
    readDigits radix digits.reverse = Nat.ofDigits radix digits := by
  -- Reading a reversed list from the left is reading the list from the right.
  rw [readDigits, List.foldl_reverse]
  induction digits with
  | nil => rfl
  | cons digit digits ih =>
    rw [List.foldr_cons, ih, Nat.ofDigits_cons, Nat.add_comm]

/-- A numeral reads back as its number. -/
theorem readDigits_numeral (radix value : Nat) : readDigits radix (numeral radix value) = value := by
  unfold numeral
  split
  · rename_i zero
    simp [readDigits, zero]
  · rw [readDigits_reverse, Nat.ofDigits_digits]

/-- Leading zeros do not count. -/
theorem readDigits_zeros (radix count : Nat) (digits : List Nat) :
    readDigits radix (List.replicate count 0 ++ digits) = readDigits radix digits := by
  induction count with
  | zero => rfl
  | succ count ih =>
    rw [List.replicate_succ, List.cons_append]
    exact ih

/-- Every digit is below the radix. -/
theorem numeral_lt (large : 2 ≤ radix) {digit : Nat} (there : digit ∈ numeral radix value) :
    digit < radix := by
  unfold numeral at there
  split at there
  · obtain rfl : digit = 0 := by simpa using there
    omega
  · exact Nat.digits_lt_base (by omega) (List.mem_reverse.mp there)

/-- Only zero starts with a zero. -/
theorem numeral_head (leading : (numeral radix value).head? = some 0) : value = 0 := by
  -- The most significant digit of a positive number is the last one of the library's.
  by_contra positive
  rw [numeral, if_neg positive, List.head?_reverse] at leading
  have nonempty : Nat.digits radix value ≠ [] := Nat.digits_ne_nil_iff_ne_zero.mpr positive
  rw [List.getLast?_eq_some_getLast nonempty, Option.some.injEq] at leading
  exact Nat.getLast_digit_ne_zero radix positive leading

/-- A number below a power of the radix has at most that many digits. -/
theorem numeral_length {count : Nat} (large : 2 ≤ radix) (positive : 0 < count)
    (small : value < radix ^ count) : (numeral radix value).length ≤ count := by
  unfold numeral
  split
  · exact positive
  · rw [List.length_reverse]
    exact (Nat.digits_length_le_iff (by omega) value).mpr small

theorem numeral_ne_nil (radix value : Nat) : numeral radix value ≠ [] := by
  unfold numeral
  split
  · simp
  · rename_i positive
    rw [ne_eq, List.reverse_eq_nil_iff]
    exact Nat.digits_ne_nil_iff_ne_zero.mpr positive

end Numeral

end Foundation
