import Mathlib.Tactic.NormNum

/-! Thirty-two bit machine words: wrapping arithmetic, signed readings, and little-endian bytes. -/

namespace Foundation

/-- Reduce a number to the word that holds its low thirty-two bits. -/
def u32 (value : Nat) : Nat :=
  value % 2 ^ 32

/-- Subtract two words, borrowing past zero. -/
def sub32 (left right : Nat) : Nat :=
  -- The subtrahend is reduced first, so the borrow is at most one whole word.
  (left + (2 ^ 32 - right % 2 ^ 32)) % 2 ^ 32

/-- Read a word as a two's-complement signed integer. -/
def toInt32 (value : Nat) : Int :=
  if u32 value < 2 ^ 31 then (u32 value : Int) else (u32 value : Int) - 2 ^ 32

/-- The word that holds a signed integer. -/
def ofInt32 (value : Int) : Nat :=
  (value % 2 ^ 32).toNat

/-- Read four consecutive bytes as one little-endian word. -/
def word32 (bytes : Nat → UInt8) (address : Nat) : Nat :=
  -- The weights nest, so that no byte is multiplied by a large power.
  (bytes address).toNat + 256 * ((bytes (address + 1)).toNat +
    256 * ((bytes (address + 2)).toNat + 256 * (bytes (address + 3)).toNat))

/-- The bytes of a word, lowest first. -/
def wordBytes (value : Nat) : List UInt8 :=
  [UInt8.ofNat value, UInt8.ofNat (value / 2 ^ 8), UInt8.ofNat (value / 2 ^ 16),
    UInt8.ofNat (value / 2 ^ 24)]

/-- A word is below two to the thirty-two. -/
theorem u32_lt (value : Nat) : u32 value < 2 ^ 32 :=
  Nat.mod_lt _ (by norm_num)

/-- Numbers that fit a word are unchanged by the reduction. -/
theorem u32_of_lt {value : Nat} (fits : value < 2 ^ 32) : u32 value = value :=
  Nat.mod_eq_of_lt fits

/-- A subtraction that does not borrow is the subtraction of naturals. -/
theorem sub32_of_le {left right : Nat} (fits : left < 2 ^ 32) (le : right ≤ left) :
    sub32 left right = left - right := by
  -- The borrow adds a whole word, which the reduction takes off again.
  unfold sub32
  omega

/-- Four bytes never make more than a word. -/
theorem word32_lt (bytes : Nat → UInt8) (address : Nat) : word32 bytes address < 2 ^ 32 := by
  -- Each byte is below 256, so the weighted sum stays below the next weight.
  have first := (bytes address).toNat_lt
  have second := (bytes (address + 1)).toNat_lt
  have third := (bytes (address + 2)).toNat_lt
  have fourth := (bytes (address + 3)).toNat_lt
  unfold word32
  omega

/-- Small words read the same signed and unsigned. -/
theorem toInt32_of_lt {value : Nat} (small : value < 2 ^ 31) : toInt32 value = value := by
  -- The sign bit of a small word is clear.
  unfold toInt32 u32
  rw [if_pos (by omega)]
  omega

/-- A nonnegative integer that fits a word is stored as itself. -/
theorem ofInt32_of_nonneg {value : Int} (nonneg : 0 ≤ value) (fits : value < 2 ^ 32) :
    (ofInt32 value : Int) = value := by
  -- The reduction has no effect on a number that fits.
  unfold ofInt32
  omega

/-- A nonnegative integer that fits a word is stored as a natural number. -/
theorem ofInt32_eq_toNat {value : Int} (nonneg : 0 ≤ value) (fits : value < 2 ^ 32) :
    ofInt32 value = value.toNat := by
  have word := ofInt32_of_nonneg nonneg fits
  omega

/-- The integers a signed word can hold. -/
def IsInt32 (value : Int) : Prop :=
  -2 ^ 31 ≤ value ∧ value < 2 ^ 31

instance (value : Int) : Decidable (IsInt32 value) :=
  inferInstanceAs (Decidable (_ ∧ _))

/-- A word always reads as an integer of its range. -/
theorem isInt32_toInt32 (value : Nat) : IsInt32 (toInt32 value) := by
  have word := u32_lt value
  unfold toInt32 IsInt32
  split <;> omega

/-- A signed integer that is stored in a word is read back. -/
theorem toInt32_ofInt32 {value : Int} (fits : IsInt32 value) : toInt32 (ofInt32 value) = value := by
  -- A negative integer is stored two to the thirty-two further up.
  obtain ⟨low, high⟩ := fits
  unfold toInt32 ofInt32 u32
  split <;> omega

end Foundation
