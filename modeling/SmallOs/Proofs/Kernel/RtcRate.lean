import SmallOs.Kernel.Syscall

/-! The clock driver accepts the powers of two from two to 1024, and programs the rate of each. -/

namespace SmallOs

open Foundation

/-- The frequencies the driver accepts. -/
def Accepted (frequency : Int) : Prop :=
  ∃ k : Nat, 1 ≤ k ∧ k ≤ 10 ∧ frequency = 2 ^ k

/-- The rate for a power of two is what is missing from its exponent to sixteen. -/
theorem rtcRate_pow {k : Nat} (low : 1 ≤ k) (high : k ≤ 10) : rtcRate (2 ^ k) = some (16 - k) := by
  -- Each of the ten frequencies passes both tests and is in the table.
  have table : ∀ k ≤ 10, 1 ≤ k → rtcRate (2 ^ k) = some (16 - k) := by decide
  exact table k high low

/-- Whatever has a rate is in the table, and so a power of two. -/
theorem accepted_of_rtcRate {frequency rate : Nat} (found : rtcRate frequency = some rate) :
    Accepted frequency := by
  -- The tests before the table only ever refuse, so the entry that was found decides.
  unfold rtcRate at found
  split at found
  · cases found
  · split at found
    · cases found
    · split at found
      · exact ⟨1, by omega, by omega, rfl⟩
      · exact ⟨2, by omega, by omega, rfl⟩
      · exact ⟨3, by omega, by omega, rfl⟩
      · exact ⟨4, by omega, by omega, rfl⟩
      · exact ⟨5, by omega, by omega, rfl⟩
      · exact ⟨6, by omega, by omega, rfl⟩
      · exact ⟨7, by omega, by omega, rfl⟩
      · exact ⟨8, by omega, by omega, rfl⟩
      · exact ⟨9, by omega, by omega, rfl⟩
      · exact ⟨10, by omega, by omega, rfl⟩
      · cases found

/-- A word that reads as a power of two is that power. -/
theorem word_of_toInt32 {value k : Nat} (word : value < 2 ^ 32) (reads : toInt32 value = 2 ^ k) :
    value = 2 ^ k := by
  -- A negative reading is no power of two.
  have positive : 0 < 2 ^ k := Nat.two_pow_pos k
  have same : ((2 ^ k : Nat) : Int) = 2 ^ k := by push_cast; rfl
  unfold toInt32 at reads
  rw [u32_of_lt word] at reads
  split at reads <;> omega

/-- The frequency in a buffer is accepted exactly when it has a rate. -/
theorem rtcRate_none {frequency : Nat} (word : frequency < 2 ^ 32)
    (refused : ¬ Accepted (toInt32 frequency)) : rtcRate frequency = none := by
  -- A frequency with a rate is small, so it reads as itself.
  cases found : rtcRate frequency with
  | none => rfl
  | some rate =>
    obtain ⟨k, low, high, same⟩ := accepted_of_rtcRate found
    have small : 2 ^ k ≤ 2 ^ 10 := Nat.pow_le_pow_right (by decide) high
    have value : frequency = 2 ^ k := by exact_mod_cast same
    exact absurd ⟨k, low, high, (toInt32_of_lt (by omega)).trans same⟩ refused

/-- The byte that is written has the old upper half, and the rate as its lower half. -/
theorem mixedRate (old : Nat) {rate : Nat} (small : rate < 16) :
    ((old &&& 0xF0) ||| rate) / 16 = old / 16 % 16 ∧ ((old &&& 0xF0) ||| rate) % 16 = rate := by
  -- The halves are four bits each.
  have upper : ∀ value : Nat, value / 16 = value >>> 4 := fun value => by
    simp [Nat.shiftRight_eq_div_pow]
  have lower : ∀ value : Nat, value % 16 = value &&& 0xF := fun value =>
    (Nat.and_two_pow_sub_one_eq_mod value 4).symm
  have none : rate >>> 4 = 0 := by rw [← upper]; omega
  constructor
  · rw [upper, upper, lower, Nat.shiftRight_or_distrib, Nat.shiftRight_and_distrib, none]
    simp
  · have kept : rate &&& 0xF = rate := by rw [← lower]; omega
    rw [lower, Nat.and_or_distrib_right, Nat.and_assoc, kept]
    simp

/-- The driver accepts a frequency exactly when it is a power of two from two to 1024. -/
theorem rtcWrite_accepted {s : Kernel} {buf : List Byte} {k : Nat} (low : 1 ≤ k) (high : k ≤ 10)
    (frequency : word32 (cstr buf) 0 = 2 ^ k) : rtcWrite s buf =
      (0, { s with rtcRegisterA := (s.rtcRegisterA &&& 0xF0) ||| (16 - k) }) := by
  rw [rtcWrite, frequency, rtcRate_pow low high]

/--
A write to the clock succeeds exactly for the powers of two from two to 1024.

It then programs the rate of that frequency and keeps the upper half of register A, and otherwise
the state is what it was.
-/
theorem rtcWrite_rate (s : Kernel) (buf : List Byte) :
    ((rtcWrite s buf).1 = 0 ↔ Accepted (toInt32 (word32 (cstr buf) 0))) ∧
      (Accepted (toInt32 (word32 (cstr buf) 0)) → ∃ register r : Nat,
        (rtcWrite s buf).2 = { s with rtcRegisterA := register } ∧
          register / 16 = s.rtcRegisterA / 16 % 16 ∧ register % 16 = r ∧ 6 ≤ r ∧ r ≤ 15 ∧
          ((32768 >>> (r - 1) : Nat) : Int) = toInt32 (word32 (cstr buf) 0)) ∧
      (¬ Accepted (toInt32 (word32 (cstr buf) 0)) → rtcWrite s buf = (-1, s)) := by
  have word := word32_lt (cstr buf) 0
  have refuses : ¬ Accepted (toInt32 (word32 (cstr buf) 0)) → rtcWrite s buf = (-1, s) :=
    fun refused => by rw [rtcWrite, rtcRate_none word refused]
  refine ⟨⟨fun succeeded => ?_, fun accepted => ?_⟩, fun accepted => ?_, refuses⟩
  · -- A refused frequency returns minus one.
    by_contra refused
    rw [refuses refused] at succeeded
    cases succeeded
  · obtain ⟨k, low, high, reads⟩ := accepted
    rw [rtcWrite_accepted low high (word_of_toInt32 word reads)]
  · obtain ⟨k, low, high, reads⟩ := accepted
    have mixed := mixedRate s.rtcRegisterA (show 16 - k < 16 by omega)
    have shifted : ∀ k ≤ 10, 1 ≤ k → 32768 >>> (16 - k - 1) = 2 ^ k := by decide
    rw [rtcWrite_accepted low high (word_of_toInt32 word reads)]
    refine ⟨_, 16 - k, rfl, mixed.1, mixed.2, by omega, by omega, ?_⟩
    rw [reads, shifted k high low]
    push_cast
    rfl

end SmallOs
