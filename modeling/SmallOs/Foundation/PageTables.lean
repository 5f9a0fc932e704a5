import Mathlib.Data.Nat.Bitwise

/-! Two-level address translation of the i386, for pages of four kilobytes and of four megabytes. -/

namespace Foundation.I386

/-- What a virtual page is translated to, with the rights both levels grant. -/
structure Translation where
  /-- The physical frame, counted in pages of four kilobytes. -/
  frame : Nat
  user : Bool
  write : Bool
  deriving DecidableEq, Repr

/-- The present bit of an entry. -/
def present (entry : Nat) : Bool := entry.testBit 0

/-- The bit of an entry that grants writes. -/
def writable (entry : Nat) : Bool := entry.testBit 1

/-- The bit of an entry that lets user programs in. -/
def userLevel (entry : Nat) : Bool := entry.testBit 2

/-- The bit of a directory entry that maps four megabytes at once. -/
def large (entry : Nat) : Bool := entry.testBit 7

/-- The translation of a virtual page, where `none` means that an access faults. -/
def translate (directory : Nat → Nat) (tables : Nat → Nat → Nat) (page : Nat) :
    Option Translation :=
  let pde := directory (page / 1024)
  if present pde then
    if large pde then some ⟨1024 * (pde / 0x400000) + page % 1024, userLevel pde, writable pde⟩
    else
      -- The entry holds the address of a table of 1024 entries.
      let pte := tables (0x1000 * (pde / 0x1000)) (page % 1024)
      if present pte then
        some ⟨pte / 0x1000, userLevel pde && userLevel pte, writable pde && writable pte⟩
      else none
  else none

section Translate

variable {directory : Nat → Nat} {tables : Nat → Nat → Nat} {page : Nat}

/-- A page of a directory entry that names a table is translated by the table. -/
theorem translate_table (here : present (directory (page / 1024)) = true)
    (small : large (directory (page / 1024)) = false) :
    translate directory tables page =
      if present (tables (0x1000 * (directory (page / 1024) / 0x1000)) (page % 1024)) then
        some ⟨tables (0x1000 * (directory (page / 1024) / 0x1000)) (page % 1024) / 0x1000,
          userLevel (directory (page / 1024)) &&
            userLevel (tables (0x1000 * (directory (page / 1024) / 0x1000)) (page % 1024)),
          writable (directory (page / 1024)) &&
            writable (tables (0x1000 * (directory (page / 1024) / 0x1000)) (page % 1024))⟩
      else none := by
  simp [translate, here, small]

end Translate

section Entries

variable {address flags : Nat}

/-- The low bits of an entry are its flags. -/
theorem testBit_entry (aligned : 0x1000 ∣ address) {i : Nat} (low : i < 12) :
    (address ||| flags).testBit i = flags.testBit i := by
  -- A multiple of the page size has none of the low bits.
  obtain ⟨k, rfl⟩ := aligned
  have clear : (2 ^ 12 * k).testBit i = false := by
    rw [Nat.testBit_two_pow_mul]
    simp only [Bool.and_eq_false_imp, decide_eq_true_eq]
    omega
  rw [Nat.testBit_or]
  change ((2 ^ 12 * k).testBit i || flags.testBit i) = flags.testBit i
  rw [clear, Bool.false_or]

/-- The high bits of an entry are the frame it holds. -/
theorem entry_div (small : flags < 0x1000) : (address ||| flags) / 0x1000 = address / 0x1000 := by
  have shifted : ∀ value : Nat, value / 0x1000 = value >>> 12 := fun value => by
    simp [Nat.shiftRight_eq_div_pow]
  have none : flags >>> 12 = 0 := by
    rw [← shifted]
    omega
  rw [shifted, shifted, Nat.shiftRight_or_distrib, none, Nat.or_zero]

/-- An entry leads back to the address it was made from. -/
theorem entry_address (aligned : 0x1000 ∣ address) (small : flags < 0x1000) :
    0x1000 * ((address ||| flags) / 0x1000) = address := by
  rw [entry_div small]
  exact Nat.mul_div_cancel' aligned

end Entries

end Foundation.I386
