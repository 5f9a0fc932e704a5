import Mathlib.Data.List.GetD
import SmallOs.Kernel.CountedStrings

/-! What `strncmp` and `strncpy` compare and store with their machine counters. -/

namespace SmallOs

open Foundation.I386 (Word)

namespace Counted

/-- What stands behind a pointer, by the distance from it. -/
def array {α : Type} (mem : α → Byte) (p : Word → α) : Nat → Byte :=
  fun k => mem (p (BitVec.ofNat 32 k))

/-- Below the bound a counter of less than 31 bits is incremented. -/
theorem increment_ofNat {k n : Nat} (below : k < n) (small : n < 2 ^ 31) :
    increment (BitVec.ofNat 32 k) = some (BitVec.ofNat 32 (k + 1)) := by
  have room : BitVec.ofNat 32 k ≠ 0x7FFFFFFF := by bv_omega
  rw [increment, if_neg room, BitVec.ofNat_add]
  rfl

/-- A counter that has not wrapped is compared with the bound as the number it stands for. -/
theorem ofNat_lt_iff {k : Nat} {n : Word} (small : k < 2 ^ 32) :
    BitVec.ofNat 32 k < n ↔ k < n.toNat := by
  bv_omega

/-- While bytes remain the counter is below the bound. -/
theorem counter_goes {k remaining : Nat} {n : Word} (small : n.toNat < 2 ^ 31)
    (sum : k + (remaining + 1) = n.toNat) : BitVec.ofNat 32 k < n :=
  (ofNat_lt_iff (by omega)).mpr (by omega)

/-- When none remain the counter has reached the bound. -/
theorem counter_stops {k : Nat} {n : Word} (small : n.toNat < 2 ^ 31) (sum : k + 0 = n.toNat) :
    ¬ BitVec.ofNat 32 k < n := by
  rw [ofNat_lt_iff (by omega)]
  omega

section Compare

variable {α : Type} {mem : α → Byte} {s1 s2 : Word → α} {n : Word}

/-- The loop with a machine counter is the loop over the bytes that remain. -/
theorem strncmpLoop_eq (small : n.toNat < 2 ^ 31) {k remaining : Nat}
    (sum : k + remaining = n.toNat) :
    strncmpLoop mem s1 s2 n (BitVec.ofNat 32 k) (remaining + 1) =
      some (strncmpFrom (array mem s1) (array mem s2) k remaining) := by
  -- The counter goes up as the number of remaining bytes goes down.
  induction remaining generalizing k with
  | zero =>
    rw [strncmpLoop, if_neg (counter_stops small sum), strncmpFrom]
  | succ remaining ih =>
    rw [strncmpLoop, if_pos (counter_goes small sum), strncmpFrom,
      increment_ofNat (by omega) small, Option.bind_some, ih (by omega)]
    exact (apply_ite some _ _ _).symm

/-- `strncmp` computes what the file system's comparison does. -/
theorem strncmp_eq (mem : α → Byte) (s1 s2 : Word → α) (small : n.toNat < 2 ^ 31) :
    strncmp mem s1 s2 n = some (SmallOs.strncmp (array mem s1) (array mem s2) n.toNat) :=
  strncmpLoop_eq small (Nat.zero_add _)

end Compare

section Copy

variable {α : Type} [DecidableEq α] {mem : α → Byte} {dest src : Word → α} {n : Word}

/-- Store bytes one after the other behind a pointer. -/
def storeBytes (dest : Word → α) (mem : α → Byte) (k : Nat) : List Byte → α → Byte
  | [] => mem
  | b :: bytes =>
    storeBytes dest (Function.update mem (dest (BitVec.ofNat 32 k)) b) (k + 1) bytes

/-- The second loop of `strncpy` pads with NULs up to the bound. -/
theorem strncpyPad_eq (small : n.toNat < 2 ^ 31) {k remaining fuel : Nat}
    (sum : k + remaining = n.toNat) (enough : remaining < fuel) :
    strncpyPad dest n mem (BitVec.ofNat 32 k) fuel =
      some (storeBytes dest mem k (List.replicate remaining 0)) := by
  -- The counter goes up as the number of remaining bytes goes down.
  induction remaining generalizing mem k fuel with
  | zero =>
    obtain ⟨fuel, rfl⟩ : ∃ less, fuel = less + 1 := ⟨fuel - 1, by omega⟩
    rw [strncpyPad, if_neg (counter_stops small sum)]
    rfl
  | succ remaining ih =>
    obtain ⟨fuel, rfl⟩ : ∃ less, fuel = less + 1 := ⟨fuel - 1, by omega⟩
    rw [strncpyPad, if_pos (counter_goes small sum), increment_ofNat (by omega) small]
    exact ih (by omega) (by omega)

/-- A string of which no byte is overwritten before it is read is copied and padded. -/
theorem strncpyCopy_eq (mem : α → Byte) (small : n.toNat < 2 ^ 31) {text : Nat → Byte}
    {k remaining : Nat} (sum : k + remaining = n.toNat)
    (holds : ∀ j, k ≤ j → j < n.toNat → array mem src j = text j)
    (ahead : ∀ i j, i < j → j < n.toNat →
      dest (BitVec.ofNat 32 i) ≠ src (BitVec.ofNat 32 j)) :
    ((strncpyCopy dest src n mem (BitVec.ofNat 32 k) (remaining + 1)).bind fun copied =>
      strncpyPad dest n copied.1 copied.2 (n.toNat + 1)) =
        some (storeBytes dest mem k (strncpyFrom text k remaining)) := by
  induction remaining generalizing mem k with
  | zero =>
    -- The byte behind the bound is read, and whatever it is the bound stops the loop.
    have stops : ¬ (mem (src (BitVec.ofNat 32 k)) ≠ 0 ∧ BitVec.ofNat 32 k < n) :=
      fun both => counter_stops small sum both.2
    rw [strncpyCopy, if_neg stops, Option.bind_some, strncpyPad_eq small sum (by omega)]
    rfl
  | succ remaining ih =>
    have here : mem (src (BitVec.ofNat 32 k)) = text k := holds k le_rfl (by omega)
    rw [strncpyCopy, here, strncpyFrom]
    by_cases ends : text k = 0
    · have stops : ¬ (text k ≠ 0 ∧ BitVec.ofNat 32 k < n) := fun both => both.1 ends
      rw [if_neg stops, if_neg (not_not.mpr ends), Option.bind_some]
      exact strncpyPad_eq small sum (by omega)
    · rw [if_pos ⟨ends, counter_goes small sum⟩, if_pos ends, increment_ofNat (by omega) small]
      refine ih _ (by omega) fun j above below => ?_
      have apart := ahead k j (by omega) below
      rw [← holds j (by omega) below]
      exact Function.update_of_ne apart.symm _ _

/-- What lies outside keeps its byte. -/
theorem storeBytes_other {k : Nat} {bytes : List Byte} {x : α}
    (outside : ∀ i, k ≤ i → i < k + bytes.length → dest (BitVec.ofNat 32 i) ≠ x) :
    storeBytes dest mem k bytes x = mem x := by
  induction bytes generalizing mem k with
  | nil => rfl
  | cons b bytes ih =>
    simp only [List.length_cons] at outside
    rw [storeBytes, ih fun i above below => outside i (by omega) (by omega)]
    exact Function.update_of_ne (outside k le_rfl (by omega)).symm _ _

/-- Each byte stands at its distance, where the addresses are different. -/
theorem storeBytes_get {k i : Nat} {bytes : List Byte}
    (distinct : ∀ i j, i < j → j < k + bytes.length →
      dest (BitVec.ofNat 32 i) ≠ dest (BitVec.ofNat 32 j)) (inside : i < bytes.length) :
    storeBytes dest mem k bytes (dest (BitVec.ofNat 32 (k + i))) = bytes.getD i 0 := by
  induction bytes generalizing mem k i with
  | nil => nomatch inside
  | cons b bytes ih =>
    simp only [List.length_cons] at distinct inside
    rw [storeBytes]
    cases i with
    | zero =>
      -- The bytes that are stored after the first one go to other addresses.
      have later : ∀ j, k + 1 ≤ j → j < k + 1 + bytes.length →
          dest (BitVec.ofNat 32 j) ≠ dest (BitVec.ofNat 32 k) :=
        fun j above below => (distinct k j (by omega) (by omega)).symm
      exact (storeBytes_other later).trans (Function.update_self _ _ _)
    | succ i =>
      rw [List.getD_cons_succ, show k + (i + 1) = k + 1 + i by omega]
      exact ih (fun i j less below => distinct i j less (by omega)) (by omega)

end Copy

/-- Padding a text with NULs changes no byte that is looked up with NUL as the default. -/
theorem strncpy_getD (s : Nat → Byte) (n k : Nat) :
    (SmallOs.strncpy s n).getD k 0 = (textFrom s 0 n).getD k 0 := by
  rw [SmallOs.strncpy, strncpyFrom_eq]
  by_cases inside : k < (textFrom s 0 n).length
  · rw [List.getD_append _ _ _ _ inside]
  · rw [List.getD_append_right _ _ _ _ (by omega), List.getD_eq_getElem?_getD,
      List.getElem?_getD_replicate_default_eq, List.getD_eq_default _ _ (by omega)]

/-- A text depends on the bytes that are looked at. -/
theorem textFrom_congr {s t : Nat → Byte} {n : Nat} (same : ∀ k < n, s k = t k) :
    textFrom s 0 n = textFrom t 0 n := by
  have bytes : (List.range' 0 n).map s = (List.range' 0 n).map t := by
    refine List.map_congr_left fun k inside => same k ?_
    have below := (List.mem_range'_1.mp inside).2
    omega
  rw [textFrom, textFrom, bytes]

/-- Two arrays of one length, of which no cell is in both and the first has each cell once. -/
structure Separate {α : Type} (dest src : Word → α) (n : Word) : Prop where
  distinct : ∀ i j, i < j → j < n.toNat → dest (BitVec.ofNat 32 i) ≠ dest (BitVec.ofNat 32 j)
  apart : ∀ i < n.toNat, ∀ j < n.toNat, dest (BitVec.ofNat 32 i) ≠ src (BitVec.ofNat 32 j)

/-- A memory after so many bytes of a string were copied to another array, and padded. -/
structure Padded {α : Type} (mem after : α → Byte) (dest src : Word → α) (n : Word) : Prop where
  bytes : ∀ k < n.toNat, array after dest k = (textFrom (array mem src) 0 n.toNat).getD k 0
  others : ∀ x, (∀ k < n.toNat, dest (BitVec.ofNat 32 k) ≠ x) → after x = mem x

/-- A padded copy compares equal to its original. -/
theorem Padded.compares {α : Type} {mem after : α → Byte} {dest src : Word → α} {n : Word}
    (padded : Padded mem after dest src n) (separate : Separate dest src n)
    (small : n.toNat < 2 ^ 31) : strncmp after dest src n = some 0 := by
  -- The original is not stored to, so both texts are what it was before.
  have original : textFrom (array after src) 0 n.toNat = textFrom (array mem src) 0 n.toNat :=
    textFrom_congr fun j below => padded.others _ fun i inside => separate.apart i inside j below
  have copy : textFrom (array after dest) 0 n.toNat = textFrom (array mem src) 0 n.toNat := by
    refine textFrom_of_copy fun k inside => ?_
    rw [strncpy_getD]
    exact padded.bytes k inside
  have equal : SmallOs.strncmp (array after dest) (array after src) n.toNat = 0 :=
    (strncmpFrom_eq_zero _ _ 0 _).mpr (copy.trans original.symm)
  rw [strncmp_eq after dest src small, equal]

/-- `strncpy` between separate arrays stores the text and its padding, and nothing else. -/
theorem strncpy_separate {α : Type} [DecidableEq α] (mem : α → Byte) {dest src : Word → α}
    {n : Word} (separate : Separate dest src n) (small : n.toNat < 2 ^ 31) :
    ∃ after, strncpy mem dest src n = some after ∧ Padded mem after dest src n ∧
      strncmp after dest src n = some 0 := by
  have ran := strncpyCopy_eq mem small (Nat.zero_add _) (fun _ _ _ => rfl)
    fun i j less below => separate.apart i (by omega) j below
  have length := strncpyFrom_length (array mem src) 0 n.toNat
  have padded : Padded mem (storeBytes dest mem 0 (strncpyFrom (array mem src) 0 n.toNat)) dest src
      n := by
    refine ⟨fun k inside => ?_, fun x outside => ?_⟩
    · have stored : storeBytes dest mem 0 (strncpyFrom (array mem src) 0 n.toNat)
          (dest (BitVec.ofNat 32 (0 + k))) = (strncpyFrom (array mem src) 0 n.toNat).getD k 0 :=
        storeBytes_get (fun i j less below => separate.distinct i j less (by omega)) (by omega)
      rw [Nat.zero_add] at stored
      exact stored.trans (strncpy_getD (array mem src) n.toNat k)
    · exact storeBytes_other fun i _ below => outside i (by omega)
  exact ⟨_, ran, padded, padded.compares separate small⟩

/-- In one memory it does so when every byte of the source is at a distance of `n` or more. -/
theorem strncpy_flat (mem : Word → Byte) {d s n : Word} (small : n.toNat < 2 ^ 31)
    (apart : ∀ j < n.toNat, n.toNat ≤ (s + BitVec.ofNat 32 j - d).toNat) :
    ∃ after, strncpy mem (d + ·) (s + ·) n = some after ∧ Padded mem after (d + ·) (s + ·) n ∧
      strncmp after (d + ·) (s + ·) n = some 0 := by
  refine strncpy_separate mem ⟨fun i j less below same => ?_, fun i inside j below same => ?_⟩ small
  · bv_omega
  · have away := apart j below
    rw [← same] at away
    bv_omega

/-- Two arrays of their own are separate. -/
theorem separate_arrays (n : Word) : Separate (Sum.inl : Word → Word ⊕ Word) Sum.inr n where
  distinct i j less below := by
    intro same
    have same := Sum.inl.inj same
    bv_omega
  apart i _ j _ := Sum.inl_ne_inr

end Counted

open Counted

/-- A string cut at its first NUL and at a number of bytes. -/
def cut (s : Word → Byte) (n : Word) : List Byte :=
  textFrom (fun k => s (BitVec.ofNat 32 k)) 0 n.toNat

/--
`strncmp` compares two cut strings, and `strncpy` writes one with its padding and nothing else.

The strings compared may be anywhere, and those of the copy are two arrays. Afterwards they compare
equal, whatever stands behind the bound.
-/
theorem string_primitives (n : Word) (small : n.toNat < 2 ^ 31) :
    (∀ (α : Type) (mem : α → Byte) (s1 s2 : Word → α), ∃ result,
      Counted.strncmp mem s1 s2 n = some result ∧
        (result = 0 ↔ cut (fun i => mem (s1 i)) n = cut (fun i => mem (s2 i)) n)) ∧
      ∀ d s : Word → Byte, ∃ after,
        Counted.strncpy (Sum.elim d s) Sum.inl Sum.inr n = some (Sum.elim after s) ∧
          (∀ i, after i = if i < n then (cut s n).getD i.toNat 0 else d i) ∧
          Counted.strncmp (Sum.elim after s) Sum.inl Sum.inr n = some 0 := by
  refine ⟨fun α mem s1 s2 => ⟨_, strncmp_eq mem s1 s2 small, strncmpFrom_eq_zero _ _ 0 _⟩,
    fun d s => ?_⟩
  obtain ⟨after, ran, padded, compares⟩ :=
    strncpy_separate (Sum.elim d s) (separate_arrays n) small
  have shape : after = Sum.elim (fun i => after (Sum.inl i)) s := by
    funext x
    cases x with
    | inl i => rfl
    | inr i => exact padded.others _ fun k inside => Sum.inl_ne_inr
  refine ⟨fun i => after (Sum.inl i), ?_, fun i => ?_, ?_⟩
  · rw [← shape]
    exact ran
  · split
    next inside =>
      have here := padded.bytes i.toNat inside
      rw [array, BitVec.ofNat_toNat, BitVec.setWidth_eq] at here
      exact here
    next outside =>
      -- A cell that is stored to has a number below the bound.
      refine padded.others _ fun k inside same => outside ?_
      rw [← Sum.inl.inj same, ofNat_lt_iff (by omega)]
      exact inside
  · rw [← shape]
    exact compares

/-- A name that fills its field has no NUL there, and compares equal to its copy all the same. -/
theorem string_primitives_sample : ∃ after,
    Counted.strncpy (Sum.elim (fun _ => 0) fun _ => 0x61) Sum.inl Sum.inr 32 =
        some (Sum.elim after fun _ => 0x61) ∧
      (∀ i, after i = if i < 32 then (cut (fun _ => 0x61) 32).getD i.toNat 0 else 0) ∧
      Counted.strncmp (Sum.elim after fun _ => 0x61) Sum.inl Sum.inr 32 = some 0 :=
  (string_primitives 32 (by decide)).2 (fun _ => 0) fun _ => 0x61

end SmallOs
