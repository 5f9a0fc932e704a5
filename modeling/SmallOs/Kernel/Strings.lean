import Mathlib.Data.List.TakeWhile
import SmallOs.Kernel.State

/-! The bounded string functions of `lib.c`, over pointers read as functions from offsets to bytes. -/

namespace SmallOs

/-- The bytes of a text of ASCII characters. -/
def ascii (text : List Char) : List Byte :=
  text.map fun c => UInt8.ofNat c.toNat

/-- The memory behind a pointer to a string: its characters, then a terminating NUL. -/
def cstr (text : List Byte) : Nat → Byte :=
  fun i => text.getD i 0

/-- A `char` as a signed integer. -/
def charValue (c : Byte) : Int :=
  -- The compiler's `char` has a sign.
  if c.toNat < 128 then c.toNat else (c.toNat : Int) - 256

/-- The loop of `strncmp` from offset `i` on, with the number of bytes still to compare. -/
def strncmpFrom (s1 s2 : Nat → Byte) (i : Nat) : Nat → Int
  | 0 => 0
  | remaining + 1 =>
    -- Equal bytes need only one of the two tested against NUL.
    if s1 i ≠ s2 i ∨ s1 i = 0 then charValue (s1 i) - charValue (s2 i)
    else strncmpFrom s1 s2 (i + 1) remaining

/-- `strncmp`. -/
def strncmp (s1 s2 : Nat → Byte) (n : Nat) : Int :=
  strncmpFrom s1 s2 0 n

/-- The two loops of `strncpy` from offset `i` on, as the bytes they store. -/
def strncpyFrom (src : Nat → Byte) (i : Nat) : Nat → List Byte
  | 0 => []
  | remaining + 1 =>
    -- The second loop pads whatever the first one left.
    if src i ≠ 0 then src i :: strncpyFrom src (i + 1) remaining
    else List.replicate (remaining + 1) 0

/-- `strncpy`, as the bytes it stores from the start of the destination on. -/
def strncpy (src : Nat → Byte) (n : Nat) : List Byte :=
  strncpyFrom src 0 n

/-- The loop of `strlen` from offset `i` on, followed for at most `bound` bytes. -/
def strlenFrom (s : Nat → Byte) (i : Nat) : Nat → Nat
  | 0 => i
  | bound + 1 => if s i ≠ 0 then strlenFrom s (i + 1) bound else i

/-- `strlen` of a string known to end, or cut, within `bound` bytes. -/
def strlen (s : Nat → Byte) (bound : Nat) : Nat :=
  strlenFrom s 0 bound

/-- The text at offset `i`: the bytes before the first NUL, and at most `n` of them. -/
def textFrom (s : Nat → Byte) (i n : Nat) : List Byte :=
  ((List.range' i n).map s).takeWhile (· ≠ 0)

theorem textFrom_succ (s : Nat → Byte) (i n : Nat) :
    textFrom s i (n + 1) = if s i ≠ 0 then s i :: textFrom s (i + 1) n else [] := by
  simp only [textFrom, List.range'_succ, List.map_cons, List.takeWhile_cons, decide_eq_true_eq]

theorem textFrom_length_le (s : Nat → Byte) (i n : Nat) : (textFrom s i n).length ≤ n := by
  -- The text is a part of the bytes that are looked at.
  have shorter := (List.takeWhile_sublist (l := (List.range' i n).map s) (· ≠ 0)).length_le
  simpa [textFrom] using shorter

/-- Two characters differ by nothing exactly when they are the same. -/
theorem charValue_sub_eq_zero {a b : Byte} : charValue a - charValue b = 0 ↔ a = b := by
  constructor
  · -- Signed or not, each value belongs to one byte.
    intro same
    have left := a.toNat_lt
    have right := b.toNat_lt
    refine UInt8.toNat_inj.mp ?_
    unfold charValue at same
    split at same <;> split at same <;> omega
  · rintro rfl
    exact Int.sub_self _

/-- A bounded comparison finds nothing exactly when the two texts are equal. -/
theorem strncmpFrom_eq_zero (s1 s2 : Nat → Byte) (i n : Nat) :
    strncmpFrom s1 s2 i n = 0 ↔ textFrom s1 i n = textFrom s2 i n := by
  -- The induction follows the loop, which stops at a difference or at a common NUL.
  induction n generalizing i with
  | zero => exact iff_of_true rfl rfl
  | succ n ih =>
    rw [textFrom_succ, textFrom_succ]
    unfold strncmpFrom
    by_cases same : s1 i = s2 i
    · by_cases ends : s1 i = 0
      · have both : s2 i = 0 := same ▸ ends
        rw [if_pos (.inr ends), charValue_sub_eq_zero, if_neg (not_not.mpr ends),
          if_neg (not_not.mpr both)]
        exact iff_of_true same rfl
      · have both : s2 i ≠ 0 := same ▸ ends
        rw [if_neg (by simp [same, both]), if_pos ends, if_pos both, same, List.cons.injEq, ih]
        exact ⟨fun rest => ⟨rfl, rest⟩, And.right⟩
    · rw [if_pos (.inl same), charValue_sub_eq_zero]
      refine iff_of_false same fun texts => ?_
      -- Different bytes start different texts, and so do a byte and the end.
      by_cases left : s1 i = 0 <;> by_cases right : s2 i = 0 <;> simp_all

/-- The text behind a pointer to a string is that string, cut at the bound. -/
theorem textFrom_cstr {text : List Byte} (ended : 0 ∉ text) (i n : Nat) :
    textFrom (cstr text) i n = (text.drop i).take n := by
  -- The induction moves along the string, which may be shorter than the bound.
  induction n generalizing i with
  | zero => simp [textFrom]
  | succ n ih =>
    rw [textFrom_succ, ih]
    by_cases inside : i < text.length
    · -- A character of the string is no NUL.
      have here : cstr text i = text[i] := by
        simp [cstr, List.getD_eq_getElem?_getD, inside]
      have nonzero : text[i] ≠ 0 := fun zero => ended (zero ▸ List.getElem_mem inside)
      rw [here, if_pos nonzero, List.drop_eq_getElem_cons inside, List.take_succ_cons]
    · have past : cstr text i = 0 := by
        simp [cstr, List.getD_eq_getElem?_getD, Nat.le_of_not_lt inside]
      rw [past, if_neg (not_not.mpr rfl), List.drop_eq_nil_of_le (Nat.le_of_not_lt inside),
        List.take_nil]

/-- A bounded copy stores the text, and pads it with NULs. -/
theorem strncpyFrom_eq (s : Nat → Byte) (i n : Nat) :
    strncpyFrom s i n = textFrom s i n ++ List.replicate (n - (textFrom s i n).length) 0 := by
  -- The text ends where the copying loop hands over to the padding one.
  induction n generalizing i with
  | zero => simp [strncpyFrom, textFrom]
  | succ n ih =>
    rw [textFrom_succ]
    unfold strncpyFrom
    split
    · simp [ih]
    · simp

/-- A bounded length is that of the text. -/
theorem strlenFrom_eq_length (s : Nat → Byte) (i n : Nat) :
    strlenFrom s i n = i + (textFrom s i n).length := by
  -- The scan counts the bytes of the text one by one.
  induction n generalizing i with
  | zero => simp [strlenFrom, textFrom]
  | succ n ih =>
    rw [textFrom_succ]
    unfold strlenFrom
    split
    · rw [ih, List.length_cons]
      omega
    · simp

/-- The text is nowhere NUL, and its bytes are those of the memory. -/
theorem textFrom_get (s : Nat → Byte) (i n : Nat) {k : Nat} (inside : k < (textFrom s i n).length) :
    (textFrom s i n)[k]? = some (s (i + k)) ∧ s (i + k) ≠ 0 := by
  induction n generalizing i k with
  | zero => simp [textFrom] at inside
  | succ n ih =>
    rw [textFrom_succ] at inside ⊢
    split at inside
    · rename_i nonzero
      rw [if_pos nonzero]
      -- The first byte is at the offset itself, and the others are one further on.
      cases k with
      | zero => exact ⟨rfl, nonzero⟩
      | succ k =>
        rw [List.getElem?_cons_succ, show i + (k + 1) = i + 1 + k by omega]
        exact ih (i + 1) (by simpa using inside)
    · simp at inside

/-- A copy that is long enough starts with the text. -/
theorem strncpyFrom_take (s : Nat → Byte) (i : Nat) {m n : Nat} (within : m ≤ n)
    (before : ∀ k < m, s (i + k) ≠ 0) :
    (strncpyFrom s i n).take m = (List.range' i m).map s := by
  -- The copying loop passes every byte that is not NUL.
  induction m generalizing i n with
  | zero => simp
  | succ m ih =>
    obtain ⟨rest, rfl⟩ : ∃ rest, n = rest + 1 := ⟨n - 1, by omega⟩
    unfold strncpyFrom
    rw [if_pos (by simpa using before 0 (by omega)), List.take_succ_cons, List.range'_succ,
      List.map_cons, ih (i + 1) (by omega) fun k below => by
        have next := before (k + 1) (by omega)
        rwa [show i + (k + 1) = i + 1 + k by omega] at next]

/-- A copy of one byte more than the text stores that byte as it is. -/
theorem strncpyFrom_succ (s : Nat → Byte) (i n : Nat) (before : ∀ k < n, s (i + k) ≠ 0) :
    strncpyFrom s i (n + 1) = (List.range' i n).map s ++ [s (i + n)] := by
  -- Whether the last byte is copied or padded, it is the one that stands there.
  induction n generalizing i with
  | zero =>
    unfold strncpyFrom
    split
    · simp [strncpyFrom]
    · rename_i ends
      simp only [not_not] at ends
      simp [ends]
  | succ n ih =>
    have rest : ∀ k < n, s (i + 1 + k) ≠ 0 := fun k below => by
      have next := before (k + 1) (by omega)
      rwa [show i + (k + 1) = i + 1 + k by omega] at next
    unfold strncpyFrom
    rw [if_pos (by simpa using before 0 (by omega)), ih (i + 1) rest, List.range'_succ,
      List.map_cons, List.cons_append, show i + 1 + n = i + (n + 1) by omega]

/-- Copying a bounded string stores exactly the bound. -/
@[simp] theorem strncpyFrom_length (src : Nat → Byte) (i n : Nat) :
    (strncpyFrom src i n).length = n := by
  -- Every step stores one byte, and the padding stores all that remain.
  induction n generalizing i with
  | zero => rfl
  | succ n ih =>
    unfold strncpyFrom
    split
    · simp [ih]
    · simp

@[simp] theorem strncpy_length (src : Nat → Byte) (n : Nat) : (strncpy src n).length = n :=
  strncpyFrom_length src 0 n

/-- Memory that starts with a copy of a text has the same text. -/
theorem textFrom_of_copy {s copy : Nat → Byte} {n : Nat}
    (copied : ∀ k < n, copy k = (strncpy s n).getD k 0) : textFrom copy 0 n = textFrom s 0 n := by
  have padded := strncpyFrom_eq s 0 n
  have bound := textFrom_length_le s 0 n
  -- The copy fills all of the bytes that are looked at.
  have bytes : (List.range' 0 n).map copy = strncpyFrom s 0 n := by
    refine List.ext_getElem (by simp) fun k left right => ?_
    simp only [strncpyFrom_length] at right
    have here := copied k right
    simpa [strncpy, List.getD_eq_getElem?_getD, right] using here
  have nonzero : ∀ c ∈ textFrom s 0 n, decide (c ≠ 0) = true := fun c member =>
    List.mem_takeWhile_imp (p := fun c => decide (c ≠ 0)) member
  rw [textFrom, bytes, padded, List.takeWhile_append_of_pos nonzero]
  simp

/-- A bounded length never passes its bound. -/
theorem strlenFrom_le (s : Nat → Byte) (i bound : Nat) : strlenFrom s i bound ≤ i + bound := by
  -- The bound falls by one where the offset rises by one.
  induction bound generalizing i with
  | zero => exact Nat.le_refl _
  | succ bound ih =>
    unfold strlenFrom
    split
    · have := ih (i + 1)
      omega
    · omega

theorem strlen_le (s : Nat → Byte) (bound : Nat) : strlen s bound ≤ bound := by
  simpa [strlen] using strlenFrom_le s 0 bound

/-- Nor does it fall below where it starts. -/
theorem strlenFrom_ge (s : Nat → Byte) (i bound : Nat) : i ≤ strlenFrom s i bound := by
  -- The offset never falls.
  induction bound generalizing i with
  | zero => exact Nat.le_refl _
  | succ bound ih =>
    unfold strlenFrom
    split
    · have := ih (i + 1)
      omega
    · omega

/-- The length found is where the first NUL stands. -/
theorem strlenFrom_eq {s : Nat → Byte} {i stop : Nat} (bound : Nat) (le : i ≤ stop)
    (within : stop < i + bound) (ends : s stop = 0) (before : ∀ k, i ≤ k → k < stop → s k ≠ 0) :
    strlenFrom s i bound = stop := by
  -- The scan passes every nonzero byte and stops at the first zero.
  induction bound generalizing i with
  | zero => omega
  | succ bound ih =>
    unfold strlenFrom
    rcases Nat.eq_or_lt_of_le le with same | less
    · subst same
      simp [ends]
    · rw [if_pos (before i (Nat.le_refl _) less)]
      exact ih (by omega) (by omega) fun k from_ below => before k (by omega) below

/-- A length is below a number exactly when a NUL stands below it. -/
theorem strlenFrom_lt_iff (s : Nat → Byte) (i : Nat) {n bound : Nat} (within : n ≤ bound) :
    strlenFrom s i bound < i + n ↔ ∃ k < n, s (i + k) = 0 := by
  -- The induction follows the scan, and the number falls with its bound.
  induction bound generalizing i n with
  | zero =>
    have none : n = 0 := by omega
    subst none
    simp [strlenFrom]
  | succ bound ih =>
    unfold strlenFrom
    cases n with
    | zero =>
      -- No number is below the place where the scan starts.
      have passed := strlenFrom_ge s i (bound + 1)
      unfold strlenFrom at passed
      simp only [Nat.add_zero, Nat.not_lt_zero, false_and, exists_false, iff_false]
      omega
    | succ n =>
      -- A NUL here ends the scan, and any other byte leaves the question to the rest.
      by_cases ends : s i = 0
      · rw [if_neg (not_not.mpr ends)]
        exact ⟨fun _ => ⟨0, Nat.succ_pos n, ends⟩, fun _ => by omega⟩
      · have rest := ih (i + 1) (Nat.le_of_succ_le_succ within)
        rw [if_pos ends, show i + (n + 1) = i + 1 + n by omega, rest]
        constructor
        · rintro ⟨k, below, zero⟩
          exact ⟨k + 1, by omega, by rw [← zero]; congr 1; omega⟩
        · rintro ⟨k, below, zero⟩
          cases k with
          | zero => exact absurd zero ends
          | succ k => exact ⟨k, by omega, by rw [← zero]; congr 1; omega⟩

theorem strlen_lt_iff (s : Nat → Byte) {n bound : Nat} (within : n ≤ bound) :
    strlen s bound < n ↔ ∃ k < n, s k = 0 := by
  simpa [strlen] using strlenFrom_lt_iff s 0 within

end SmallOs
