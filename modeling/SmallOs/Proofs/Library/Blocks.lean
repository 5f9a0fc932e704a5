import SmallOs.Foundation.Memory
import SmallOs.Kernel.Blocks

/-! The block primitives write exactly their bytes, at any alignment and any overlap. -/

namespace SmallOs

open Foundation Foundation.Assembly
open Foundation.I386 (Word Memory)

/-- The memory after so many bytes from an address on are set, each to the low byte of a value. -/
def setBytes (mem : Memory) (d c n : Word) : Memory := fun a =>
  if d.toNat ≤ a.toNat ∧ a.toNat < d.toNat + n.toNat then c.setWidth 8 else mem a

/-- The memory after so many bytes from an address on are those that were at another address. -/
def copyBytes (mem : Memory) (d src n : Word) : Memory := fun a =>
  if d.toNat ≤ a.toNat ∧ a.toNat < d.toNat + n.toNat then mem (src + (a - d)) else mem a

/-- With enough steps a call ends with a pointer and a memory. -/
def Returns (call : Nat → Option (Word × Core)) (pointer : Word) (mem : Memory) : Prop :=
  ∃ enough, ∀ fuel ≥ enough, ∃ core, call fuel = some (pointer, core) ∧ core.mem = mem

/-- Assembly that ends with a memory makes its call return with it. -/
theorem returns_of_ends {Label : Type} [DecidableEq Label] {code : List (Line Label)} {s : Core}
    {pointer : Word} {mem : Memory} (ends : Ends code code s fun t => t.mem = mem) :
    Returns (fun fuel => (exec code fuel code s).map fun core => (pointer, core)) pointer mem := by
  obtain ⟨enough, last, run, same⟩ := ends
  refine ⟨enough, fun fuel more => ⟨last, ?_, same⟩⟩
  show (exec code fuel code s).map _ = _
  rw [exec_more run more]
  rfl

/-- What the loops of `memset` and `memcpy` keep, by the number of bytes that are written. -/
structure Keeps (byte : List (Instr BlockLabel)) (words : StringOp) (n : Nat)
    (written : Nat → Core → Prop) : Prop where
  /-- No instruction that writes a byte jumps. -/
  straight : ∀ i ∈ byte, i.straight = true
  /-- The loops count in `ecx` and `edx`, and change the flags. -/
  moved : ∀ {k : Nat} {s t : Core}, written k s → t.mem = s.mem → t.reg .eax = s.reg .eax →
    t.reg .edi = s.reg .edi → t.reg .esi = s.reg .esi → written k t
  byteNext : ∀ {k : Nat} {s : Core}, k < n → written k s →
    written (k + 1) (byte.foldl Core.execute s)
  byteCounts : ∀ s : Core, (byte.foldl Core.execute s).reg .ecx = s.reg .ecx ∧
    (byte.foldl Core.execute s).reg .edx = s.reg .edx
  wordNext : ∀ {k : Nat} {s : Core}, k + 4 ≤ n → s.direction = false → written k s →
    written (k + 4) (Core.repTurn words s)

/-- The end of the assembly. -/
theorem target_done (byte : List (Instr BlockLabel)) (words : StringOp) :
    target .done (blockCode byte words) = [] := by
  simp [blockCode, alignedCode, bottomCode, target]

/-- What follows the label of the second loop. -/
theorem target_bottom (byte : List (Instr BlockLabel)) (words : StringOp) :
    target .bottom (blockCode byte words) = (bottomCode byte).tail := by
  simp [blockCode, alignedCode, bottomCode, target]

/-- What follows the label of the words. -/
theorem target_aligned (byte : List (Instr BlockLabel)) (words : StringOp) :
    target .aligned (blockCode byte words) = (alignedCode byte words).tail := by
  simp [blockCode, alignedCode, target]

/-- The words are a quarter of the bytes, and the rest stays for the second loop. -/
theorem wordSetup_counts {s : Core} {left : Nat} (count : (s.reg .ecx).toNat = left) :
    ((wordSetup.foldl Core.execute s).reg .ecx).toNat = left / 4 ∧
      ((wordSetup.foldl Core.execute s).reg .edx).toNat = left % 4 ∧
      (wordSetup.foldl Core.execute s).direction = false := by
  refine ⟨?_, ?_, rfl⟩
  · simp [wordSetup, Core.execute, Core.set, Core.value, Core.logic, count,
      Nat.shiftRight_eq_div_pow]
  · simp [wordSetup, Core.execute, Core.set, Core.value, Core.logic, count]
    exact Nat.and_two_pow_sub_one_eq_mod left 2

namespace Keeps

variable {byte : List (Instr BlockLabel)} {words : StringOp} {n : Nat}
  {written : Nat → Core → Prop} {s : Core} {k left : Nat}

/-- A turn of either loop writes one byte and counts down. -/
theorem turn (keeps : Keeps byte words n written) {r : Reg} (counter : r = .ecx ∨ r = .edx)
    (sum : k + (left + 1) = n) (count : (s.reg r).toNat = left + 1) (holds : written k s) :
    let t := (byte.foldl Core.execute s).execute (.subl (.imm 1) r : Instr BlockLabel)
    written (k + 1) t ∧ (t.reg r).toNat = left := by
  have counts := keeps.byteCounts s
  have next := keeps.byteNext (by omega) holds
  obtain rfl | rfl := counter
  · exact ⟨keeps.moved next rfl rfl rfl rfl, Core.subl_one (by rw [counts.1, count])⟩
  · exact ⟨keeps.moved next rfl rfl rfl rfl, Core.subl_one (by rw [counts.2, count])⟩

/-- The bytes that the words leave are written from the lowest up. -/
theorem bottom (keeps : Keeps byte words n written) (sum : k + left = n)
    (count : (s.reg .edx).toNat = left) (holds : written k s) :
    Ends (blockCode byte words) (bottomCode byte).tail s (written n) := by
  -- The register counts down to zero, and each turn writes one byte.
  induction left generalizing k s with
  | zero =>
    refine .instr (.jz (by rw [Core.testl_self, count]; rfl) ?_)
    rw [target_done]
    refine .done (keeps.moved (s := s) ?_ rfl rfl rfl rfl)
    rw [← sum]
    exact holds
  | succ left ih =>
    refine .instr (.notZero (by rw [Core.testl_self, count]; rfl) (.block keeps.straight ?_))
    refine .instr (.instr ?_)
    rw [follow, target_bottom]
    -- The test before the byte changes flags only.
    obtain ⟨next, less⟩ := keeps.turn (s := s.execute (.testl (.reg .edx) .edx : Instr BlockLabel))
      (.inr rfl) sum count (keeps.moved holds rfl rfl rfl rfl)
    exact ih (by omega) less (keeps.moved next rfl rfl rfl rfl)

/-- The repeated instruction writes words upwards. -/
theorem wordsWritten (keeps : Keeps byte words n written) (upwards : s.direction = false)
    (room : k + 4 * (s.reg .ecx).toNat ≤ n) (holds : written k s) :
    written (k + 4 * (s.reg .ecx).toNat) (s.execute (.rep words : Instr BlockLabel)) ∧
      (s.execute (.rep words : Instr BlockLabel)).reg .edx = s.reg .edx := by
  -- After some turns of the instruction, four times as many bytes are written.
  obtain ⟨whole, -, same⟩ := rep_invariant BlockLabel words (s := s)
    (fun turns core => written (k + 4 * turns) core ∧ core.direction = false ∧
      core.reg .edx = s.reg .edx)
    ⟨holds, upwards, rfl⟩ (by
      intro turns fewer core ⟨holds, upwards, same⟩
      have next : k + 4 * turns + 4 ≤ n := by omega
      exact ⟨keeps.wordNext next upwards holds, by rwa [Core.repTurn_direction],
        by rwa [Core.repTurn_edx]⟩)
  exact ⟨whole, same⟩

/-- From an aligned address on, words are written, and then the bytes that are left. -/
theorem aligned (keeps : Keeps byte words n written) (sum : k + left = n)
    (count : (s.reg .ecx).toNat = left) (holds : written k s) :
    Ends (blockCode byte words) (alignedCode byte words).tail s (written n) := by
  refine .block (by decide) (.instr (.label ?_))
  have counts := wordSetup_counts count
  have start : written k (wordSetup.foldl Core.execute s) := keeps.moved holds rfl rfl rfl rfl
  -- Only what is known of the state before the words matters from here on.
  generalize wordSetup.foldl Core.execute s = t at counts start ⊢
  obtain ⟨many, rest, upwards⟩ := counts
  obtain ⟨whole, same⟩ := keeps.wordsWritten upwards (by omega) start
  have left' : ((t.execute (.rep words : Instr BlockLabel)).reg .edx).toNat = left % 4 := by
    rw [same, rest]
  exact keeps.bottom (by omega) left' whole

/-- Bytes are written up to an aligned address, or all of them. -/
theorem top (keeps : Keeps byte words n written) (sum : k + left = n)
    (count : (s.reg .ecx).toNat = left) (holds : written k s) :
    Ends (blockCode byte words) (blockCode byte words).tail s (written n) := by
  -- The register counts down to zero, and each turn writes one byte.
  induction left generalizing k s with
  | zero =>
    refine .instr (.jz (by rw [Core.testl_self, count]; rfl) ?_)
    rw [target_done]
    refine .done (keeps.moved (s := s) ?_ rfl rfl rfl rfl)
    rw [← sum]
    exact holds
  | succ left ih =>
    refine .instr (.notZero (by rw [Core.testl_self, count]; rfl) (.instr ?_))
    -- Both tests change flags only.
    generalize tested : (s.execute (.testl (.reg .ecx) .ecx : Instr BlockLabel)).execute
      (.testl (.imm 0x3) .edi) = t
    have alike : written k t := by
      subst tested
      exact keeps.moved holds rfl rfl rfl rfl
    have same : (t.reg .ecx).toNat = left + 1 := by
      subst tested
      exact count
    cases zero : t.zero with
    | true =>
      refine .jz zero ?_
      rw [target_aligned]
      exact keeps.aligned sum same alike
    | false =>
      refine .notZero zero (.block keeps.straight (.instr (.instr ?_)))
      obtain ⟨next, less⟩ := keeps.turn (.inl rfl) sum same alike
      exact ih (by omega) less (keeps.moved next rfl rfl rfl rfl)

/-- The whole assembly writes all bytes. -/
theorem ends (keeps : Keeps byte words n written) (count : (s.reg .ecx).toNat = n)
    (holds : written 0 s) : Ends (blockCode byte words) (blockCode byte words) s (written n) :=
  .label (keeps.top (Nat.zero_add n) count holds)

end Keeps

/-- A pointer that moves up by so many bytes. -/
theorem pointer_up {p d : Word} {k : Nat} (offset : p = d + BitVec.ofNat 32 k) (size : Nat) :
    p + BitVec.ofNat 32 size = d + BitVec.ofNat 32 (k + size) := by
  rw [offset, BitVec.ofNat_add, BitVec.add_assoc]

/-- What `memset` keeps: the bytes below the pointer are set. -/
structure Filled (mem : Memory) (d c : Word) (k : Nat) (s : Core) : Prop where
  pointer : s.reg .edi = d + BitVec.ofNat 32 k
  bytes : ∀ i < 4, (s.reg .eax).extractLsb' (8 * i) 8 = c.setWidth 8
  written : Written mem s.mem d 0 k fun _ => c.setWidth 8

/-- The loops of `memset` set the bytes. -/
theorem memset_keeps (mem : Memory) (d c : Word) {n : Nat} (room : n ≤ 2 ^ 32) :
    Keeps memset.byte .stosl n (Filled mem d c) where
  straight := by decide
  moved {k s t} holds memory accumulator destination _ :=
    ⟨destination ▸ holds.pointer, accumulator ▸ holds.bytes, memory ▸ holds.written⟩
  byteCounts s := ⟨rfl, rfl⟩
  byteNext {k s} below holds := by
    refine ⟨?_, holds.bytes, ?_⟩
    · exact pointer_up holds.pointer 1
    · show Written mem (Function.update s.mem (s.reg .edi) ((s.reg .eax).extractLsb' (8 * 0) 8)) d 0
        (k + 1) _
      rw [holds.pointer, holds.bytes 0 (by decide)]
      exact holds.written.byteAbove (by omega) (by omega)
  wordNext {k s} below upwards holds := by
    refine ⟨?_, holds.bytes, ?_⟩
    · show s.reg .edi + s.stride 4 = _
      rw [Core.stride_up upwards]
      exact pointer_up holds.pointer 4
    · show Written mem (Foundation.I386.store s.mem (s.reg .edi) (s.reg .eax)) d 0 (k + 4) _
      rw [holds.pointer]
      exact holds.written.wordAbove (by omega) (by omega) holds.bytes

/-- What a copy upwards keeps: the bytes below the pointers are copied. -/
structure CopiedUp (mem : Memory) (d src : Word) (k : Nat) (s : Core) : Prop where
  destination : s.reg .edi = d + BitVec.ofNat 32 k
  source : s.reg .esi = src + BitVec.ofNat 32 k
  written : Written mem s.mem d 0 k fun i => mem (src + BitVec.ofNat 32 i)

/-- The loops of `memcpy` copy the bytes when no byte of the source is written. -/
theorem memcpy_keeps (mem : Memory) (d src : Word) {n : Nat} (room : n ≤ 2 ^ 32)
    (apart : ∀ i < n, n ≤ (src + BitVec.ofNat 32 i - d).toNat) :
    Keeps memcpy.byte .movsl n (CopiedUp mem d src) where
  straight := by decide
  moved {k s t} holds memory _ destination source :=
    ⟨destination ▸ holds.destination, source ▸ holds.source, memory ▸ holds.written⟩
  byteCounts s := ⟨rfl, rfl⟩
  byteNext {k s} below holds := by
    refine ⟨?_, ?_, ?_⟩
    · exact pointer_up holds.destination 1
    · exact pointer_up holds.source 1
    · -- The byte that is loaded is still the original one.
      have original : s.mem (s.reg .esi) = mem (src + BitVec.ofNat 32 k) := by
        rw [holds.source]
        exact holds.written.outside (.inr (le_trans (by omega) (apart k below)))
      show Written mem (Function.update s.mem (s.reg .edi)
        (((s.reg .eax).extractLsb' 8 24 ++ s.mem (s.reg .esi)).extractLsb' 0 8)) d 0 (k + 1) _
      rw [BitVec.extractLsb'_append_eq_right, original, holds.destination]
      exact holds.written.byteAbove (by omega) (by omega)
  wordNext {k s} below upwards holds := by
    refine ⟨?_, ?_, ?_⟩
    · show s.reg .edi + s.stride 4 = _
      rw [Core.stride_up upwards]
      exact pointer_up holds.destination 4
    · show s.reg .esi + s.stride 4 = _
      rw [Core.stride_up upwards]
      exact pointer_up holds.source 4
    · show Written mem (Foundation.I386.store s.mem (s.reg .edi)
        (Foundation.I386.load s.mem (s.reg .esi))) d 0 (k + 4) _
      rw [holds.destination]
      refine holds.written.wordAbove (by omega) (by omega) fun i byte => ?_
      -- Each byte that is loaded is still the original one.
      have address : s.reg .esi + BitVec.ofNat 32 i = src + BitVec.ofNat 32 (k + i) := by
        rw [holds.source]
        bv_omega
      rw [extract_load s.mem (s.reg .esi) byte, address]
      exact holds.written.outside (.inr (le_trans (by omega) (apart (k + i) (by omega))))

/-- The copy upwards leaves every byte alone until it is copied, when the source is not below. -/
theorem copied_up {mem : Memory} {d src : Word} {n k : Nat} {s : Core} (room : n ≤ 2 ^ 32)
    (ahead : ∀ i < n, i ≤ (src + BitVec.ofNat 32 i - d).toNat) (below : k < n)
    (upwards : s.direction = false) (holds : CopiedUp mem d src k s) :
    CopiedUp mem d src (k + 1) (Core.repTurn .movsb s) := by
  refine ⟨?_, ?_, ?_⟩
  · show s.reg .edi + s.stride 1 = _
    rw [Core.stride_up upwards]
    exact pointer_up holds.destination 1
  · show s.reg .esi + s.stride 1 = _
    rw [Core.stride_up upwards]
    exact pointer_up holds.source 1
  · show Written mem (Function.update s.mem (s.reg .edi) (s.mem (s.reg .esi))) d 0 (k + 1) _
    rw [holds.source, holds.written.outside (.inr (ahead k below)), holds.destination]
    exact holds.written.byteAbove (by omega) (by omega)

/-- What a copy downwards keeps: the bytes above the pointers are copied. -/
structure CopiedDown (mem : Memory) (d src : Word) (n k : Nat) (s : Core) : Prop where
  destination : s.reg .edi + BitVec.ofNat 32 (k + 1) = d + BitVec.ofNat 32 n
  source : s.reg .esi + BitVec.ofNat 32 (k + 1) = src + BitVec.ofNat 32 n
  written : Written mem s.mem d (n - k) n fun i => mem (src + BitVec.ofNat 32 i)

/-- A pointer that moves down by one stays as far from the end as it was. -/
theorem pointer_down {p last : Word} {k : Nat} (distance : p + BitVec.ofNat 32 (k + 1) = last) :
    p + -1 + BitVec.ofNat 32 (k + 1 + 1) = last := by
  rw [← distance, BitVec.ofNat_add (k + 1) 1]
  grind

/-- The offset of a pointer is what the distance from the end leaves. -/
theorem pointer_offset {p d : Word} {i k : Nat}
    (distance : p + BitVec.ofNat 32 (k + 1) = d + BitVec.ofNat 32 (k + 1 + i)) :
    p = d + BitVec.ofNat 32 i := by
  rw [BitVec.ofNat_add (k + 1) i] at distance
  grind

/-- The copy downwards leaves every byte alone until it is copied, when the source is below. -/
theorem copied_down {mem : Memory} {d src : Word} {n k : Nat} {s : Core} (room : n ≤ 2 ^ 32)
    (behind : ∀ i < n, (src + BitVec.ofNat 32 i - d).toNat ≤ i ∨
      n ≤ (src + BitVec.ofNat 32 i - d).toNat) (below : k < n)
    (downwards : s.direction = true) (holds : CopiedDown mem d src n k s) :
    CopiedDown mem d src n (k + 1) (Core.repTurn .movsb s) := by
  refine ⟨?_, ?_, ?_⟩
  · show s.reg .edi + s.stride 1 + _ = _
    rw [Core.stride_down downwards]
    exact pointer_down holds.destination
  · show s.reg .esi + s.stride 1 + _ = _
    rw [Core.stride_down downwards]
    exact pointer_down holds.source
  · -- The turn is about the highest byte that is not copied yet.
    obtain ⟨i, rfl⟩ : ∃ i, n = k + 1 + i := ⟨n - (k + 1), by omega⟩
    have destination := pointer_offset holds.destination
    have source := pointer_offset holds.source
    have written := holds.written
    rw [show k + 1 + i - k = i + 1 by omega] at written
    rw [show k + 1 + i - (k + 1) = i by omega]
    have away := behind i (by omega)
    show Written mem (Function.update s.mem (s.reg .edi) (s.mem (s.reg .esi))) d i _ _
    rw [source, written.outside (by omega), destination]
    exact written.byteBelow (by omega) (by omega)

/-- When the source is not below the destination, every distance upwards stays ahead. -/
theorem ahead_of_le {d src : Word} {n : Nat} (fits : src.toNat + n ≤ 2 ^ 32) (above : ¬ src < d) :
    ∀ i < n, i ≤ (src + BitVec.ofNat 32 i - d).toNat := by
  intro i below
  bv_omega

/-- When the source is below the destination, every byte is behind or below. -/
theorem behind_of_lt {d src : Word} {n : Nat} (fits : d.toNat + n ≤ 2 ^ 32) (under : src < d) :
    ∀ i < n, (src + BitVec.ofNat 32 i - d).toNat ≤ i ∨
      n ≤ (src + BitVec.ofNat 32 i - d).toNat := by
  intro i below
  bv_omega

/-- A source apart from the destination has every byte at a distance of at least the length. -/
theorem apart_of_disjoint {d src : Word} {n : Nat} (fits : d.toNat + n ≤ 2 ^ 32)
    (source : src.toNat + n ≤ 2 ^ 32)
    (disjoint : d.toNat + n ≤ src.toNat ∨ src.toNat + n ≤ d.toNat) :
    ∀ i < n, n ≤ (src + BitVec.ofNat 32 i - d).toNat := by
  intro i below
  bv_omega

/-- The repeated instruction copies upwards. -/
theorem repeated_up {s : Core} {d src n : Word} (upwards : s.direction = false)
    (destination : s.reg .edi = d) (source : s.reg .esi = src) (count : s.reg .ecx = n)
    (ahead : ∀ i < n.toNat, i ≤ (src + BitVec.ofNat 32 i - d).toNat) :
    Written s.mem (s.execute (.rep .movsb : Instr MoveLabel)).mem d 0 n.toNat fun i =>
      s.mem (src + BitVec.ofNat 32 i) := by
  subst destination source count
  have start : CopiedUp s.mem (s.reg .edi) (s.reg .esi) 0 s :=
    ⟨by simp, by simp, .none s.mem _ 0 _⟩
  obtain ⟨copied, -⟩ := rep_invariant MoveLabel .movsb (s := s)
    (fun k core => CopiedUp s.mem (s.reg .edi) (s.reg .esi) k core ∧ core.direction = false)
    ⟨start, upwards⟩ (by
      intro k below core ⟨holds, upwards⟩
      exact ⟨copied_up (by omega) ahead below upwards holds, by rwa [Core.repTurn_direction]⟩)
  exact copied.written

/-- The repeated instruction copies downwards. -/
theorem repeated_down {s : Core} {d src n : Word} (downwards : s.direction = true)
    (destination : s.reg .edi = -1 + d + n) (source : s.reg .esi = -1 + src + n)
    (count : s.reg .ecx = n)
    (behind : ∀ i < n.toNat, (src + BitVec.ofNat 32 i - d).toNat ≤ i ∨
      n.toNat ≤ (src + BitVec.ofNat 32 i - d).toNat) :
    Written s.mem (s.execute (.rep .movsb : Instr MoveLabel)).mem d 0 n.toNat fun i =>
      s.mem (src + BitVec.ofNat 32 i) := by
  subst count
  have start : CopiedDown s.mem d src (s.reg .ecx).toNat 0 s := by
    refine ⟨?_, ?_, .none s.mem _ _ _⟩
    · rw [destination, BitVec.ofNat_toNat, BitVec.setWidth_eq]
      grind
    · rw [source, BitVec.ofNat_toNat, BitVec.setWidth_eq]
      grind
  obtain ⟨copied, -⟩ := rep_invariant MoveLabel .movsb (s := s)
    (fun k core => CopiedDown s.mem d src (s.reg .ecx).toNat k core ∧ core.direction = true)
    ⟨start, downwards⟩ (by
      intro k below core ⟨holds, downwards⟩
      exact ⟨copied_down (by omega) behind below downwards holds,
        by rwa [Core.repTurn_direction]⟩)
  -- No byte is left when as many turns are over as there are bytes.
  have written := copied.written
  rwa [Nat.sub_self] at written

/-- `memmove` copies the original bytes in whichever direction it takes. -/
theorem memmove_ends {s : Core} {d src n : Word} (destination : s.reg .edi = d)
    (source : s.reg .esi = src) (count : s.reg .ecx = n) (room : d.toNat + n.toNat ≤ 2 ^ 32)
    (fits : src.toNat + n.toNat ≤ 2 ^ 32) :
    Ends memmove.code memmove.code s fun t =>
      Written s.mem t.mem d 0 n.toNat fun i => s.mem (src + BitVec.ofNat 32 i) := by
  subst destination source count
  refine .instr (.instr (.instr (.instr ?_)))
  -- The comparison leaves in the carry flag whether the source is below.
  by_cases under : s.reg .esi < s.reg .edi
  · refine .below (decide_eq_true under) (.instr (.instr (.instr (.label (.instr (.done ?_))))))
    exact repeated_down rfl rfl rfl rfl (behind_of_lt room under)
  · refine .jae (decide_eq_false under) (.instr (.done ?_))
    exact repeated_up rfl rfl rfl rfl (ahead_of_le fits under)

/-- What is copied upwards without a wrap is an interval. -/
theorem copyBytes_of_written {before after : Memory} {d src n : Word}
    (written : Written before after d 0 n.toNat fun i => before (src + BitVec.ofNat 32 i))
    (room : d.toNat + n.toNat ≤ 2 ^ 32) : after = copyBytes before d src n := by
  funext a
  rw [written.interval room a, copyBytes]
  split
  next inside =>
    have offset : BitVec.ofNat 32 (a.toNat - d.toNat) = a - d := by bv_omega
    rw [offset]
  next => rfl

/-- The block copies of whole screens in the switch routines are those `memcpy` makes. -/
theorem copyBytes_eq_copyBlock (mem : Memory) (d src n a : Word) :
    copyBytes mem d src n a =
      copyBlock d.toNat src.toNat n.toNat (fun address => mem (BitVec.ofNat 32 address)) a.toNat := by
  unfold copyBytes copyBlock
  split
  next inside =>
    -- The distance from the start is the same with and without the wrap.
    have same : BitVec.ofNat 32 (src.toNat + (a.toNat - d.toNat)) = src + (a - d) := by bv_omega
    exact congrArg mem same.symm
  next =>
    have same : BitVec.ofNat 32 a.toNat = a := by simp
    exact congrArg mem same.symm

section Calls

variable (start : Core) {d src n : Word}

/-- `memset` sets the bytes. -/
theorem memset_returns (c : Word) (room : d.toNat + n.toNat ≤ 2 ^ 32) :
    Returns (memset start d c n) d (setBytes start.mem d c n) := by
  refine returns_of_ends (Ends.weaken ((memset_keeps start.mem d c n.isLt.le).ends rfl ?_) ?_)
  · exact ⟨by simp [Core.set], fun i byte => extract_spread c byte, .none _ _ _ _⟩
  · intro t filled
    funext a
    exact filled.written.interval room a

/-- `memcpy` copies the bytes between disjoint ranges. -/
theorem memcpy_returns (room : d.toNat + n.toNat ≤ 2 ^ 32) (fits : src.toNat + n.toNat ≤ 2 ^ 32)
    (disjoint : d.toNat + n.toNat ≤ src.toNat ∨ src.toNat + n.toNat ≤ d.toNat) :
    Returns (memcpy start d src n) d (copyBytes start.mem d src n) := by
  have apart := apart_of_disjoint room fits disjoint
  refine returns_of_ends
    (Ends.weaken ((memcpy_keeps start.mem d src n.isLt.le apart).ends rfl ?_) ?_)
  · exact ⟨by simp [Core.set], by simp [Core.set], .none _ _ _ _⟩
  · intro t copied
    exact copyBytes_of_written copied.written room

/-- `memmove` copies the bytes however the ranges lie. -/
theorem memmove_returns (room : d.toNat + n.toNat ≤ 2 ^ 32) (fits : src.toNat + n.toNat ≤ 2 ^ 32) :
    Returns (memmove start d src n) d (copyBytes start.mem d src n) :=
  returns_of_ends (Ends.weaken (memmove_ends rfl rfl rfl room fits) fun _ written =>
    copyBytes_of_written written room)

end Calls

/--
The block primitives write exactly the bytes that they are asked to write.

`memmove` takes the original bytes however its ranges lie, and `memcpy` when they are disjoint.
-/
theorem block_primitives (start : Core) (d src c n : Word) (room : d.toNat + n.toNat ≤ 2 ^ 32) :
    Returns (memset start d c n) d (setBytes start.mem d c n) ∧
      (src.toNat + n.toNat ≤ 2 ^ 32 →
        Returns (memmove start d src n) d (copyBytes start.mem d src n) ∧
          (d.toNat + n.toNat ≤ src.toNat ∨ src.toNat + n.toNat ≤ d.toNat →
            Returns (memcpy start d src n) d (copyBytes start.mem d src n))) :=
  ⟨memset_returns start c room, fun fits =>
    ⟨memmove_returns start room fits, memcpy_returns start room fits⟩⟩

/-- A core at rest, with the low byte of each address at that address. -/
def sampleCore : Core where
  reg _ := 0
  ds := 0x18
  es := 0x18
  zero := false
  carry := false
  direction := true
  mem a := a.setWidth 8

/-- Nine bytes from an address that is not aligned are three bytes, a word, and two bytes. -/
theorem block_primitives_sample :
    Returns (memset sampleCore 0x1001 0x141 9) 0x1001 (setBytes sampleCore.mem 0x1001 0x141 9) ∧
      Returns (memmove sampleCore 0x1001 0xFFF 9) 0x1001
        (copyBytes sampleCore.mem 0x1001 0xFFF 9) ∧
      Returns (memcpy sampleCore 0x1001 0x2002 9) 0x1001
        (copyBytes sampleCore.mem 0x1001 0x2002 9) :=
  ⟨(block_primitives sampleCore 0x1001 0 0x141 9 (by decide)).1,
    ((block_primitives sampleCore 0x1001 0xFFF 0 9 (by decide)).2 (by decide)).1,
    ((block_primitives sampleCore 0x1001 0x2002 0 9 (by decide)).2 (by decide)).2 (by decide)⟩

end SmallOs
