import SmallOs.Foundation.I386

/-! Calls with arguments on the stack, and the memory that pushes and entries leave alone. -/

namespace Foundation.I386

namespace Cpu

/-- What is dropped at once may be dropped in parts. -/
theorem drop_drop (c : Cpu) (i j : Nat) : (c.drop i).drop j = c.drop (i + j) := by
  have sum : c.esp + BitVec.ofNat 32 (4 * i) + BitVec.ofNat 32 (4 * j) =
      c.esp + BitVec.ofNat 32 (4 * (i + j)) := by bv_omega
  simp only [drop, sum]

/-- Words are counted from the new top after some were dropped. -/
theorem word_drop (c : Cpu) (i j : Nat) : (c.drop i).word j = c.word (i + j) := by
  have sum : c.esp + BitVec.ofNat 32 (4 * i) + BitVec.ofNat 32 (4 * j) =
      c.esp + BitVec.ofNat 32 (4 * (i + j)) := by bv_omega
  simp only [word, drop, sum]

/-- Words further up are counted one more after a push. -/
theorem word_push (c : Cpu) (value : Word) {i : Nat} (near : 4 * i + 8 ≤ 2 ^ 32) :
    (c.push value).word (i + 1) = c.word i := by
  have place : c.esp - 4 + BitVec.ofNat 32 (4 * (i + 1)) = c.esp + BitVec.ofNat 32 (4 * i) := by
    bv_omega
  have distance : (c.esp + BitVec.ofNat 32 (4 * i) - (c.esp - 4)).toNat = 4 * i + 4 := by bv_omega
  simp only [word, push, place]
  exact load_store_other c.mem value (by omega) (by omega)

/-- A word depends on its four bytes only. -/
theorem word_congr {c other : Cpu} {i : Nat} (pointer : other.esp = c.esp)
    (same : ∀ k < 4, other.mem (c.esp + BitVec.ofNat 32 (4 * i + k)) =
      c.mem (c.esp + BitVec.ofNat 32 (4 * i + k))) : other.word i = c.word i := by
  have one : c.esp + BitVec.ofNat 32 (4 * i) + 1 = c.esp + BitVec.ofNat 32 (4 * i + 1) := by bv_omega
  have two : c.esp + BitVec.ofNat 32 (4 * i) + 2 = c.esp + BitVec.ofNat 32 (4 * i + 2) := by bv_omega
  have three : c.esp + BitVec.ofNat 32 (4 * i) + 3 = c.esp + BitVec.ofNat 32 (4 * i + 3) := by
    bv_omega
  simp only [word, pointer, load, one, two, three]
  rw [same 1 (by omega), same 2 (by omega), same 3 (by omega)]
  exact congrArg _ (same 0 (by omega))

end Cpu

/-- Pushes write right below the stack pointer only. -/
theorem pushes_away (values : List Word) {c : Cpu} {b : Word}
    (few : 4 * values.length < 2 ^ 32)
    (away : 4 * values.length ≤ (b - (c.esp - BitVec.ofNat 32 (4 * values.length))).toNat) :
    (values.foldl Cpu.push c).mem b = c.mem b := by
  -- Each word goes below those before it, and all of them end before the byte.
  induction values generalizing c with
  | nil => rfl
  | cons value values ih =>
    simp only [List.length_cons] at few away
    have lower : (c.push value).esp = c.esp - 4 := rfl
    have rest : (values.foldl Cpu.push (c.push value)).mem b = (c.push value).mem b := by
      refine ih (by omega) ?_
      rw [lower]
      bv_omega
    rw [List.foldl_cons, rest]
    refine if_neg ?_
    bv_omega

/-- The stack on which the frame of an interrupt is pushed. -/
def entryStack (gate : Gate) (c : Cpu) : Word :=
  if Cpu.ring c.cs = Cpu.ring gate.cs then c.esp else gate.esp0

/-- The entry through a gate writes its frame only. -/
theorem enter_away (gate : Gate) (c : Cpu) {b : Word}
    (away : 4 * (frame gate c).length ≤
      (b - (entryStack gate c - BitVec.ofNat 32 (4 * (frame gate c).length))).toNat) :
    (enter gate c).mem b = c.mem b := by
  have few : 4 * (frame gate c).reverse.length < 2 ^ 32 := by
    unfold frame
    split <;> simp
  unfold entryStack at away
  unfold enter
  simp only
  -- The two kinds of entry push from different stacks.
  split at away
  next same =>
    rw [if_pos same]
    exact pushes_away _ few (by rwa [List.length_reverse])
  next outer =>
    rw [if_neg outer]
    exact pushes_away (c := { c with esp := gate.esp0, ss := gate.ss0 }) _ few
      (by rwa [List.length_reverse])

/--
A function with arguments on the stack, whose caller has some bytes above them in use.

The words of the arguments are its own, and it may leave others there.
-/
def TakesArguments (count inUse : Nat) (function : Cpu → Cpu) : Prop :=
  ∀ before, Conventional inUse (before.drop count) ((function before).drop count)

namespace TakesArguments

variable {count inUse : Nat} {function : Cpu → Cpu} {c : Cpu} {ws : List Word}

/-- The stack pointer is back at the arguments. -/
theorem esp (takes : TakesArguments count inUse function) (c : Cpu) :
    (function c).esp = c.esp := by
  have above : (function c).esp + BitVec.ofNat 32 (4 * count) =
      c.esp + BitVec.ofNat 32 (4 * count) := (takes c).esp
  bv_omega

/-- What is stacked above the arguments is still there. -/
theorem stacked (takes : TakesArguments count inUse function) {arguments : List Word}
    (stacked : c.Stacked (arguments ++ ws)) (number : arguments.length = count)
    (inside : 4 * ws.length ≤ inUse) : ((function c).drop count).Stacked ws := by
  have above := stacked.drop count
  rw [← number, List.drop_left, number] at above
  exact (takes c).stacked above inside

end TakesArguments

end Foundation.I386
