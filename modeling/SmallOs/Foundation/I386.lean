import Mathlib.Tactic.NormNum

/-! The part of the i386 that interrupt stubs use: the stack, calls, and entry to and return from interrupts. -/

namespace Foundation.I386

/-- A machine word. -/
abbrev Word := BitVec 32

/-- Memory by byte address, where addresses wrap. -/
abbrev Memory := Word → BitVec 8

/-- The word at an address, lowest byte first. -/
def load (mem : Memory) (a : Word) : Word :=
  mem (a + 3) ++ mem (a + 2) ++ mem (a + 1) ++ mem a

/-- Store a word at an address, lowest byte first. -/
def store (mem : Memory) (a value : Word) : Memory :=
  fun b =>
    -- The distance from the address wraps with it.
    if (b - a).toNat < 4 then value.extractLsb' (8 * (b - a).toNat) 8 else mem b

/-- A word that was stored is loaded again. -/
@[simp] theorem load_store_self (mem : Memory) (a value : Word) :
    load (store mem a value) a = value := by
  -- The four addresses are at the distances from zero to three.
  have zero : a - a = 0 := by bv_omega
  have one : a + 1 - a = 1 := by bv_omega
  have two : a + 2 - a = 2 := by bv_omega
  have three : a + 3 - a = 3 := by bv_omega
  simp only [load, store, zero, one, two, three]
  -- Each byte of the result is the byte that was taken from the value.
  refine BitVec.eq_of_getLsbD_eq fun i inside => ?_
  simp only [BitVec.getLsbD_append]
  simp
  grind

/-- A store far enough below or above a word leaves the word alone. -/
theorem load_store_other (mem : Memory) {a b : Word} (value : Word) (above : 4 ≤ (b - a).toNat)
    (below : (b - a).toNat + 4 ≤ 2 ^ 32) : load (store mem a value) b = load mem b := by
  -- Each of the four addresses is at a distance of four or more, which does not wrap.
  have zero : ¬ (b - a).toNat < 4 := by omega
  have one : ¬ (b + 1 - a).toNat < 4 := by bv_omega
  have two : ¬ (b + 2 - a).toNat < 4 := by bv_omega
  have three : ¬ (b + 3 - a).toNat < 4 := by bv_omega
  simp only [load, store, if_neg zero, if_neg one, if_neg two, if_neg three]

/-- The words that stand in memory from an address upwards. -/
def Holds (mem : Memory) (a : Word) : List Word → Prop
  | [] => True
  | w :: ws => load mem a = w ∧ Holds mem (a + 4) ws

namespace Holds

variable {mem other : Memory} {a b : Word} {ws : List Word}

/-- A store outside a block of words leaves the block alone. -/
theorem store (holds : Holds mem a ws) (value : Word) (above : 4 ≤ (a - b).toNat)
    (below : (a - b).toNat + 4 * ws.length ≤ 2 ^ 32) : Holds (store mem b value) a ws := by
  -- The words are taken from the lowest up, and each is further from the store.
  induction ws generalizing a with
  | nil => trivial
  | cons w ws ih =>
    obtain ⟨here, rest⟩ := holds
    simp only [List.length_cons] at below
    refine ⟨(load_store_other mem value above (by omega)).trans here, ?_⟩
    cases ws with
    | nil => trivial
    | cons next ws =>
      simp only [List.length_cons] at below ih
      have step : (a + 4 - b).toNat = (a - b).toNat + 4 := by bv_omega
      exact ih rest (by omega) (by omega)

/-- A block of words depends on its own bytes only. -/
theorem congr (holds : Holds mem a ws)
    (same : ∀ k < 4 * ws.length, other (a + BitVec.ofNat 32 k) = mem (a + BitVec.ofNat 32 k)) :
    Holds other a ws := by
  -- The words are taken from the lowest up, as in the definition.
  induction ws generalizing a with
  | nil => trivial
  | cons w ws ih =>
    obtain ⟨here, rest⟩ := holds
    simp only [List.length_cons] at same
    refine ⟨?_, ih rest fun k inside => ?_⟩
    · -- The lowest word has the four lowest bytes.
      have zero := same 0 (by omega)
      have one : other (a + 1) = mem (a + 1) := same 1 (by omega)
      have two : other (a + 2) = mem (a + 2) := same 2 (by omega)
      have three : other (a + 3) = mem (a + 3) := same 3 (by omega)
      rw [← here]
      simp only [load]
      have start : a + BitVec.ofNat 32 0 = a := by bv_omega
      rw [start] at zero
      rw [zero, one, two, three]
    · have shifted : a + 4 + BitVec.ofNat 32 k = a + BitVec.ofNat 32 (k + 4) := by bv_omega
      rw [shifted]
      exact same (k + 4) (by omega)

end Holds

/-- The registers an interrupt stub can touch, and memory. -/
structure Cpu where
  eax : Word
  ecx : Word
  edx : Word
  ebx : Word
  esp : Word
  ebp : Word
  esi : Word
  edi : Word
  eip : Word
  eflags : Word
  cs : BitVec 16
  ss : BitVec 16
  mem : Memory

/-- The bit of `eflags` that lets interrupts in. -/
def interruptFlag : Word := 0x200

namespace Cpu

/-- Push a word. -/
def push (c : Cpu) (value : Word) : Cpu :=
  { c with esp := c.esp - 4, mem := store c.mem (c.esp - 4) value }

/-- A word of the stack, counted from its top. -/
def word (c : Cpu) (i : Nat) : Word :=
  load c.mem (c.esp + BitVec.ofNat 32 (4 * i))

/-- Take words off the stack. -/
def drop (c : Cpu) (count : Nat) : Cpu :=
  { c with esp := c.esp + BitVec.ofNat 32 (4 * count) }

/-- The words on top of the stack. -/
def Stacked (c : Cpu) (ws : List Word) : Prop :=
  Holds c.mem c.esp ws

namespace Stacked

variable {c : Cpu} {ws : List Word}

/-- A pushed word is on top of those that were there. -/
theorem push (stacked : Stacked c ws) (value : Word) (room : 4 * ws.length + 4 ≤ 2 ^ 32) :
    Stacked (c.push value) (value :: ws) := by
  have above : c.esp - 4 + 4 = c.esp := by bv_omega
  have distance : (c.esp - (c.esp - 4)).toNat = 4 := by bv_omega
  refine ⟨load_store_self _ _ _, ?_⟩
  change Holds _ (c.esp - 4 + 4) ws
  rw [above]
  exact stacked.store value (by omega) (by omega)

/-- The words of the stack are counted from its top. -/
theorem word (stacked : Stacked c ws) {i : Nat} {value : Word} (there : ws[i]? = some value) :
    c.word i = value := by
  -- The count is a distance from the address at which the block starts.
  unfold Stacked at stacked
  unfold Cpu.word
  generalize c.esp = a at stacked
  induction ws generalizing a i with
  | nil => simp at there
  | cons w ws ih =>
    obtain ⟨here, rest⟩ := stacked
    cases i with
    | zero =>
      have start : a + BitVec.ofNat 32 (4 * 0) = a := by bv_omega
      rw [start, here]
      simpa using there
    | succ i =>
      have shifted : a + BitVec.ofNat 32 (4 * (i + 1)) = a + 4 + BitVec.ofNat 32 (4 * i) := by
        bv_omega
      rw [shifted]
      exact ih (by simpa using there) _ rest

/-- Taking words off the stack uncovers those below. -/
theorem drop (stacked : Stacked c ws) (count : Nat) : Stacked (c.drop count) (ws.drop count) := by
  unfold Stacked Cpu.drop
  unfold Stacked at stacked
  generalize c.esp = a at stacked
  simp only
  induction count generalizing a ws with
  | zero =>
    have start : a + BitVec.ofNat 32 (4 * 0) = a := by bv_omega
    rw [start]
    exact stacked
  | succ count ih =>
    cases ws with
    | nil => trivial
    | cons w ws =>
      have shifted : a + BitVec.ofNat 32 (4 * (count + 1)) =
          a + 4 + BitVec.ofNat 32 (4 * count) := by bv_omega
      rw [shifted]
      exact ih _ stacked.2

end Stacked

/-- The privilege level of a code segment selector. -/
def ring (cs : BitVec 16) : BitVec 16 :=
  cs &&& 3

end Cpu

/-- The instructions of the stubs, where a call names a compiled function. -/
inductive Instr (α : Type*) where
  | cli | sti | pushfl | popfl | pushal | popal
  | call (function : α)
  | iret

/--
One instruction.

A called function is given by what it does to the processor up to and with its `ret`, so the
return address it is given and takes off again lies below the stack pointer.
-/
def exec {α : Type*} (functions : α → Cpu → Cpu) (c : Cpu) : Instr α → Cpu
  | .cli => { c with eflags := c.eflags &&& ~~~interruptFlag }
  | .sti => { c with eflags := c.eflags ||| interruptFlag }
  -- Two of the flags are never pushed.
  | .pushfl => c.push (c.eflags &&& 0x00FCFFFF)
  | .popfl => { c.drop 1 with eflags := c.word 0 }
  -- The stack pointer is pushed as it was before the instruction.
  | .pushal =>
    [c.eax, c.ecx, c.edx, c.ebx, c.esp, c.ebp, c.esi, c.edi].foldl Cpu.push c
  -- The stack pointer that was pushed is not loaded.
  | .popal =>
    { c.drop 8 with
      edi := c.word 0
      esi := c.word 1
      ebp := c.word 2
      ebx := c.word 4
      edx := c.word 5
      ecx := c.word 6
      eax := c.word 7 }
  | .call function => functions function c
  | .iret =>
    let cs := (c.word 1).setWidth 16
    let returned := { c.drop 3 with eip := c.word 0, cs, eflags := c.word 2 }
    -- A return to an outer ring also restores the stack of that ring.
    if Cpu.ring cs = Cpu.ring c.cs then returned
    else { returned with esp := c.word 3, ss := (c.word 4).setWidth 16 }

/-- Execute instructions one after the other. -/
def run {α : Type*} (functions : α → Cpu → Cpu) (c : Cpu) (instrs : List (Instr α)) : Cpu :=
  instrs.foldl (exec functions) c

/-- An interrupt gate, with the stack of the ring it leads to. -/
structure Gate where
  cs : BitVec 16
  ss0 : BitVec 16
  esp0 : Word

/-- What the processor pushes when it enters a gate, from the top of the stack down. -/
def frame (gate : Gate) (c : Cpu) : List Word :=
  [c.eip, c.cs.setWidth 32, c.eflags] ++
    if Cpu.ring c.cs = Cpu.ring gate.cs then [] else [c.esp, c.ss.setWidth 32]

/-- The entry through a gate, which changes the stack when it changes the ring. -/
@[irreducible] def enter (gate : Gate) (c : Cpu) : Cpu :=
  let stack := if Cpu.ring c.cs = Cpu.ring gate.cs then c
    else { c with esp := gate.esp0, ss := gate.ss0 }
  let entered := (frame gate c).reverse.foldl Cpu.push stack
  { entered with cs := gate.cs, eflags := c.eflags &&& ~~~interruptFlag }

/--
What the calling convention promises of a call, where the caller has some bytes of the stack in use.

The function may change `eax`, `ecx`, `edx`, the flags, and memory outside those bytes.
-/
structure Conventional (inUse : Nat) (before after : Cpu) : Prop where
  ebx : after.ebx = before.ebx
  esi : after.esi = before.esi
  edi : after.edi = before.edi
  ebp : after.ebp = before.ebp
  esp : after.esp = before.esp
  cs : after.cs = before.cs
  ss : after.ss = before.ss
  stack : ∀ k < inUse,
    after.mem (before.esp + BitVec.ofNat 32 k) = before.mem (before.esp + BitVec.ofNat 32 k)

/-- Interrupted code goes on where it was, with its registers, its stack, and its flags. -/
structure Resumed (before after : Cpu) : Prop where
  eax : after.eax = before.eax
  ecx : after.ecx = before.ecx
  edx : after.edx = before.edx
  ebx : after.ebx = before.ebx
  esp : after.esp = before.esp
  ebp : after.ebp = before.ebp
  esi : after.esi = before.esi
  edi : after.edi = before.edi
  eip : after.eip = before.eip
  eflags : after.eflags = before.eflags
  cs : after.cs = before.cs
  ss : after.ss = before.ss

section Laws

variable {c : Cpu} {ws : List Word}

/-- Words pushed one after the other stand on the stack in reverse. -/
theorem Cpu.Stacked.pushes (stacked : c.Stacked ws) (values : List Word)
    (room : 4 * (ws.length + values.length) ≤ 2 ^ 32) :
    (values.foldl Cpu.push c).Stacked (values.reverse ++ ws) := by
  -- The first value is pushed first, so it ends up lowest in the list.
  induction values generalizing c ws with
  | nil => exact stacked
  | cons value values ih =>
    simp only [List.length_cons] at room
    have pushed := stacked.push value (by omega)
    have rest := ih pushed (by simp only [List.length_cons]; omega)
    rw [List.reverse_cons, List.append_assoc]
    exact rest

/-- Pushing moves the stack pointer, writes memory, and leaves every other register alone. -/
theorem foldl_push (values : List Word) (c : Cpu) : ∃ mem, values.foldl Cpu.push c =
    { c with esp := c.esp - BitVec.ofNat 32 (4 * values.length), mem := mem } := by
  -- Each push moves the stack pointer down by four bytes.
  induction values generalizing c with
  | nil =>
    have none : c.esp - BitVec.ofNat 32 (4 * 0) = c.esp := by bv_omega
    exact ⟨c.mem, by simp only [List.length_nil, none, List.foldl_nil]⟩
  | cons value values ih =>
    obtain ⟨mem, same⟩ := ih (c.push value)
    have moved : c.esp - 4 - BitVec.ofNat 32 (4 * values.length) =
        c.esp - BitVec.ofNat 32 (4 * (values.length + 1)) := by bv_omega
    refine ⟨mem, ?_⟩
    rw [List.foldl_cons, same]
    simp only [Cpu.push, List.length_cons, moved]

/-- A function that keeps to the convention leaves the words its caller has on the stack. -/
theorem Conventional.stacked {after : Cpu} {inUse : Nat} (kept : Conventional inUse c after)
    (stacked : c.Stacked ws) (inside : 4 * ws.length ≤ inUse) : after.Stacked ws := by
  -- The stack pointer is back where it was, and the bytes in use are unchanged.
  unfold Cpu.Stacked
  rw [kept.esp]
  exact stacked.congr fun k within => kept.stack k (by omega)

/-- The frame of an interrupt stands on the stack when its gate was entered. -/
theorem enter_stacked (gate : Gate) (c : Cpu) : (enter gate c).Stacked (frame gate c) := by
  -- Nothing is taken for granted about the stack before the entry.
  have small : 4 * (([] : List Word).length + (frame gate c).reverse.length) ≤ 2 ^ 32 := by
    unfold frame
    split <;> simp
  have nothing : ∀ stack : Cpu, stack.Stacked [] := fun _ => trivial
  have pushed := fun stack => (nothing stack).pushes (frame gate c).reverse small
  simp only [List.reverse_reverse, List.append_nil] at pushed
  unfold enter
  exact pushed _

/-- The entry through a gate keeps the general registers, and knows where the frame is. -/
theorem enter_registers (gate : Gate) (c : Cpu) : ∃ mem eflags, enter gate c =
    { c with
      esp := (if Cpu.ring c.cs = Cpu.ring gate.cs then c.esp else gate.esp0) -
        BitVec.ofNat 32 (4 * (frame gate c).length)
      ss := if Cpu.ring c.cs = Cpu.ring gate.cs then c.ss else gate.ss0
      cs := gate.cs
      eflags := eflags
      mem := mem } := by
  unfold enter
  simp only
  -- The two kinds of entry push from different stacks.
  split
  · obtain ⟨mem, same⟩ := foldl_push (frame gate c).reverse c
    rw [same]
    exact ⟨mem, c.eflags &&& ~~~interruptFlag, by simp only [List.length_reverse]⟩
  · obtain ⟨mem, same⟩ := foldl_push (frame gate c).reverse
      { c with esp := gate.esp0, ss := gate.ss0 }
    rw [same]
    exact ⟨mem, c.eflags &&& ~~~interruptFlag, by simp only [List.length_reverse]⟩

/-- `iret` on the frame of an interrupt goes back to the code it interrupted. -/
theorem exec_iret {α : Type*} (functions : α → Cpu → Cpu) {gate : Gate} {before c : Cpu}
    (stacked : c.Stacked (frame gate before)) (cs : c.cs = gate.cs)
    (home : Cpu.ring before.cs = Cpu.ring gate.cs →
      c.esp = before.esp - BitVec.ofNat 32 (4 * (frame gate before).length) ∧ c.ss = before.ss) :
    exec functions c .iret =
      { c with
        esp := before.esp
        eip := before.eip
        eflags := before.eflags
        cs := before.cs
        ss := before.ss } := by
  -- The selectors are pushed as words, and read back as halves of them.
  have half : ∀ selector : BitVec 16, (selector.setWidth 32).setWidth 16 = selector := by
    intro selector
    exact BitVec.setWidth_setWidth_of_le selector (by decide)
  have eip : c.word 0 = before.eip := stacked.word (by simp [frame])
  have code : c.word 1 = before.cs.setWidth 32 := stacked.word (by simp [frame])
  have flags : c.word 2 = before.eflags := stacked.word (by simp [frame])
  simp only [exec, eip, code, flags, half, cs]
  -- A return within the ring leaves two words of the frame out.
  split
  · rename_i same
    obtain ⟨esp, ss⟩ := home same
    have back : c.esp + BitVec.ofNat 32 (4 * 3) = before.esp := by
      rw [esp]
      simp only [frame, if_pos same, List.length_append, List.length_cons, List.length_nil]
      bv_omega
    simp only [Cpu.drop, back, ss]
  · rename_i outer
    have esp : c.word 3 = before.esp := stacked.word (by simp [frame, outer])
    have ss : c.word 4 = before.ss.setWidth 32 := stacked.word (by simp [frame, outer])
    simp only [Cpu.drop, esp, ss, half]

/-- A call between a push and a pop of the flags keeps to the convention of the call alone. -/
theorem conventional_guarded {α : Type*} {functions : α → Cpu → Cpu} {function : α} {inUse : Nat}
    (obeys : ∀ before, Conventional (inUse + 4) before (functions function before))
    (room : inUse + 4 ≤ 2 ^ 32) (c : Cpu) :
    Conventional inUse c (run functions c [.pushfl, .call function, .popfl]) := by
  have kept := obeys (c.push (c.eflags &&& 0x00FCFFFF))
  refine ⟨kept.ebx, kept.esi, kept.edi, kept.ebp, ?_, kept.cs, kept.ss, fun k within => ?_⟩
  · -- The word that was pushed is taken off again.
    change (functions function (c.push (c.eflags &&& 0x00FCFFFF))).esp + BitVec.ofNat 32 (4 * 1) =
      c.esp
    rw [kept.esp]
    change c.esp - 4 + BitVec.ofNat 32 (4 * 1) = c.esp
    bv_omega
  · -- Seen from below the pushed word, the bytes are four further up.
    have called := kept.stack (k + 4) (by omega)
    have shifted : c.esp - 4 + BitVec.ofNat 32 (k + 4) = c.esp + BitVec.ofNat 32 k := by bv_omega
    change _ = store c.mem (c.esp - 4) _ (c.esp - 4 + BitVec.ofNat 32 (k + 4)) at called
    rw [show (c.push (c.eflags &&& 0x00FCFFFF)).esp = c.esp - 4 from rfl, shifted] at called
    refine called.trans (if_neg ?_)
    bv_omega

/-- All registers are pushed, with the stack pointer as it was. -/
theorem Cpu.Stacked.pushal {α : Type*} (functions : α → Cpu → Cpu) (stacked : c.Stacked ws)
    (room : 4 * ws.length + 32 ≤ 2 ^ 32) :
    (exec functions c .pushal).Stacked
      ([c.edi, c.esi, c.ebp, c.esp, c.ebx, c.edx, c.ecx, c.eax] ++ ws) := by
  have pushed := stacked.pushes [c.eax, c.ecx, c.edx, c.ebx, c.esp, c.ebp, c.esi, c.edi]
    (by simp only [List.length_cons, List.length_nil]; omega)
  exact pushed

/-- Registers that were pushed together are read back together. -/
theorem exec_popal {α : Type*} (functions : α → Cpu → Cpu)
    {edi esi ebp esp ebx edx ecx eax : Word}
    (stacked : c.Stacked ([edi, esi, ebp, esp, ebx, edx, ecx, eax] ++ ws)) :
    exec functions c .popal =
      { c with
        edi := edi
        esi := esi
        ebp := ebp
        ebx := ebx
        edx := edx
        ecx := ecx
        eax := eax
        esp := c.esp + 32 } := by
  -- The fourth word is the stack pointer, which is not loaded.
  have word0 : c.word 0 = edi := stacked.word (by simp)
  have word1 : c.word 1 = esi := stacked.word (by simp)
  have word2 : c.word 2 = ebp := stacked.word (by simp)
  have word4 : c.word 4 = ebx := stacked.word (by simp)
  have word5 : c.word 5 = edx := stacked.word (by simp)
  have word6 : c.word 6 = ecx := stacked.word (by simp)
  have word7 : c.word 7 = eax := stacked.word (by simp)
  simp only [exec, word0, word1, word2, word4, word5, word6, word7, Cpu.drop]
  rfl

/-- What is promised for more bytes of the stack is promised for fewer. -/
theorem Conventional.mono {less more : Nat} {before after : Cpu}
    (kept : Conventional more before after) (fewer : less ≤ more) :
    Conventional less before after :=
  { kept with stack := fun k within => kept.stack k (by omega) }

/-- A guarded call between a push and a pop of all registers changes none of them. -/
theorem run_saved {α : Type*} {functions : α → Cpu → Cpu} {function : α}
    (obeys : ∀ before, Conventional (4 * ws.length + 36) before (functions function before))
    (room : 4 * ws.length + 36 ≤ 2 ^ 32) (stacked : c.Stacked ws) :
    ∃ mem eip eflags, run functions c [.pushal, .pushfl, .call function, .popfl, .popal] =
      { c with mem := mem, eip := eip, eflags := eflags } ∧ Holds mem c.esp ws := by
  -- The call leaves the pushed registers on the stack, where they are read back.
  have saved := stacked.pushal functions (by omega)
  have obeyed := fun before => (obeys before).mono
    (show 4 * ws.length + 32 + 4 ≤ 4 * ws.length + 36 by omega)
  have kept := conventional_guarded obeyed (by omega) (exec functions c .pushal)
  have held := kept.stacked saved (by simp; omega)
  have restored := exec_popal functions held
  have below := held.drop 8
  obtain ⟨mem, pushed⟩ := foldl_push [c.eax, c.ecx, c.edx, c.ebx, c.esp, c.ebp, c.esi, c.edi] c
  change exec functions c .pushal = _ at pushed
  have split : run functions c [.pushal, .pushfl, .call function, .popfl, .popal] =
      exec functions (run functions (exec functions c .pushal) [.pushfl, .call function, .popfl])
        .popal := rfl
  rw [split]
  generalize run functions (exec functions c .pushal) [.pushfl, .call function, .popfl] = after
    at kept restored below ⊢
  rw [pushed] at kept
  -- Eight words down and eight words up is where the stack pointer was.
  have esp : after.esp + 32 = c.esp := by
    rw [kept.esp]
    simp only [List.length_cons, List.length_nil]
    bv_omega
  refine ⟨after.mem, after.eip, after.eflags, ?_, ?_⟩
  · rw [restored, esp, kept.cs, kept.ss]
  · have back : (after.drop 8).esp = c.esp := esp
    unfold Cpu.Stacked at below
    rw [back] at below
    exact below
end Laws

end Foundation.I386
