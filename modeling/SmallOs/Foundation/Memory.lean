import Mathlib.Data.List.Induction
import Mathlib.Logic.Function.Basic
import Mathlib.Tactic.SplitIfs

/-! Byte-addressed memories, block copies, and the windows through which parts of them are seen. -/

namespace Foundation

variable {α : Type*}

/-- Copy a block of cells whose source and destination do not overlap. -/
def copyBlock (dst src count : Nat) (memory : Nat → α) : Nat → α :=
  -- Every destination cell takes the source cell at the same distance from the start.
  fun address => if dst ≤ address ∧ address < dst + count then memory (src + (address - dst))
    else memory address

/-- The cells of one block, numbered from its base, with a default beyond its end. -/
def window [Inhabited α] (base size : Nat) (memory : Nat → α) : Nat → α :=
  -- Masking the cells beyond the block makes equal windows mean equal blocks.
  fun offset => if offset < size then memory (base + offset) else default

section Window

variable [Inhabited α] {base size offset address : Nat} {value : α} {memory : Nat → α}

/-- Reading a window inside its block reads the memory below it. -/
theorem window_apply (inside : offset < size) :
    window base size memory offset = memory (base + offset) :=
  if_pos inside

/-- A store inside a block is the same store in its window. -/
theorem window_store_inside (inside : offset < size) :
    window base size (Function.update memory (base + offset) value) =
      Function.update (window base size memory) offset value := by
  -- Two offsets of one block name one address exactly when they are equal.
  funext position
  by_cases same : position = offset
  · subst same
    simp [window, inside]
  · simp [window, same]

/-- A block copy shows the source block through the destination's window. -/
theorem window_copyBlock_same (dst src : Nat) :
    window dst size (copyBlock dst src size memory) = window src size memory := by
  -- Every position of the window lies in the destination.
  funext position
  by_cases within : position < size
  · have range : dst ≤ dst + position ∧ dst + position < dst + size := by omega
    have distance : dst + position - dst = position := by omega
    simp [window, copyBlock, within, distance]
  · simp [window, within]

/-- A block copy leaves the windows that avoid its destination alone. -/
theorem window_copyBlock_apart {dst src count : Nat}
    (apart : base + size ≤ dst ∨ dst + count ≤ base) :
    window base size (copyBlock dst src count memory) = window base size memory := by
  -- No position of the window lies in the destination.
  funext position
  by_cases within : position < size
  · have away : ¬ (dst ≤ base + position ∧ base + position < dst + count) := by omega
    simp [window, copyBlock, within, away]
  · simp [window, within]

/-- A window of a window is a smaller window. -/
theorem window_window {inner outer : Nat} (fits : inner ≤ outer) :
    window 0 inner (window base outer memory) = window base inner memory := by
  -- Positions beyond the inner window are masked in both.
  funext position
  by_cases within : position < inner
  · have below : 0 + position < outer := by omega
    rw [window_apply within, window_apply within, window_apply below, Nat.zero_add]
  · simp [window, within]

end Window

/-- The first cells of a buffer, as a list. -/
def bytesOf (buf : Nat → α) (count : Nat) : List α :=
  (List.range count).map buf

section Prefix

variable {buf other : Nat → α} {count : Nat}

@[simp] theorem bytesOf_zero (buf : Nat → α) : bytesOf buf 0 = [] := rfl

@[simp] theorem bytesOf_length (buf : Nat → α) (count : Nat) : (bytesOf buf count).length = count := by
  simp [bytesOf]

/-- Only the cells that are taken matter. -/
theorem bytesOf_congr (same : ∀ i < count, buf i = other i) :
    bytesOf buf count = bytesOf other count :=
  List.map_congr_left fun i inside => same i (List.mem_range.mp inside)

/-- One more cell of a buffer goes to the end. -/
theorem bytesOf_succ (buf : Nat → α) (count : Nat) :
    bytesOf buf (count + 1) = bytesOf buf count ++ [buf count] := by
  simp [bytesOf, List.range_succ]

/-- One cell less of a buffer leaves out the last. -/
theorem bytesOf_pred (buf : Nat → α) (count : Nat) :
    bytesOf buf (count - 1) = (bytesOf buf count).dropLast := by
  -- An empty prefix has no last cell to leave out.
  cases count with
  | zero => rfl
  | succ count => rw [bytesOf_succ, List.dropLast_concat, Nat.add_sub_cancel]

/-- A cell stored behind the ones that are taken is the next one to be. -/
theorem bytesOf_store (buf : Nat → α) (count : Nat) (value : α) :
    bytesOf (Function.update buf count value) (count + 1) = bytesOf buf count ++ [value] := by
  rw [bytesOf_succ, Function.update_self]
  congr 1
  exact bytesOf_congr fun i below => Function.update_of_ne (by omega) _ _

/-- Overwriting the last cell does not change the ones before it. -/
theorem bytesOf_erase (buf : Nat → α) (count : Nat) (value : α) :
    bytesOf (Function.update buf (count - 1) value) (count - 1) = (bytesOf buf count).dropLast := by
  rw [← bytesOf_pred]
  exact bytesOf_congr fun i below => Function.update_of_ne (by omega) _ _

end Prefix

/-- Two memories that differ inside one block only. -/
def AgreeOutside (base size : Nat) (memory next : Nat → α) : Prop :=
  ∀ address, address < base ∨ base + size ≤ address → next address = memory address

namespace AgreeOutside

variable {base size : Nat} {memory middle next : Nat → α}

theorem refl (memory : Nat → α) : AgreeOutside base size memory memory :=
  fun _ _ => rfl

theorem trans (first : AgreeOutside base size memory middle)
    (second : AgreeOutside base size middle next) : AgreeOutside base size memory next :=
  fun address outside => (second address outside).trans (first address outside)

/-- A store inside the block is seen nowhere else. -/
theorem store (agree : AgreeOutside base size memory next) {address : Nat} {value : α}
    (inside : base ≤ address ∧ address < base + size) :
    AgreeOutside base size memory (Function.update next address value) := by
  intro other outside
  -- An address outside the block is not the one that is stored to.
  have apart : other ≠ address := by omega
  rw [Function.update_of_ne apart]
  exact agree other outside

/-- A window that avoids the block shows the same cells. -/
theorem window_eq [Inhabited α] (agree : AgreeOutside base size memory next) {start count : Nat}
    (apart : start + count ≤ base ∨ base + size ≤ start) :
    window start count next = window start count memory := by
  -- Every cell of the window is outside the block.
  funext offset
  by_cases within : offset < count
  · rw [window_apply within, window_apply within]
    exact agree _ (by omega)
  · simp [window, within]

end AgreeOutside

/-- Carry out a list of stores, each at its address, in their order. -/
def storeAll (stores : List (Nat × α)) (memory : Nat → α) : Nat → α :=
  stores.foldl (fun memory store => Function.update memory store.1 store.2) memory

/-- The stores that put a text at consecutive addresses. -/
def storesFrom (address : Nat) : List α → List (Nat × α)
  | [] => []
  | value :: text => (address, value) :: storesFrom (address + 1) text

section Stores

variable {text : List α} {memory : Nat → α}

/-- The stores of a text are within a bound exactly when its end is. -/
theorem storesFrom_within {address bound : Nat} (start : address ≤ bound) :
    (∀ store ∈ storesFrom address text, store.1 < bound) ↔ address + text.length ≤ bound := by
  -- The induction moves the address along the text.
  induction text generalizing address with
  | nil => simpa [storesFrom] using start
  | cons value text ih =>
    simp only [storesFrom, List.forall_mem_cons, List.length_cons]
    constructor
    · rintro ⟨here, rest⟩
      have tail := (ih here).mp rest
      omega
    · intro fits
      exact ⟨by omega, (ih (by omega)).mpr (by omega)⟩

/-- A text that was stored is read back, and everything around it is as it was. -/
theorem storeAll_storesFrom (address k : Nat) :
    storeAll (storesFrom address text) memory k =
      if address ≤ k then text.getD (k - address) (memory k) else memory k := by
  induction text generalizing address memory with
  | nil => simp [storeAll, storesFrom]
  | cons value text ih =>
    -- The first store is behind all of the others, which start one address further on.
    have rest : storeAll (storesFrom (address + 1) text) (Function.update memory address value) k =
        if address + 1 ≤ k then
          text.getD (k - (address + 1)) (Function.update memory address value k)
        else Function.update memory address value k := ih (address + 1)
    refine rest.trans ?_
    by_cases here : k = address
    · subst here
      rw [if_neg (by omega), if_pos (Nat.le_refl _), Nat.sub_self, Function.update_self,
        List.getD_cons_zero]
    · rw [Function.update_of_ne here]
      by_cases before : address ≤ k
      · have split : k - address = k - (address + 1) + 1 := by omega
        rw [if_pos (by omega), if_pos before, split, List.getD_cons_succ]
      · rw [if_neg (by omega), if_neg before]

end Stores

/-- A loop that changes every place of a block changes no other one. -/
theorem foldl_update_range (start count : Nat) (change : α → α) (buf : Nat → α) (k : Nat) :
    (List.range' start count).foldl (fun buf i => Function.update buf i (change (buf i))) buf k =
      if start ≤ k ∧ k < start + count then change (buf k) else buf k := by
  -- The first place is behind the ones of the remaining block.
  induction count generalizing start buf with
  | zero =>
    rw [if_neg (by omega)]
    rfl
  | succ count ih =>
    rw [List.range'_succ, List.foldl_cons, ih]
    by_cases here : k = start
    · subst here
      rw [if_neg (by omega), if_pos (by omega), Function.update_self]
    · rw [Function.update_of_ne here]
      by_cases within : start + 1 ≤ k ∧ k < start + 1 + count
      · rw [if_pos within, if_pos (by omega)]
      · rw [if_neg within, if_neg (by omega)]

/-- A loop that stores one value at consecutive addresses fills the block. -/
theorem foldl_fill (start count : Nat) (value : α) (buf : Nat → α) (k : Nat) :
    (List.range' start count).foldl (fun buf i => Function.update buf i value) buf k =
      if start ≤ k ∧ k < start + count then value else buf k :=
  foldl_update_range start count (fun _ => value) buf k

/-- Carry out a list of updates of a function, in their order. -/
def updateAll {κ : Type*} [DecidableEq κ] (updates : List (κ × α)) (f : κ → α) : κ → α :=
  updates.foldl (fun f update => Function.update f update.1 update.2) f

/-- The value of the last update of a place, if there was one. -/
def lastUpdate {κ : Type*} [DecidableEq κ] (updates : List (κ × α)) (place : κ) : Option α :=
  (updates.reverse.find? fun update => update.1 = place).map Prod.snd

/-- After a list of updates, each place holds what was last put there. -/
theorem updateAll_apply {κ : Type*} [DecidableEq κ] (updates : List (κ × α)) (f : κ → α)
    (place : κ) : updateAll updates f place = (lastUpdate updates place).getD (f place) := by
  -- The induction takes the last update off the end of the list.
  induction updates using List.reverseRecOn with
  | nil => rfl
  | append_singleton updates update ih =>
    have split : updateAll (updates ++ [update]) f =
        Function.update (updateAll updates f) update.1 update.2 := List.foldl_append
    rw [split]
    by_cases here : update.1 = place
    · subst here
      simp [lastUpdate]
    · have elsewhere : place ≠ update.1 := fun same => here same.symm
      rw [Function.update_of_ne elsewhere, ih]
      simp [lastUpdate, here]

/-- Where every place is changed at most once, it holds its one change. -/
theorem foldl_update_once {κ γ : Type*} [DecidableEq κ] (place : γ → κ) (change : γ → α → α)
    {entries : List γ} (once : (entries.map place).Nodup) (f : κ → α) (k : κ) :
    entries.foldl (fun f entry =>
        Function.update f (place entry) (change entry (f (place entry)))) f k =
      (entries.find? fun entry => place entry = k).elim (f k) fun entry => change entry (f k) := by
  -- The first entry for a place is also the last one.
  induction entries generalizing f with
  | nil => rfl
  | cons entry entries ih =>
    simp only [List.map_cons, List.nodup_cons] at once
    obtain ⟨fresh, once⟩ := once
    rw [List.foldl_cons, ih once]
    by_cases here : place entry = k
    · subst here
      have absent : (entries.find? fun other => place other = place entry) = none := by
        rw [List.find?_eq_none]
        intro other member same
        exact fresh (List.mem_map.mpr ⟨other, member, by simpa using same⟩)
      simp [absent]
    · simp [here, Function.update_of_ne (Ne.symm here)]

end Foundation
