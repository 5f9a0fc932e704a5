import Mathlib.Data.List.Nodup

/-! Chains of parent links: every node names at most one parent, and a chain ends at a root. -/

namespace Foundation

variable {ι : Type*}

/-- The nodes met from a node up to the first one without a parent. -/
inductive Chain (parent : ι → Option ι) : ι → List ι → Prop where
  /-- A node without a parent is a chain of its own. -/
  | root {node : ι} (last : parent node = none) : Chain parent node [node]
  /-- A node in front of its parent's chain. -/
  | link {node above : ι} {path : List ι} (up : parent node = some above)
      (rest : Chain parent above path) : Chain parent node (node :: path)

namespace Chain

variable {parent other : ι → Option ι} {top node : ι} {path : List ι}

/-- A chain lists its own starting node first. -/
theorem head (chain : Chain parent top path) : ∃ rest, path = top :: rest := by
  cases chain with
  | root => exact ⟨[], rfl⟩
  | link => exact ⟨_, rfl⟩

/-- A chain contains its starting node. -/
theorem top_mem (chain : Chain parent top path) : top ∈ path := by
  -- The first node of the list is the start.
  obtain ⟨rest, same⟩ := chain.head
  simp [same]

/-- Parent links leave no choice, so a node starts one chain only. -/
theorem unique {first second : List ι} (left : Chain parent top first)
    (right : Chain parent top second) : first = second := by
  -- Both chains read the same link at every node.
  induction left generalizing second with
  | root last =>
    cases right with
    | root => rfl
    | link up => simp [last] at up
  | link up _ ih =>
    cases right with
    | root last => simp [last] at up
    | link up' rest =>
      rw [up] at up'
      cases up'
      rw [ih rest]

/-- Every node of a chain starts a chain that is no longer. -/
theorem suffix (chain : Chain parent top path) (member : node ∈ path) :
    ∃ tail, Chain parent node tail ∧ tail.length ≤ path.length ∧ ∀ p ∈ tail, p ∈ path := by
  -- Dropping nodes from the front keeps the links of the remaining ones.
  induction chain with
  | root last =>
    simp only [List.mem_singleton] at member
    subst member
    exact ⟨_, .root last, Nat.le_refl _, fun _ within => within⟩
  | link up rest ih =>
    rcases List.mem_cons.mp member with same | later
    · subst same
      exact ⟨_, .link up rest, Nat.le_refl _, fun _ within => within⟩
    · obtain ⟨tail, started, short, inside⟩ := ih later
      exact ⟨tail, started, by simp only [List.length_cons]; omega,
        fun p within => List.mem_cons_of_mem _ (inside p within)⟩

/-- A chain that reaches a root never passes a node twice. -/
theorem nodup (chain : Chain parent top path) : path.Nodup := by
  -- A repeated node would start two chains of different lengths.
  induction chain with
  | root => simp
  | @link start above path up rest ih =>
    refine List.nodup_cons.mpr ⟨fun again => ?_, ih⟩
    obtain ⟨tail, started, short, -⟩ := rest.suffix again
    have same := started.unique (.link up rest)
    rw [same] at short
    simp only [List.length_cons] at short
    omega

/-- A chain depends only on the links of its own nodes. -/
theorem congr (chain : Chain parent top path) (agree : ∀ p ∈ path, other p = parent p) :
    Chain other top path := by
  -- The links are compared node by node along the chain.
  induction chain with
  | root last => exact .root (by rw [agree _ (by simp), last])
  | link up _ ih =>
    exact .link (by rw [agree _ (by simp), up])
      (ih fun p within => agree p (List.mem_cons_of_mem _ within))

/-- A fresh node whose parent is the old start extends the chain by itself. -/
theorem push (chain : Chain parent top path) (up : other node = some top)
    (agree : ∀ p ∈ path, other p = parent p) : Chain other node (node :: path) :=
  .link up (chain.congr agree)

end Chain

end Foundation
