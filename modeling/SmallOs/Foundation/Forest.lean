import Mathlib.Data.List.Infix
import SmallOs.Foundation.Chain

/-! Families of disjoint parent chains: nodes are pushed onto a chain and popped off its start. -/

namespace Foundation

variable {ι ν : Type*}

/--
The chains of all owners, together with the set of nodes they occupy.

An owner without a starting node has the empty chain.
-/
structure Forest (parent : ν → Option ν) (top : ι → Option ν) (live : ν → Prop)
    (path : ι → List ν) : Prop where
  /-- A starting node's chain follows the parent links to a root. -/
  chain : ∀ owner node, top owner = some node → Chain parent node (path owner)
  /-- An owner without a starting node occupies nothing. -/
  vacant : ∀ owner, top owner = none → path owner = []
  /-- No node belongs to two owners. -/
  disjoint : ∀ owner other, owner ≠ other → (path owner).Disjoint (path other)
  /-- The occupied nodes are the live ones. -/
  live_iff : ∀ node, live node ↔ ∃ owner, node ∈ path owner

namespace Forest

variable {parent : ν → Option ν} {top : ι → Option ν} {live : ν → Prop} {path : ι → List ν}

/-- A forest depends only on the links of live nodes. -/
theorem congr {parent' : ν → Option ν} {top' : ι → Option ν} {live' : ν → Prop}
    (forest : Forest parent top live path) (links : ∀ node, live node → parent' node = parent node)
    (starts : ∀ owner, top' owner = top owner) (alive : ∀ node, live' node ↔ live node) :
    Forest parent' top' live' path where
  chain owner node found := by
    -- The chain of an owner runs over live nodes only.
    rw [starts] at found
    exact (forest.chain owner node found).congr fun p member =>
      links p ((forest.live_iff p).mpr ⟨owner, member⟩)
  vacant owner empty := forest.vacant owner (by rw [← starts, empty])
  disjoint := forest.disjoint
  live_iff node := (alive node).trans (forest.live_iff node)

/-- The links a node's chain follows survive the removal of its start. -/
theorem rest_chain (forest : Forest parent top live path) {owner : ι} {node : ν}
    (starts : top owner = some node) :
    (parent node = none ∧ path owner = [node]) ∨
      ∃ above rest, parent node = some above ∧ path owner = node :: rest ∧
        Chain parent above rest := by
  have chain := forest.chain owner node starts
  -- A chain is never empty, and its first node is the start.
  cases found : path owner with
  | nil =>
    rw [found] at chain
    obtain ⟨rest, impossible⟩ := chain.head
    cases impossible
  | cons first rest =>
    rw [found] at chain
    cases chain with
    | root last => exact .inl ⟨last, rfl⟩
    | link up tail => exact .inr ⟨_, _, up, rfl, tail⟩

section Update

variable [DecidableEq ι]

/-- Members of an updated family of paths. -/
theorem mem_update_iff {owner other : ι} {node : ν} {nodes : List ν} :
    node ∈ Function.update path owner nodes other ↔
      (other = owner ∧ node ∈ nodes) ∨ (other ≠ owner ∧ node ∈ path other) := by
  by_cases same : other = owner
  · subst same
    simp
  · simp [same]

/-- Disjointness survives when one owner's path only gains nodes that nobody occupies. -/
theorem disjoint_update {owner : ι} {nodes : List ν}
    (apart : ∀ owner other, owner ≠ other → (path owner).Disjoint (path other))
    (fresh : ∀ node ∈ nodes, node ∈ path owner ∨ ∀ other, node ∉ path other) :
    ∀ first second, first ≠ second →
      (Function.update path owner nodes first).Disjoint
        (Function.update path owner nodes second) := by
  -- A shared node would be either an old node of the owner or one nobody occupied.
  intro first second differ node left right
  rw [mem_update_iff] at left right
  rcases left with ⟨isOwner, inLeft⟩ | ⟨notOwner, inLeft⟩
  · rcases right with ⟨alsoOwner, -⟩ | ⟨-, inRight⟩
    · exact differ (isOwner.trans alsoOwner.symm)
    · rcases fresh node inLeft with old | nobody
      · exact apart owner second (isOwner ▸ differ) old inRight
      · exact nobody second inRight
  · rcases right with ⟨isOwner, inRight⟩ | ⟨-, inRight⟩
    · rcases fresh node inRight with old | nobody
      · exact apart owner first (isOwner ▸ differ.symm) old inLeft
      · exact nobody first inLeft
    · exact apart first second differ inLeft inRight

/-- A node that was not live is put in front of an owner's chain, or starts it. -/
theorem push {parent' : ν → Option ν} {live' : ν → Prop} (forest : Forest parent top live path)
    (owner : ι) {node : ν} (fresh : ¬ live node) (link : parent' node = top owner)
    (links : ∀ other, other ≠ node → parent' other = parent other)
    (alive : ∀ other, live' other ↔ other = node ∨ live other) :
    Forest parent' (Function.update top owner (some node)) live'
      (Function.update path owner (node :: path owner)) := by
  -- The new node is on no chain, so no old chain reads its link.
  have absent : ∀ other, node ∉ path other := fun other member =>
    fresh ((forest.live_iff node).mpr ⟨other, member⟩)
  have agree : ∀ other, ∀ p ∈ path other, parent' p = parent p := fun other p member =>
    links p fun same => absent other (same ▸ member)
  refine ⟨?_, ?_, ?_, ?_⟩
  · intro other start starts
    by_cases same : other = owner
    · subst same
      simp only [Function.update_self, Option.some.injEq] at starts ⊢
      subst starts
      -- The new node starts an empty chain, or is linked to the old start.
      cases previous : top other with
      | none =>
        rw [forest.vacant other previous]
        exact .root (link.trans previous)
      | some above =>
        exact (forest.chain other above previous).push (link.trans previous) (agree other)
    · simp only [Function.update_of_ne same] at starts ⊢
      exact (forest.chain other start starts).congr (agree other)
  · intro other empty
    by_cases same : other = owner
    · subst same
      simp at empty
    · simp only [Function.update_of_ne same] at empty ⊢
      exact forest.vacant other empty
  · -- Only the new node is added, and nobody had it.
    refine disjoint_update forest.disjoint fun p member => ?_
    rcases List.mem_cons.mp member with same | old
    · exact .inr (same ▸ absent)
    · exact .inl old
  · intro p
    rw [alive, forest.live_iff]
    constructor
    · rintro (same | ⟨other, member⟩)
      · exact ⟨owner, by simp [same]⟩
      · by_cases same : other = owner
        · exact ⟨owner, by simp [← same, member]⟩
        · exact ⟨other, by simp [same, member]⟩
    · rintro ⟨other, member⟩
      rcases mem_update_iff.mp member with ⟨-, inside⟩ | ⟨-, inside⟩
      · rcases List.mem_cons.mp inside with same | old
        · exact .inl same
        · exact .inr ⟨owner, old⟩
      · exact .inr ⟨other, inside⟩

/-- The start of an owner's chain is taken off, and its parent becomes the start. -/
theorem pop {live' : ν → Prop} (forest : Forest parent top live path) (owner : ι) {node : ν}
    (starts : top owner = some node) (alive : ∀ other, live' other ↔ other ≠ node ∧ live other) :
    Forest parent (Function.update top owner (parent node)) live'
      (Function.update path owner (path owner).tail) := by
  -- The node occurs once on its own chain and on no other.
  have whole := forest.chain owner node starts
  have once := whole.nodup
  obtain ⟨rest, split⟩ := whole.head
  have elsewhere : ∀ other, other ≠ owner → node ∉ path other := fun other differ member =>
    forest.disjoint other owner differ member whole.top_mem
  rw [split] at once
  refine ⟨?_, ?_, ?_, ?_⟩
  · intro other start begins
    by_cases same : other = owner
    · subst same
      -- The parent of the node starts the tail of its chain.
      simp only [Function.update_self] at begins ⊢
      rcases forest.rest_chain starts with ⟨last, -⟩ | ⟨above, tail, up, shape, chain⟩
      · rw [last] at begins
        cases begins
      · rw [up] at begins
        cases begins
        rw [shape]
        exact chain
    · simp only [Function.update_of_ne same] at begins ⊢
      exact forest.chain other start begins
  · intro other empty
    by_cases same : other = owner
    · subst same
      simp only [Function.update_self] at empty ⊢
      rcases forest.rest_chain starts with ⟨-, shape⟩ | ⟨above, tail, up, -, -⟩
      · rw [shape]
        rfl
      · rw [up] at empty
        cases empty
    · simp only [Function.update_of_ne same] at empty ⊢
      exact forest.vacant other empty
  · exact disjoint_update forest.disjoint fun p member => .inl (List.mem_of_mem_tail member)
  · intro p
    rw [alive, forest.live_iff]
    constructor
    · -- A node that stays live keeps its owner.
      rintro ⟨differ, other, member⟩
      by_cases same : other = owner
      · refine ⟨owner, ?_⟩
        rw [same, split] at member
        simpa [split, differ] using member
      · exact ⟨other, by simpa [same] using member⟩
    · rintro ⟨other, member⟩
      rcases mem_update_iff.mp member with ⟨-, inside⟩ | ⟨differ, inside⟩
      · -- A chain never passes a node twice, so its tail does not have the start.
        refine ⟨?_, owner, List.mem_of_mem_tail inside⟩
        rintro rfl
        rw [split] at inside
        exact (List.nodup_cons.mp once).1 inside
      · refine ⟨?_, other, inside⟩
        rintro rfl
        exact elsewhere other differ inside

end Update

end Forest

end Foundation
