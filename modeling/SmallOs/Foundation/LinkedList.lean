import Mathlib.Data.List.Basic
import Mathlib.Logic.Function.Basic
import SmallOs.Foundation.Chain

/-! Singly linked lists in a heap: the nodes from a head pointer on, and nodes put in and taken out. -/

namespace Foundation

variable {ι : Type*}

/-- The nodes met from a pointer on, where the null pointer is `none`. -/
def Linked (next : ι → Option ι) (head : Option ι) (path : List ι) : Prop :=
  match head with
  | none => path = []
  | some node => Chain next node path

namespace Linked

variable {next other : ι → Option ι} {head : Option ι} {node : ι} {path front back : List ι}

/-- The null pointer is the empty list. -/
theorem null (next : ι → Option ι) : Linked next none [] :=
  rfl

/-- A list without nodes is the null pointer. -/
theorem head_of_nil (linked : Linked next head []) : head = none := by
  cases head with
  | none => rfl
  | some node =>
    -- A chain has its own start at least.
    obtain ⟨rest, impossible⟩ := Chain.head linked
    cases impossible

/-- A node in front of the list it points at. -/
theorem cons (rest : Linked next (next node) path) : Linked next (some node) (node :: path) := by
  unfold Linked at rest
  -- The node may be the last one.
  split at rest
  next last =>
    subst rest
    exact .root last
  next up => exact .link up rest

/-- The first node of a list is the one its head points at, and the others follow. -/
theorem uncons (linked : Linked next head (node :: path)) :
    head = some node ∧ Linked next (next node) path := by
  cases head with
  | none => cases linked
  | some start =>
    cases (show Chain next start (node :: path) from linked) with
    | root last => exact ⟨rfl, by rw [last]; rfl⟩
    | link up rest => exact ⟨rfl, by rw [up]; exact rest⟩

/-- A list that ends passes no node twice. -/
theorem nodup (linked : Linked next head path) : path.Nodup := by
  cases head with
  | none =>
    cases linked
    exact List.nodup_nil
  | some node => exact Chain.nodup linked

/-- A list depends on the links of its own nodes only. -/
theorem congr (linked : Linked next head path) (agree : ∀ p ∈ path, other p = next p) :
    Linked other head path := by
  cases head with
  | none => exact linked
  | some node => exact Chain.congr linked agree

/-- A fresh node that points at the head is put in front of the list. -/
theorem push [DecidableEq ι] (linked : Linked next head path) (fresh : node ∉ path) :
    Linked (Function.update next node head) (some node) (node :: path) := by
  refine cons ?_
  rw [Function.update_self]
  -- No node of the list is the one whose link was changed.
  exact linked.congr fun p member =>
    Function.update_of_ne (ne_of_mem_of_not_mem member fresh) _ _

/-- A node is taken out by letting the one before it point at the one behind it. -/
theorem unlink [DecidableEq ι] {before : ι}
    (linked : Linked next head (front ++ before :: node :: back)) :
    Linked (Function.update next before (next node)) head (front ++ before :: back) := by
  have distinct := linked.nodup
  -- The induction walks to the node whose link is changed.
  induction front generalizing head with
  | nil =>
    obtain ⟨rfl, rest⟩ := linked.uncons
    obtain ⟨-, tail⟩ := rest.uncons
    refine cons ?_
    rw [Function.update_self]
    refine tail.congr fun p member => Function.update_of_ne ?_ _ _
    rintro rfl
    simp [member] at distinct
  | cons first front ih =>
    obtain ⟨rfl, rest⟩ := linked.uncons
    have away : first ≠ before := by
      rintro rfl
      simp at distinct
    refine cons ?_
    rw [Function.update_of_ne away]
    exact ih rest (List.nodup_cons.mp distinct).2

end Linked

end Foundation
