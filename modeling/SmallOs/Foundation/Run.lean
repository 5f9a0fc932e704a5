import Mathlib.Data.List.Basic

/-! Finite runs of a partial labelled step, and the induction rules proofs about runs use. -/

namespace Foundation

variable {σ ε α : Type*}

/--
A finite run in which every step met a condition.

The condition reads the label and the state before the step, never the state after it.
-/
inductive Run (step : σ → ε → Option σ) (ok : σ → ε → Prop) : σ → List ε → σ → Prop where
  /-- The empty run stays where it starts. -/
  | nil (start : σ) : Run step ok start [] start
  /-- A run is extended by one step that meets the condition and is taken. -/
  | snoc {start before after : σ} {labels : List ε} {label : ε}
      (run : Run step ok start labels before) (met : ok before label)
      (taken : step before label = some after) : Run step ok start (labels ++ [label]) after

/-- The condition every step meets. -/
def Always (_ : σ) (_ : ε) : Prop :=
  -- Runs under this condition are the runs of the machine itself.
  True

instance (state : σ) (label : ε) : Decidable (Always state label) :=
  inferInstanceAs (Decidable True)

namespace Run

variable {step : σ → ε → Option σ} {ok : σ → ε → Prop}

/-- A property kept by every admitted step holds at the end of every run. -/
theorem invariant {start finish : σ} {labels : List ε}
    (run : Run step ok start labels finish) (holds : σ → Prop) (base : holds start)
    (kept : ∀ before label after, holds before → ok before label →
      step before label = some after → holds after) : holds finish := by
  -- The induction follows the run from its start, one appended step at a time.
  induction run with
  | nil => exact base
  | snoc _ met taken ih => exact kept _ _ _ ih met taken

/-- A weaker condition admits every run a stronger one admits. -/
theorem mono {weaker : σ → ε → Prop} {start finish : σ} {labels : List ε}
    (run : Run step ok start labels finish)
    (implied : ∀ state label, ok state label → weaker state label) :
    Run step weaker start labels finish := by
  -- The steps taken are the same, and each met the stronger condition.
  induction run with
  | nil => exact .nil _
  | snoc _ met taken ih => exact .snoc ih (implied _ _ met) taken

/-- Two runs meeting in one state join into one run. -/
theorem append {start middle finish : σ} {first second : List ε}
    (front : Run step ok start first middle) (back : Run step ok middle second finish) :
    Run step ok start (first ++ second) finish := by
  -- The second run is replayed on the end of the first.
  induction back with
  | nil => simpa using front
  | snoc _ met taken ih =>
    rw [← List.append_assoc]
    exact .snoc ih met taken

end Run

/-- A label leads to states with a property, wherever its step can be taken. -/
def Leads (step : σ → ε → Option σ) (holds : σ → Prop) (state : σ) (label : ε) : Prop :=
  ∀ after, step state label = some after → holds after

namespace Run

variable {step : σ → ε → Option σ} {ok : σ → ε → Prop}

/-- Under an invariant a condition may be exchanged for one that it implies there. -/
theorem exchange {other : σ → ε → Prop} {start finish : σ} {labels : List ε}
    (run : Run step ok start labels finish) (holds : σ → Prop) (base : holds start)
    (kept : ∀ before label after, holds before → ok before label →
      step before label = some after → holds after)
    (implied : ∀ before label after, holds before → ok before label →
      step before label = some after → other before label) : Run step other start labels finish := by
  -- The invariant holds before each step, since what comes before it is a run as well.
  induction run with
  | nil => exact .nil _
  | snoc run met taken ih =>
    exact .snoc ih (implied _ _ _ (run.invariant holds base kept) met taken) taken

/--
Every state of a run has a property exactly when every step of it meets a condition.

It is enough that from a state with the property a step keeps it exactly under the condition.
-/
theorem leads_iff {holds : σ → Prop} {start finish : σ} {labels : List ε} (base : holds start)
    (exact : ∀ before label after, holds before → step before label = some after →
      (holds after ↔ ok before label)) :
    Run step (Leads step holds) start labels finish ↔ Run step ok start labels finish := by
  constructor
  · intro run
    exact run.exchange holds base (fun _ _ after _ leads taken => leads after taken)
      fun before label after held leads taken => (exact before label after held taken).mp
        (leads after taken)
  · intro run
    refine run.exchange holds base (fun before label after held met taken =>
      (exact before label after held taken).mpr met) fun before label after held met _ => ?_
    -- The step that was taken does not matter, as the condition is about the label.
    intro other taken
    exact (exact before label other held taken).mpr met

end Run

/--
Every state of a run has a property exactly when every step of it meets a condition.

The two are to be equivalent in the states of an invariant, which every step keeps that leads to
the property.
-/
theorem Run.leads_iff_under {step : σ → ε → Option σ} {ok : σ → ε → Prop} {always holds : σ → Prop}
    {start finish : σ} {labels : List ε} (first : always start) (base : holds start)
    (kept : ∀ before label after, always before → holds after →
      step before label = some after → always after)
    (exact : ∀ before label after, always before → holds before →
      step before label = some after → (holds after ↔ ok before label)) :
    Run step (Leads step holds) start labels finish ↔ Run step ok start labels finish := by
  constructor
  · intro run
    exact run.exchange (fun s => always s ∧ holds s) ⟨first, base⟩
      (fun before label after inv leads taken =>
        ⟨kept before label after inv.1 (leads after taken) taken, leads after taken⟩)
      fun before label after inv leads taken =>
        (exact before label after inv.1 inv.2 taken).mp (leads after taken)
  · intro run
    refine run.exchange (fun s => always s ∧ holds s) ⟨first, base⟩
      (fun before label after inv met taken => ?_) fun before label after inv met _ => ?_
    · have held := (exact before label after inv.1 inv.2 taken).mpr met
      exact ⟨kept before label after inv.1 held taken, held⟩
    · -- As without an invariant, the condition is about the label.
      intro other taken
      exact (exact before label other inv.1 inv.2 taken).mpr met

/-- A machine with an observer, who remembers something of every step and never changes one. -/
def observed {τ : Type*} (step : σ → ε → Option σ) (watch : τ → σ → ε → σ → τ) (state : σ × τ)
    (label : ε) : Option (σ × τ) :=
  -- The observer sees the state before the step, its label, and the state after it.
  (step state.1 label).map fun next => (next, watch state.2 state.1 label next)

namespace Run

variable {τ : Type*} {step : σ → ε → Option σ} {watch : τ → σ → ε → σ → τ}
  {ok : σ × τ → ε → Prop} {start finish : σ} {first last : τ} {labels : List ε}

/-- What ties a state to the memory of it holds at the end when every step of the machine keeps it. -/
theorem observed_invariant (run : Run (observed step watch) ok (start, first) labels (finish, last))
    (holds : σ → τ → Prop) (base : holds start first)
    (kept : ∀ before memory label after, holds before memory → ok (before, memory) label →
      step before label = some after → holds after (watch memory before label after)) :
    holds finish last := by
  -- The observer's step is taken apart into the machine's step and what is remembered of it.
  refine run.invariant (fun state => holds state.1 state.2) base fun before label after held met
    taken => ?_
  simp only [observed, Option.map_eq_some_iff] at taken
  obtain ⟨next, moved, rfl⟩ := taken
  exact kept before.1 before.2 label next held met moved

/-- Without its observer, an observed run is a run of the machine. -/
theorem unobserved (run : Run (observed step watch) ok (start, first) labels (finish, last)) :
    Run step Always start labels finish := by
  -- The induction needs the last state as a variable of its own.
  generalize target : (finish, last) = after at run
  induction run generalizing finish last with
  | nil =>
    cases target
    exact .nil _
  | snoc _ _ taken ih =>
    simp only [observed, Option.map_eq_some_iff] at taken
    obtain ⟨next, moved, same⟩ := taken
    subst target
    cases same
    exact .snoc (ih rfl) trivial moved

end Run

/-- Execute a list of labels, stopping where a step is unavailable or its condition fails. -/
def replay (step : σ → ε → Option σ) (ok : σ → ε → Prop) [∀ s e, Decidable (ok s e)] :
    σ → List ε → Option σ
  | state, [] => some state
  | state, label :: labels =>
    -- The condition is decided before the step is tried.
    if ok state label then (step state label).bind fun next => replay step ok next labels
    else none

/-- Whatever the executable replay reaches is the end of a run. -/
theorem replay_run {step : σ → ε → Option σ} {ok : σ → ε → Prop}
    [∀ s e, Decidable (ok s e)] {start finish : σ} {labels : List ε}
    (reached : replay step ok start labels = some finish) :
    Run step ok start labels finish := by
  -- Each executed label contributes one step in front of the remaining run.
  induction labels generalizing start with
  | nil =>
    simp only [replay, Option.some.injEq] at reached
    subst reached
    exact .nil _
  | cons label labels ih =>
    simp only [replay] at reached
    split at reached
    · rename_i met
      obtain ⟨next, taken, rest⟩ := Option.bind_eq_some_iff.mp reached
      exact (Run.snoc (.nil start) met taken).append (ih rest)
    · simp at reached

end Foundation
