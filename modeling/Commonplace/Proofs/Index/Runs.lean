import Commonplace.Proofs.Index.Steps
import Mathlib.Tactic.Tauto

namespace Commonplace
namespace Index
namespace Store

/-!
# Runs

What holds of a store after any number of operations.  A state that begins with one kind of
operation and ends with another is known from the past alone: the last operation of the first kind
was not followed by one of the second.
-/

variable [PatternEngine]

@[simp] theorem run_nil (store : Store) : store.run [] = store := rfl

@[simp] theorem run_cons (store : Store) (operation : Operation) (rest : List Operation) :
    store.run (operation :: rest) = (store.perform operation).1.run rest := rfl

/-- What every operation keeps holds after any number of them. -/
theorem run_invariant (holds : Store -> Prop)
    (kept : ∀ store operation, holds store → holds (store.perform operation).1)
    (history : List Operation) {store : Store} (first : holds store) :
    holds (store.run history) := by
  induction history generalizing store with
  | nil => exact first
  | cons operation rest inductionHypothesis =>
      exact inductionHypothesis (kept store operation first)

theorem onDisk_perform (store : Store) (operation : Operation) :
    (store.perform operation).1.onDisk = store.onDisk := by
  cases store.perform_move operation with
  | answered gives quiet => exact quiet.onDisk
  | refused gives quiet => exact quiet.onDisk
  | interrupted gives admitted stopped back => exact back.onDisk
  | published gives admitted goesOn asked written => exact written.onDisk
  | opened gives asked opened => exact opened.onDisk
  | shut gives asked shut => exact shut.onDisk

/-! ## What began and did not end -/

/-- No operation of a run is of a kind. -/
def Never (kind : Store -> Operation -> Prop) : Store -> List Operation -> Prop
  | _, [] => True
  | store, operation :: rest =>
      ¬ kind store operation ∧ Never kind (store.perform operation).1 rest

instance decidableNever {kind : Store -> Operation -> Prop}
    [decideKind : ∀ store operation, Decidable (kind store operation)] :
    ∀ store history, Decidable (Never kind store history)
  | _, [] => isTrue trivial
  | store, operation :: rest =>
      @instDecidableAnd _ _ (@instDecidableNot _ (decideKind store operation))
        (decidableNever (store.perform operation).1 rest)

/-- An operation of a run is of one kind, and no later one is of another. -/
def Since (event ending : Store -> Operation -> Prop) (store : Store)
    (history : List Operation) : Prop :=
  ∃ early operation late, history = early ++ operation :: late ∧
    event (store.run early) operation ∧
    Never ending (store.run (early ++ [operation])) late

theorem not_since_nil (event ending : Store -> Operation -> Prop) (store : Store) :
    ¬ Since event ending store [] := by
  rintro ⟨early, operation, late, parts, _⟩
  exact absurd parts.symm (List.append_ne_nil_of_right_ne_nil early (List.cons_ne_nil _ _))

theorem since_cons {event ending : Store -> Operation -> Prop} {store : Store}
    {operation : Operation} {rest : List Operation} :
    Since event ending store (operation :: rest) ↔
      (event store operation ∧ Never ending (store.perform operation).1 rest) ∨
        Since event ending (store.perform operation).1 rest := by
  constructor
  · rintro ⟨early, other, late, parts, happened, quiet⟩
    cases early with
    | nil =>
        rcases List.cons_eq_cons.mp parts with ⟨rfl, rfl⟩
        exact .inl ⟨happened, quiet⟩
    | cons head tail =>
        rcases List.cons_eq_cons.mp parts with ⟨rfl, rfl⟩
        exact .inr ⟨tail, other, late, rfl, happened, quiet⟩
  · rintro (⟨happened, quiet⟩ | ⟨early, other, late, rfl, happened, quiet⟩)
    · exact ⟨[], operation, rest, rfl, happened, quiet⟩
    · exact ⟨operation :: early, other, late, rfl, happened, quiet⟩

/-- A state that one kind of operation begins and another ends holds after a run when it was begun
and not ended since, or when it held at first and was never ended. -/
theorem run_iff_since (invariant holds : Store -> Prop) (event ending : Store -> Operation -> Prop)
    (kept : ∀ store operation, invariant store → invariant (store.perform operation).1)
    (step : ∀ store operation, invariant store →
      (holds (store.perform operation).1 ↔
        (holds store ∧ ¬ ending store operation) ∨ event store operation))
    (history : List Operation) {store : Store} (start : invariant store) :
    holds (store.run history) ↔
      (holds store ∧ Never ending store history) ∨ Since event ending store history := by
  induction history generalizing store with
  | nil =>
      constructor
      · intro now
        exact .inl ⟨now, trivial⟩
      · rintro (⟨now, _⟩ | since)
        · exact now
        · exact absurd since (not_since_nil event ending store)
  | cons operation rest inductionHypothesis =>
      -- The state after the first operation is the one with which the rest begins.
      rw [run_cons, inductionHypothesis (kept store operation start), since_cons,
        step store operation start]
      simp only [Never]
      tauto

end Store

end Index
end Commonplace
