import Mathlib.Data.List.Basic

/-!
Steps that change a state and may fail.  What follows a failure is skipped; what was done before
it stays done.
-/

namespace Xpedite.Lib

structure Outcome (State : Type) where
  err : Bool
  state : State

variable {State Item Other : Type}

namespace Outcome

def ifOk (outcome : Outcome State) (next : State → Outcome State) : Outcome State :=
  if outcome.err then outcome else next outcome.state

theorem ifOk_assoc (outcome : Outcome State) (next last : State → Outcome State) :
    (outcome.ifOk next).ifOk last = outcome.ifOk fun state => (next state).ifOk last := by
  rw [ifOk, ifOk, ifOk]
  cases failed : outcome.err with
  | true => simp [failed]
  | false => simp [ifOk]

end Outcome

def attemptAll (step : Item → State → Outcome State) : List Item → State → Outcome State
  | [], state => ⟨false, state⟩
  | item :: items, state => (step item state).ifOk (attemptAll step items)

section AttemptAll

variable {step : Item → State → Outcome State}

theorem attemptAll_cons (item : Item) (items : List Item) (state : State) :
    attemptAll step (item :: items) state = (step item state).ifOk (attemptAll step items) :=
  rfl

theorem attemptAll_singleton (item : Item) (state : State) :
    attemptAll step [item] state = step item state := by
  rw [attemptAll_cons, Outcome.ifOk]
  cases done : step item state with
  | mk err after =>
      cases err with
      | true => rfl
      | false => rfl

theorem attemptAll_append (first second : List Item) (state : State) :
    attemptAll step (first ++ second) state =
      (attemptAll step first state).ifOk (attemptAll step second) := by
  induction first generalizing state with
  | nil => rfl
  | cons item first ih =>
      rw [List.cons_append, attemptAll_cons, attemptAll_cons, Outcome.ifOk_assoc]
      exact congrArg _ (funext ih)

theorem attemptAll_flatMap (parts : Other → List Item) (others : List Other) (state : State) :
    attemptAll step (others.flatMap parts) state =
      attemptAll (fun other => attemptAll step (parts other)) others state := by
  induction others generalizing state with
  | nil => rfl
  | cons other others ih =>
      rw [List.flatMap_cons, attemptAll_append, attemptAll_cons]
      exact congrArg _ (funext ih)

theorem attemptAll_map (item : Other → Item) (others : List Other) (state : State) :
    attemptAll step (others.map item) state =
      attemptAll (fun other => step (item other)) others state := by
  induction others generalizing state with
  | nil => rfl
  | cons other others ih =>
      rw [List.map_cons, attemptAll_cons, attemptAll_cons]
      exact congrArg _ (funext ih)

/-- What each step keeps, whether it fails or not, is kept by all of them. -/
theorem attemptAll_keeps {holds : State → Prop} {items : List Item}
    (kept : ∀ item ∈ items, ∀ state, holds state → holds (step item state).state) {state : State}
    (start : holds state) : holds (attemptAll step items state).state := by
  induction items generalizing state with
  | nil => exact start
  | cons item items ih =>
      have first := kept item List.mem_cons_self state start
      rw [attemptAll_cons, Outcome.ifOk]
      split
      · exact first
      · exact ih (fun other listed => kept other (List.mem_cons_of_mem item listed)) first

end AttemptAll

end Xpedite.Lib
