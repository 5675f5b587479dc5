import Mathlib.Data.Option.Basic

/-!
Runs of a deterministic labelled transition system.  An action that is not
enabled has no successor; `run` follows a whole list of actions and `Along`
states a side condition on every step the run takes.
-/

namespace Xpedite.Lib

variable {State Action : Type}

def run (step : State → Action → Option State) : State → List Action → Option State
  | state, [] => some state
  | state, action :: rest => (step state action).bind (run step · rest)

def Along (step : State → Action → Option State) (allowed : State → Action → Prop) :
    State → List Action → Prop
  | _, [] => True
  | state, action :: rest =>
      allowed state action ∧ ∀ next, step state action = some next → Along step allowed next rest

instance Along.decidable (step : State → Action → Option State)
    (allowed : State → Action → Prop) [∀ state action, Decidable (allowed state action)] :
    ∀ state actions, Decidable (Along step allowed state actions)
  | _, [] => isTrue trivial
  | state, action :: rest =>
      match taken : step state action with
      | none => decidable_of_iff (allowed state action) (by simp [Along, taken])
      | some next =>
          have := Along.decidable step allowed next rest
          decidable_of_iff (allowed state action ∧ Along step allowed next rest)
            (by simp [Along, taken])

theorem run_cons_eq_some {step : State → Action → Option State} {state final : State}
    {action : Action} {rest : List Action} (reached : run step state (action :: rest) = some final) :
    ∃ next, step state action = some next ∧ run step next rest = some final :=
  Option.bind_eq_some_iff.mp reached

theorem run_eq_foldlM (step : State → Action → Option State) (state : State)
    (actions : List Action) : run step state actions = actions.foldlM step state := by
  induction actions generalizing state with
  | nil => rfl
  | cons action rest ih =>
      rw [run, List.foldlM_cons]
      exact Option.bind_congr fun next _ => ih next

theorem run_append (step : State → Action → Option State) (state : State)
    (earlier later : List Action) :
    run step state (earlier ++ later) = (run step state earlier).bind (run step · later) := by
  simp only [run_eq_foldlM, List.foldlM_append]
  rfl

theorem run_snoc (step : State → Action → Option State) (state : State)
    (earlier : List Action) (last : Action) :
    run step state (earlier ++ [last]) = (run step state earlier).bind (step · last) := by
  rw [run_append]
  refine Option.bind_congr fun middle _ => ?_
  rw [run]
  cases step middle last with
  | none => rfl
  | some next => rfl

theorem run_invariant {step : State → Action → Option State} {allowed : State → Action → Prop}
    {invariant : State → Prop}
    (kept : ∀ state action next, allowed state action → step state action = some next →
      invariant state → invariant next)
    {actions : List Action} {state final : State} (holds : invariant state)
    (along : Along step allowed state actions) (reached : run step state actions = some final) :
    invariant final := by
  induction actions generalizing state with
  | nil =>
      cases reached
      exact holds
  | cons action rest ih =>
      obtain ⟨next, taken, reached⟩ := run_cons_eq_some reached
      exact ih (kept state action next along.1 taken holds) (along.2 next taken) reached

/--
If a step keeps a property exactly when it is an allowed one, then a run has the property
throughout exactly when all its steps are allowed.
-/
theorem throughout_iff_along {step : State → Action → Option State}
    {allowed : State → Action → Prop} {property : State → Prop}
    (exact_ : ∀ state action next, property state → step state action = some next →
      (property next ↔ allowed state action))
    {actions : List Action} {state final : State} (holds : property state)
    (reached : run step state actions = some final) :
    (∀ earlier later middle, actions = earlier ++ later →
        run step state earlier = some middle → property middle) ↔
      Along step allowed state actions := by
  induction actions generalizing state with
  | nil =>
      refine iff_of_true ?_ trivial
      intro earlier later middle split stops
      obtain ⟨rfl, -⟩ := List.append_eq_nil_iff.mp split.symm
      cases stops
      exact holds
  | cons action rest ih =>
      obtain ⟨next, taken, continued⟩ := run_cons_eq_some reached
      have first := exact_ state action next holds taken
      constructor
      · intro throughout
        have holdsNext : property next :=
          throughout [action] rest next rfl (by rw [run, taken]; rfl)
        refine ⟨first.mp holdsNext, ?_⟩
        intro other same
        obtain rfl : next = other := Option.some_inj.mp (taken.symm.trans same)
        refine (ih holdsNext continued).mp ?_
        intro earlier later middle split stops
        refine throughout (action :: earlier) later middle (by rw [split]; rfl) ?_
        rw [run, taken, Option.bind_some, stops]
      · intro along earlier later middle split stops
        have holdsNext := first.mpr along.1
        cases earlier with
        | nil =>
            cases stops
            exact holds
        | cons other earlier =>
            obtain ⟨rfl, tails⟩ := List.cons_eq_cons.mp split
            rw [run, taken, Option.bind_some] at stops
            exact (ih holdsNext continued).mpr (along.2 next taken) earlier later middle tails stops

theorem along_of_forall_mem (step : State → Action → Option State) {admitted : Action → Prop}
    {actions : List Action} (all : ∀ action ∈ actions, admitted action) (state : State) :
    Along step (fun _ action => admitted action) state actions := by
  induction actions generalizing state with
  | nil => trivial
  | cons action rest ih =>
      refine ⟨all action List.mem_cons_self, fun next _ => ih ?_ next⟩
      intro other inside
      exact all other (List.mem_cons_of_mem action inside)

theorem run_keeps {step : State → Action → Option State} {invariant : State → Prop}
    (kept : ∀ state action next, invariant state → step state action = some next → invariant next)
    {actions : List Action} {state final : State} (start : invariant state)
    (reached : run step state actions = some final) : invariant final :=
  @run_invariant _ _ step (fun _ _ => True) invariant
    (fun state action next _ taken holds => kept state action next holds taken) actions state final
    start (along_of_forall_mem step (fun _ _ => trivial) state) reached

/-- The same for a property that a step keeps exactly when it is allowed, given an invariant. -/
theorem throughout_iff_along_of_invariant {step : State → Action → Option State}
    {allowed : State → Action → Prop} {invariant property : State → Prop}
    (kept : ∀ state action next, invariant state → step state action = some next → invariant next)
    (exact_ : ∀ state action next, invariant state → property state →
      step state action = some next → (property next ↔ allowed state action))
    {actions : List Action} {state final : State} (start : invariant state)
    (holds : property state) (reached : run step state actions = some final) :
    (∀ earlier later middle, actions = earlier ++ later →
        run step state earlier = some middle → property middle) ↔
      Along step allowed state actions := by
  have both : ∀ state action next, invariant state ∧ property state →
      step state action = some next → (invariant next ∧ property next ↔ allowed state action) := by
    intro state action next holds taken
    rw [← exact_ state action next holds.1 holds.2 taken]
    exact and_iff_right (kept state action next holds.1 taken)
  rw [← throughout_iff_along both ⟨start, holds⟩ reached]
  constructor
  · intro throughout earlier later middle split stops
    exact ⟨run_keeps kept start stops, throughout earlier later middle split stops⟩
  · intro throughout earlier later middle split stops
    exact (throughout earlier later middle split stops).2

theorem isSome_foldlM_iff {α β : Type} {step : β → α → Option β} {fine : α → Prop}
    (exact_ : ∀ state element, (step state element).isSome = true ↔ fine element)
    (elements : List α) (state : β) :
    (elements.foldlM step state).isSome = true ↔ ∀ element ∈ elements, fine element := by
  induction elements generalizing state with
  | nil => simp
  | cons element elements ih =>
      rw [List.foldlM_cons, List.forall_mem_cons, ← exact_ state element]
      cases step state element with
      | none => simp
      | some next => simpa using ih next

end Xpedite.Lib
