import Mathlib.Data.List.Forall2

/-! Computations that may fail, taken apart where they succeed. -/

namespace Xpedite.Lib

section Fallible

variable {ε α β : Type}

theorem bind_eq_ok {first : Except ε α} {next : α → Except ε β} {result : β}
    (done : first >>= next = .ok result) :
    ∃ value, first = .ok value ∧ next value = .ok result := by
  cases first with
  | error cause => cases done
  | ok value => exact ⟨value, rfl, done⟩

theorem exists_eq_ok {result : Except ε α} (done : result.toBool = true) :
    ∃ value, result = .ok value := by
  cases result with
  | error cause => cases done
  | ok value => exact ⟨value, rfl⟩

theorem bind_of_eq_ok {first : Except ε α} {value : α} (done : first = .ok value)
    (next : α → Except ε β) : first >>= next = next value := by
  rw [done]
  rfl

theorem foldlM_keeps {step : β → α → Except ε β} {holds : β → Prop} {fine : α → Prop}
    (kept : ∀ state element next, holds state → fine element → step state element = .ok next →
      holds next)
    {elements : List α} {state final : β} (start : holds state)
    (allFine : ∀ element ∈ elements, fine element)
    (folded : elements.foldlM step state = .ok final) : holds final := by
  induction elements generalizing state with
  | nil =>
      cases folded
      exact start
  | cons element elements ih =>
      rw [List.foldlM_cons] at folded
      obtain ⟨next, taken, rest⟩ := bind_eq_ok folded
      exact ih (kept state element next start (allFine element List.mem_cons_self) taken)
        (fun other listed => allFine other (List.mem_cons_of_mem element listed)) rest

/-- What a step establishes for its element, and later steps keep, holds of all elements. -/
theorem foldlM_collects {step : β → α → Except ε β} {invariant : β → Prop} {has : α → β → Prop}
    (made : ∀ state element next, invariant state → step state element = .ok next →
      invariant next ∧ has element next)
    (kept : ∀ state element next other, invariant state → step state element = .ok next →
      has other state → has other next)
    {elements : List α} {state final : β} (start : invariant state)
    (folded : elements.foldlM step state = .ok final) : ∀ element ∈ elements, has element final := by
  induction elements generalizing state with
  | nil => simp
  | cons first elements ih =>
      rw [List.foldlM_cons] at folded
      obtain ⟨next, taken, rest⟩ := bind_eq_ok folded
      obtain ⟨holds, hasFirst⟩ := made state first next start taken
      rw [List.forall_mem_cons]
      refine ⟨?_, ih holds rest⟩
      have both : ∀ state element after, invariant state ∧ has first state → True →
          step state element = .ok after → invariant after ∧ has first after := by
        rintro state element after ⟨holds, hasFirst⟩ - taken
        exact ⟨(made state element after holds taken).1,
          kept state element after first holds taken hasFirst⟩
      exact (foldlM_keeps both ⟨holds, hasFirst⟩ (fun _ _ => trivial) rest).2

/-- A fold keeps what holds of the elements it has taken and the state it has come to. -/
theorem foldlM_grows {step : β → α → Except ε β} {holds : List α → β → Prop}
    (grows : ∀ taken state element next, holds taken state → step state element = .ok next →
      holds (taken ++ [element]) next)
    {taken elements : List α} {state final : β} (start : holds taken state)
    (folded : elements.foldlM step state = .ok final) : holds (taken ++ elements) final := by
  induction elements generalizing taken state with
  | nil =>
      cases folded
      rwa [List.append_nil]
  | cons element elements ih =>
      rw [List.foldlM_cons] at folded
      obtain ⟨next, stepped, rest⟩ := bind_eq_ok folded
      have known := ih (grows taken state element next start stepped) rest
      rwa [List.append_assoc, List.singleton_append] at known

theorem bind_cons_eq_ok_iff {first : Except ε α} {others : Except ε (List α)} {results : List α} :
    (first >>= fun item => others >>= fun items => pure (item :: items)) = .ok results ↔
      ∃ item items, first = .ok item ∧ others = .ok items ∧ results = item :: items := by
  constructor
  · intro done
    obtain ⟨item, here, done⟩ := bind_eq_ok done
    obtain ⟨items, rest, done⟩ := bind_eq_ok done
    exact ⟨item, items, here, rest, (Except.ok.inj done).symm⟩
  · rintro ⟨item, items, here, rest, rfl⟩
    rw [bind_of_eq_ok here, bind_of_eq_ok rest]
    rfl

theorem mapM_eq_ok_iff {f : α → Except ε β} {items : List α} {results : List β} :
    items.mapM f = .ok results ↔ List.Forall₂ (fun item result => f item = .ok result) items results := by
  induction items generalizing results with
  | nil =>
      rw [List.mapM_nil, List.forall₂_nil_left_iff]
      exact ⟨fun done => (Except.ok.inj done).symm, fun empty => congrArg Except.ok empty.symm⟩
  | cons item items ih =>
      rw [List.mapM_cons, bind_cons_eq_ok_iff, List.forall₂_cons_left_iff]
      simp only [ih]

theorem exists_mapM_eq_ok {f : α → Except ε β} {items : List α}
    (each : ∀ item ∈ items, ∃ result, f item = .ok result) : ∃ results, items.mapM f = .ok results := by
  induction items with
  | nil => exact ⟨[], rfl⟩
  | cons item items ih =>
      obtain ⟨result, first⟩ := each item List.mem_cons_self
      obtain ⟨results, rest⟩ := ih fun other listed => each other (List.mem_cons_of_mem item listed)
      exact ⟨result :: results, mapM_eq_ok_iff.mpr (.cons first (mapM_eq_ok_iff.mp rest))⟩

theorem map_eq_of_mapM {γ : Type} {f : α → Except ε β} {read : β → γ} {expected : α → γ}
    {items : List α} {results : List β} (done : items.mapM f = .ok results)
    (each : ∀ item ∈ items, ∀ result, f item = .ok result → read result = expected item) :
    results.map read = items.map expected := by
  have pairs := mapM_eq_ok_iff.mp done
  clear done
  induction pairs with
  | nil => rfl
  | cons first _ ih =>
      rw [List.map_cons, List.map_cons, each _ List.mem_cons_self _ first,
        ih fun item listed => each item (List.mem_cons_of_mem _ listed)]

theorem exists_map_of_mapM [Inhabited β] {f : α → Except ε β} {items : List α}
    {results : List β} (done : items.mapM f = .ok results) :
    ∃ read : α → β, results = items.map read ∧ ∀ item ∈ items, f item = .ok (read item) := by
  have pairs := mapM_eq_ok_iff.mp done
  refine ⟨fun item => (f item).toOption.getD default, ?_⟩
  clear done
  induction pairs with
  | nil => simp
  | @cons item result items results first _ ih =>
      refine ⟨?_, ?_⟩
      · rw [List.map_cons, ← ih.1, first]
        rfl
      · rw [List.forall_mem_cons]
        refine ⟨?_, ih.2⟩
        simp [first, Except.toOption]

theorem mapM_congr_left {f g : α → Except ε β} {items : List α}
    (same : ∀ item ∈ items, f item = g item) : items.mapM f = items.mapM g := by
  induction items with
  | nil => rfl
  | cons item items ih =>
      rw [List.mapM_cons, List.mapM_cons, same item List.mem_cons_self,
        ih fun other listed => same other (List.mem_cons_of_mem item listed)]

theorem exists_foldlM_eq_ok {step : β → α → Except ε β} {elements : List α}
    (each : ∀ state, ∀ element ∈ elements, ∃ next, step state element = .ok next) (state : β) :
    ∃ final, elements.foldlM step state = .ok final := by
  induction elements generalizing state with
  | nil => exact ⟨state, rfl⟩
  | cons element elements ih =>
      obtain ⟨next, taken⟩ := each state element List.mem_cons_self
      obtain ⟨final, rest⟩ :=
        ih (fun state other listed => each state other (List.mem_cons_of_mem element listed)) next
      rw [List.foldlM_cons, bind_of_eq_ok taken]
      exact ⟨final, rest⟩

end Fallible

end Xpedite.Lib
