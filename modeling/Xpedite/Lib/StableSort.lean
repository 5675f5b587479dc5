import Mathlib.Data.List.Sort

/-!
Insertion sort by a key in a linear order.  Sorting a part first does not change what
sorting the whole gives, also among entries of one key.
-/

namespace Xpedite.Lib

variable {α β : Type*} [LinearOrder β] (key : α → β)

def sortBy (entries : List α) : List α :=
  entries.insertionSort fun first second => key first ≤ key second

def insertBy (entry : α) (entries : List α) : List α :=
  entries.orderedInsert (fun first second => key first ≤ key second) entry

variable {key}

theorem insertBy_cons_of_le {entry first : α} {rest : List α} (le : key entry ≤ key first) :
    insertBy key entry (first :: rest) = entry :: first :: rest := by
  simp [insertBy, le]

theorem insertBy_cons_of_lt {entry first : α} {rest : List α} (lt : key first < key entry) :
    insertBy key entry (first :: rest) = first :: insertBy key entry rest := by
  simp [insertBy, not_le.mpr lt]

theorem insertBy_comm {smaller larger : α} (lt : key smaller < key larger) (entries : List α) :
    insertBy key smaller (insertBy key larger entries) =
      insertBy key larger (insertBy key smaller entries) := by
  induction entries with
  | nil => simp [insertBy, lt.le, not_le.mpr lt]
  | cons first rest ih =>
      rcases le_or_gt (key larger) (key first) with after | before
      · rw [insertBy_cons_of_le after, insertBy_cons_of_le lt.le,
          insertBy_cons_of_le (lt.le.trans after), insertBy_cons_of_lt lt,
          insertBy_cons_of_le after]
      · rw [insertBy_cons_of_lt before]
        rcases le_or_gt (key smaller) (key first) with between | behind
        · rw [insertBy_cons_of_le between, insertBy_cons_of_le between, insertBy_cons_of_lt lt,
            insertBy_cons_of_lt before]
        · rw [insertBy_cons_of_lt behind, insertBy_cons_of_lt behind, insertBy_cons_of_lt before, ih]

theorem foldr_insertBy (entry : α) (entries start : List α) :
    (insertBy key entry entries).foldr (insertBy key) start =
      insertBy key entry (entries.foldr (insertBy key) start) := by
  induction entries with
  | nil => rfl
  | cons first rest ih =>
      rcases le_or_gt (key entry) (key first) with le | lt
      · rw [insertBy_cons_of_le le]
        rfl
      · rw [insertBy_cons_of_lt lt, List.foldr_cons, ih, insertBy_comm lt, List.foldr_cons]

theorem sortBy_append (first second : List α) :
    sortBy key (first ++ second) = first.foldr (insertBy key) (sortBy key second) := by
  rw [sortBy, List.insertionSort, List.foldr_append]
  rfl

theorem sortBy_cons (entry : α) (entries : List α) :
    sortBy key (entry :: entries) = insertBy key entry (sortBy key entries) := rfl

theorem sortBy_sortBy_append (first second : List α) :
    sortBy key (sortBy key first ++ second) = sortBy key (first ++ second) := by
  rw [sortBy_append, sortBy_append]
  induction first with
  | nil => rfl
  | cons entry rest ih => rw [sortBy_cons, foldr_insertBy, ih, List.foldr_cons]

theorem sortBy_perm (key : α → β) (entries : List α) :
    (sortBy key entries).Perm entries := List.perm_insertionSort _ _

theorem sortBy_pairwise (key : α → β) (entries : List α) :
    (sortBy key entries).Pairwise fun first second => key first ≤ key second := by
  have total : Std.Total fun first second : α => key first ≤ key second :=
    ⟨fun first second => le_total (key first) (key second)⟩
  have transitive : IsTrans α fun first second => key first ≤ key second :=
    ⟨fun _ _ _ => le_trans⟩
  exact List.pairwise_insertionSort _ _

theorem find?_insertBy [DecidableEq β] (wanted : β) (entry : α) (entries : List α) :
    (insertBy key entry entries).find? (fun other => key other == wanted) =
      (entry :: entries).find? fun other => key other == wanted := by
  induction entries with
  | nil => rfl
  | cons first rest ih =>
      rcases le_or_gt (key entry) (key first) with le | lt
      · rw [insertBy_cons_of_le le]
      · rw [insertBy_cons_of_lt lt]
        by_cases found : key first = wanted
        · have other : key entry ≠ wanted := fun same => lt.ne' (same.trans found.symm)
          simp [found, other]
        · rw [List.find?_cons_of_neg (by simpa using found), ih]
          simp [List.find?_cons, found]

/-- A stable sort keeps the first entry of each key the first. -/
theorem find?_sortBy [DecidableEq β] (wanted : β) (entries : List α) :
    (sortBy key entries).find? (fun other => key other == wanted) =
      entries.find? fun other => key other == wanted := by
  induction entries with
  | nil => rfl
  | cons entry rest ih =>
      rw [sortBy_cons, find?_insertBy, List.find?_cons, ih, List.find?_cons]

section Stable

variable {α : Type*} {r : α → α → Prop} [DecidableRel r] {holds : α → α → Prop}

theorem pairwise_orderedInsert_of_pairwise {entry : α} {entries : List α}
    (kept : (entry :: entries).Pairwise holds)
    (swapped : ∀ first second, ¬ r first second → holds second first) :
    (entries.orderedInsert r entry).Pairwise holds := by
  induction entries with
  | nil => exact List.pairwise_singleton _ _
  | cons first rest ih =>
      obtain ⟨before, keptRest⟩ := List.pairwise_cons.mp kept
      by_cases stays : r entry first
      · rw [List.orderedInsert_cons_of_le r rest stays]
        exact kept
      · rw [List.orderedInsert_of_not_le r rest stays]
        obtain ⟨ahead, keptOthers⟩ := List.pairwise_cons.mp keptRest
        refine List.pairwise_cons.mpr ⟨?_, ih (List.pairwise_cons.mpr ⟨?_, keptOthers⟩)⟩
        · intro other member
          rcases (List.mem_orderedInsert r).mp member with rfl | behind
          · exact swapped _ _ stays
          · exact ahead other behind
        · exact fun other behind => before other (List.mem_cons_of_mem _ behind)

/-- A stable sort keeps what holds of any two entries in their order, if it also holds of those it
swaps. -/
theorem pairwise_insertionSort_of_pairwise {entries : List α} (kept : entries.Pairwise holds)
    (swapped : ∀ first second, ¬ r first second → holds second first) :
    (entries.insertionSort r).Pairwise holds := by
  induction entries with
  | nil => exact List.Pairwise.nil
  | cons entry rest ih =>
      obtain ⟨before, keptRest⟩ := List.pairwise_cons.mp kept
      refine pairwise_orderedInsert_of_pairwise (List.pairwise_cons.mpr ⟨?_, ih keptRest⟩) swapped
      exact fun other member => before other ((List.mem_insertionSort r).mp member)

end Stable

end Xpedite.Lib
