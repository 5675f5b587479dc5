import Mathlib.Data.List.Infix

/-!
Python's `str.split` at a delimiter of several characters.  A field without the character
that marks the delimiter is given back as it is, whatever else stands in it.
-/

namespace Xpedite.Lib

/-- The first part of the text is what is left of a delimiter that has been found. -/
def splitFrom (delimiter : List Char) : Nat → List Char → List (List Char)
  | _, [] => [[]]
  | skipped + 1, _ :: rest => splitFrom delimiter skipped rest
  | 0, char :: rest =>
      if delimiter.isPrefixOf (char :: rest) then
        [] :: splitFrom delimiter (delimiter.length - 1) rest
      else (splitFrom delimiter 0 rest).modifyHead (char :: ·)

def split (delimiter text : List Char) : List (List Char) := splitFrom delimiter 0 text

theorem splitFrom_skip (delimiter skipped rest : List Char) :
    splitFrom delimiter skipped.length (skipped ++ rest) = split delimiter rest := by
  induction skipped with
  | nil => rfl
  | cons char skipped ih => exact ih

theorem forall_mem_intercalate {accepts : Char → Prop} {delimiter : List Char}
    {fields : List (List Char)} (between : ∀ char ∈ delimiter, accepts char)
    (inside : ∀ field ∈ fields, ∀ char ∈ field, accepts char) :
    ∀ char ∈ List.intercalate delimiter fields, accepts char := by
  induction fields with
  | nil =>
      intro char member
      cases member
  | cons field fields ih =>
      cases fields with
      | nil =>
          rw [List.intercalate_singleton]
          exact inside field List.mem_cons_self
      | cons next fields =>
          intro char member
          rw [List.intercalate_cons_cons, List.mem_append, List.mem_append] at member
          rcases member with (first | middle) | later
          · exact inside field List.mem_cons_self char first
          · exact between char middle
          · exact ih (fun other listed => inside other (List.mem_cons_of_mem _ listed)) char later

theorem intercalate_cons_eq (delimiter field : List Char) (fields : List (List Char)) :
    ∃ back, List.intercalate delimiter (field :: fields) = field ++ back := by
  cases fields with
  | nil => exact ⟨[], by rw [List.intercalate_singleton, List.append_nil]⟩
  | cons next fields =>
      exact ⟨delimiter ++ List.intercalate delimiter (next :: fields),
        by rw [List.intercalate_cons_cons, List.append_assoc]⟩

theorem intercalate_concat_eq (delimiter field : List Char) (fields : List (List Char)) :
    ∃ front, List.intercalate delimiter (fields ++ [field]) = front ++ field := by
  induction fields with
  | nil => exact ⟨[], List.intercalate_singleton⟩
  | cons other fields ih =>
      obtain ⟨front, joined⟩ := ih
      obtain ⟨next, rest, listed⟩ : ∃ next rest, fields ++ [field] = next :: rest :=
        List.exists_cons_of_ne_nil (List.append_ne_nil_of_right_ne_nil _ (List.cons_ne_nil _ _))
      refine ⟨other ++ delimiter ++ front, ?_⟩
      rw [List.cons_append, listed, List.intercalate_cons_cons, ← listed, joined]
      simp only [List.append_assoc]

theorem cut_at_first {mark : Char} {front other back later : List Char} (clean : mark ∉ front)
    (otherClean : mark ∉ other) (same : front ++ mark :: back = other ++ mark :: later) :
    front = other ∧ back = later := by
  induction front generalizing other with
  | nil =>
      cases other with
      | nil => exact ⟨rfl, (List.cons.inj same).2⟩
      | cons first other =>
          have first_eq : mark = first := (List.cons.inj same).1
          exact absurd (first_eq ▸ List.mem_cons_self) otherClean
  | cons char front ih =>
      rw [List.mem_cons, not_or] at clean
      cases other with
      | nil => exact absurd (List.cons.inj same).1.symm clean.1
      | cons first other =>
          rw [List.mem_cons, not_or] at otherClean
          obtain ⟨first_eq, rest⟩ := List.cons.inj same
          obtain ⟨front_eq, back_eq⟩ := ih clean.2 otherClean.2 rest
          exact ⟨by rw [first_eq, front_eq], back_eq⟩

section Marked

variable {mark : Char} {opening closing : List Char}

theorem not_prefix_of_unmarked {text rest : List Char} (unmarked : mark ∉ text)
    (enough : opening.length < text.length) :
    ¬opening ++ mark :: closing <+: text ++ rest := by
  rintro ⟨behind, same⟩
  have place := congrArg (·[opening.length]?) same
  simp only [List.append_assoc] at place
  rw [List.getElem?_append_right (Nat.le_refl _), Nat.sub_self, List.cons_append,
    List.getElem?_cons_zero, List.getElem?_append_left enough] at place
  exact unmarked (List.mem_of_getElem? place.symm)

theorem split_unmarked {field : List Char} (unmarked : mark ∉ field) :
    split (opening ++ mark :: closing) field = [field] := by
  induction field with
  | nil => rfl
  | cons char field ih =>
      have no : ¬(opening ++ mark :: closing).isPrefixOf (char :: field) = true := by
        rw [List.isPrefixOf_iff_prefix]
        intro starts
        exact unmarked (starts.subset (List.mem_append_right _ List.mem_cons_self))
      have later := ih (fun inside => unmarked (List.mem_cons_of_mem _ inside))
      rw [split] at later ⊢
      rw [splitFrom, if_neg no, later, List.modifyHead_cons]

variable (clean : mark ∉ opening)

include clean

theorem split_field {field : List Char} (unmarked : mark ∉ field) (rest : List Char) :
    split (opening ++ mark :: closing) (field ++ (opening ++ mark :: closing) ++ rest) =
      field :: split (opening ++ mark :: closing) rest := by
  induction field with
  | nil =>
      obtain ⟨char, others, delimiter⟩ :
          ∃ char others, opening ++ mark :: closing = char :: others := by
        cases opening with
        | nil => exact ⟨mark, closing, rfl⟩
        | cons char opening => exact ⟨char, opening ++ mark :: closing, rfl⟩
      rw [List.nil_append, delimiter, List.cons_append, split, splitFrom, if_pos]
      · exact congrArg _ (splitFrom_skip (char :: others) others rest)
      · rw [List.isPrefixOf_iff_prefix, ← List.cons_append]
        exact List.prefix_append _ _
  | cons char field ih =>
      have later := ih (fun inside => unmarked (List.mem_cons_of_mem _ inside))
      have no : ¬(opening ++ mark :: closing).isPrefixOf
          (char :: field ++ (opening ++ mark :: closing) ++ rest) = true := by
        have before : mark ∉ char :: field ++ opening := by
          rw [List.mem_append, not_or]
          exact ⟨unmarked, clean⟩
        have text : char :: field ++ (opening ++ mark :: closing) ++ rest =
            (char :: field ++ opening) ++ (mark :: closing ++ rest) := by
          simp only [List.append_assoc]
        rw [List.isPrefixOf_iff_prefix, text]
        refine not_prefix_of_unmarked before ?_
        rw [List.length_append, List.length_cons]
        omega
      rw [split] at later ⊢
      rw [List.cons_append, List.cons_append] at no ⊢
      rw [splitFrom, if_neg no, later, List.modifyHead_cons]

theorem split_intercalate {fields : List (List Char)} (full : fields ≠ [])
    (unmarked : ∀ field ∈ fields, mark ∉ field) :
    split (opening ++ mark :: closing) (List.intercalate (opening ++ mark :: closing) fields) =
      fields := by
  induction fields with
  | nil => exact absurd rfl full
  | cons field fields ih =>
      have first := unmarked field List.mem_cons_self
      cases fields with
      | nil =>
          rw [List.intercalate_singleton]
          exact split_unmarked first
      | cons next fields =>
          have later := ih (List.cons_ne_nil _ _)
            (fun other inside => unmarked other (List.mem_cons_of_mem _ inside))
          rw [List.intercalate_cons_cons, split_field clean first, later]

end Marked

end Xpedite.Lib
