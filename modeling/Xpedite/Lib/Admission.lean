import Mathlib.Data.List.Induction
import Xpedite.Lib.Filling

/-!
Items that come one after the other and are kept as long as there is room: each one is kept if
it fits in the room that is left, also when one before it did not fit.
-/

namespace Xpedite.Lib

variable {Item : Type} (size : Item → Nat)

def kept : Nat → List Item → List Item
  | _, [] => []
  | room, item :: items =>
      if size item ≤ room then item :: kept (room - size item) items else kept room items

/-- Behind the first item that does not fit, no item fits in the room left before it. -/
def NoneFitsLater (room : Nat) (items : List Item) : Prop :=
  ∀ before refused after, items = before ++ refused :: after → total size before ≤ room →
    room < total size before + size refused → ∀ later ∈ after, room < total size before + size later

/-- When the room was exceeded once, nothing is kept any more. -/
def StopsKeeping (room : Nat) (items : List Item) : Prop :=
  ∀ before after, items = before ++ after → room < total size before →
    kept size room items = kept size room before

theorem kept_cons (room : Nat) (item : Item) (items : List Item) :
    kept size room (item :: items) =
      if size item ≤ room then item :: kept size (room - size item) items
      else kept size room items :=
  rfl

theorem total_kept_le (room : Nat) (items : List Item) : total size (kept size room items) ≤ room := by
  induction items generalizing room with
  | nil => exact Nat.zero_le room
  | cons item items ih =>
      rw [kept_cons]
      split
      case isTrue fits =>
        have rest := ih (room - size item)
        rw [total_cons]
        omega
      case isFalse => exact ih room

theorem kept_append (room : Nat) (first second : List Item) :
    kept size room (first ++ second) = kept size room first ++
      kept size (room - total size (kept size room first)) second := by
  induction first generalizing room with
  | nil => rfl
  | cons item first ih =>
      rw [List.cons_append, kept_cons, kept_cons]
      split
      case isTrue fits =>
        rw [ih, List.cons_append, total_cons]
        congr 3
        omega
      case isFalse => exact ih room

theorem kept_eq_self {room : Nat} {items : List Item} (enough : total size items ≤ room) :
    kept size room items = items := by
  induction items generalizing room with
  | nil => rfl
  | cons item items ih =>
      rw [total_cons] at enough
      rw [kept_cons, if_pos (by omega), ih (by omega)]

theorem kept_eq_nil_iff {room : Nat} {items : List Item} :
    kept size room items = [] ↔ ∀ item ∈ items, room < size item := by
  induction items with
  | nil => exact iff_of_true rfl fun _ listed => absurd listed List.not_mem_nil
  | cons item items ih =>
      rw [kept_cons, List.forall_mem_cons]
      split
      case isTrue fits => exact iff_of_false (List.cons_ne_nil _ _) fun all => by omega
      case isFalse refused => rw [ih, and_iff_right (Nat.not_le.mp refused)]

theorem exists_refused {room : Nat} {items : List Item} (exceeded : room < total size items) :
    ∃ before refused after, items = before ++ refused :: after ∧ total size before ≤ room ∧
      room < total size before + size refused := by
  induction items using List.reverseRecOn with
  | nil => cases exceeded
  | append_singleton items item ih =>
      by_cases already : room < total size items
      · obtain ⟨before, refused, after, rfl, within, past⟩ := ih already
        exact ⟨before, refused, after ++ [item], by simp, within, past⟩
      · rw [total_append] at exceeded
        exact ⟨items, item, [], rfl, by omega, exceeded⟩

/-- Behind an item that does not fit, what is kept has to fit in the same room. -/
theorem kept_refused {room : Nat} {before : List Item} {refused : Item} (after : List Item)
    (within : total size before ≤ room) (past : room < total size before + size refused) :
    kept size room (before ++ refused :: after) =
      before ++ kept size (room - total size before) after := by
  rw [kept_append, kept_eq_self size within, kept_cons, if_neg (by omega)]

theorem NoneFitsLater.kept_eq {room : Nat} {items before after : List Item} {refused : Item}
    (none : NoneFitsLater size room items) (split : items = before ++ refused :: after)
    (within : total size before ≤ room) (past : room < total size before + size refused) :
    kept size room items = before := by
  have later := none before refused after split within past
  have nothing : kept size (room - total size before) after = [] := by
    apply (kept_eq_nil_iff size).mpr
    intro item listed
    have tooLarge := later item listed
    omega
  rw [split, kept_refused size after within past, nothing, List.append_nil]

theorem stopsKeeping_iff {room : Nat} {items : List Item} :
    StopsKeeping size room items ↔ NoneFitsLater size room items := by
  constructor
  · intro stops before refused after split within past later listed
    have same := stops (before ++ [refused]) after (by simp [split]) (by simpa using past)
    rw [split, kept_refused size after within past, kept_refused size [] within past,
      List.append_cancel_left_eq] at same
    have tooLarge := (kept_eq_nil_iff size).mp same later listed
    omega
  · intro none before after split exceeded
    obtain ⟨fitting, refused, rest, rfl, within, past⟩ := exists_refused size exceeded
    have parts : items = fitting ++ refused :: (rest ++ after) := by simp [split]
    have whole := none.kept_eq size parts within past
    have part : NoneFitsLater size room (fitting ++ refused :: rest) := by
      intro before' refused' after' split' within' past' later listed
      refine none before' refused' (after' ++ after) ?_ within' past' later
        (List.mem_append_left after listed)
      rw [split, split', List.append_assoc, List.cons_append]
    rw [whole, part.kept_eq size rfl within past]

theorem NoneFitsLater.kept_isPrefix {room : Nat} {items : List Item}
    (none : NoneFitsLater size room items) : kept size room items <+: items := by
  by_cases exceeded : room < total size items
  · obtain ⟨before, refused, after, split, within, past⟩ := exists_refused size exceeded
    rw [none.kept_eq size split within past, split]
    exact List.prefix_append before (refused :: after)
  · exact ⟨[], (List.append_nil _).trans (kept_eq_self size (Nat.not_lt.mp exceeded))⟩

end Xpedite.Lib
