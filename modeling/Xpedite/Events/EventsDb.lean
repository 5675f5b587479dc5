import Xpedite.Events.CmaskQualifier
import Xpedite.Lib.Fields

/-! Lookups by qualified names: what they return, and that they leave the events of the database alone. -/

namespace Xpedite.Events

open Lib

namespace EventsDb

variable {db : EventsDb} {eventName name : Text} {event : Nat}

section Frame

structure Keeps (before after : Arena UarchEvent) : Prop where
  size : before.size ≤ after.size
  cell : ∀ ref < before.size, after.cell ref = before.cell ref

theorem Keeps.trans {first second third : Arena UarchEvent} (earlier : Keeps first second)
    (later : Keeps second third) : Keeps first third where
  size := Nat.le_trans earlier.size later.size
  cell := fun ref old =>
    (later.cell ref (Nat.lt_of_lt_of_le old earlier.size)).trans (earlier.cell ref old)

theorem keeps_deepcopy (events : Arena UarchEvent) (event : Nat) :
    Keeps events (deepcopy events event).2 where
  size := Nat.le_succ _
  cell := fun _ old => Arena.cell_alloc_of_lt events _ old

theorem keeps_modify (events : Arena UarchEvent) {before : Arena UarchEvent}
    (keeps : Keeps before events) {event : Nat} (fresh : before.size ≤ event)
    (change : UarchEvent → UarchEvent) : Keeps before (events.modify event change) where
  size := keeps.size
  cell := by
    intro ref old
    rw [Arena.cell_modify_of_ne events change (by omega)]
    exact keeps.cell ref old

theorem getitem_keeps (db : EventsDb) (eventName : Text) :
    Keeps db.events (db.getitem eventName).2 := by
  have same : Keeps db.events db.events := ⟨Nat.le_refl _, fun _ _ => rfl⟩
  rw [getitem]
  split
  · exact same
  · dsimp only
    split
    · exact same
    · rename_i event _
      have copied := keeps_modify _ (keeps_deepcopy db.events event) (Nat.le_refl _)
        fun event => { event with name := some eventName }
      rw [applyQualifiers]
      split
      · exact copied
      · exact copied
      · exact keeps_modify _ copied (Nat.le_refl _) _

def lookup (db : EventsDb) (eventName : Text) : EventsDb where
  eventsMap := db.eventsMap
  events := (db.getitem eventName).2
  stored := fun entry member =>
    Nat.lt_of_lt_of_le (db.stored entry member) (db.getitem_keeps eventName).size

def lookups (db : EventsDb) (names : List Text) : EventsDb := names.foldl lookup db

theorem lookups_keep (db : EventsDb) (names : List Text) :
    (db.lookups names).eventsMap = db.eventsMap ∧ Keeps db.events (db.lookups names).events := by
  induction names generalizing db with
  | nil => exact ⟨rfl, Nat.le_refl _, fun _ _ => rfl⟩
  | cons eventName names ih =>
      obtain ⟨map, keeps⟩ := ih (db.lookup eventName)
      exact ⟨map, (db.getitem_keeps eventName).trans keeps⟩

end Frame

section Strip

theorem stripQualifier_of_colon {before behind : Text} (colon : ':' ∉ before)
    (line : '\n' ∉ before) :
    stripQualifier (before ++ ':' :: behind) = (before, some (behind.takeWhile Pattern.dot)) := by
  have accepted : ∀ char ∈ before, Pattern.dot char := by
    intro char member
    rw [Pattern.dot, bne_iff_ne]
    rintro rfl
    exact line member
  have last := Pattern.first_group (.many Pattern.dot) behind
  rw [Pattern.first_many] at last
  rw [stripQualifier, regEx, Pattern.first_few_literal _ accepted colon last]
  rfl

theorem stripQualifier_of_line {before behind : Text} (colon : ':' ∉ before)
    (line : '\n' ∈ before) :
    stripQualifier (before ++ ':' :: behind) = (before ++ ':' :: behind, none) := by
  have none : regEx.first (before ++ ':' :: behind) = none := by
    refine Pattern.first_few_literal_of_not _ fun other rest same accepted => ?_
    have within : '\n' ∉ other := fun member => absurd (accepted '\n' member) (by decide)
    rcases List.append_eq_append_iff.mp same with ⟨more, longer, -⟩ | ⟨more, shorter, tail⟩
    · exact within (longer ▸ List.mem_append_left more line)
    · cases more with
      | nil =>
          rw [List.append_nil] at shorter
          exact within (shorter ▸ line)
      | cons char more =>
          cases tail
          exact colon (shorter ▸ List.mem_append_right other List.mem_cons_self)
  rw [stripQualifier, none]

end Strip

section Lookup

theorem contains_of_key (key : db.eventsMap.get eventName = some event) :
    db.contains eventName = .ok true := by
  rw [contains, key]
  rfl

theorem getitem_of_key (key : db.eventsMap.get eventName = some event) :
    db.getitem eventName = (.ok (some event), db.events) := by
  rw [getitem, key]

theorem contains_of_unknown (missing : db.eventsMap.get eventName = none)
    (unknown : db.eventsMap.get (stripQualifier eventName).1 = none) :
    db.contains eventName = .ok false := by
  simp only [contains, missing, unknown, Option.isSome_none, Bool.false_eq_true, if_false]

theorem getitem_of_unknown (missing : db.eventsMap.get eventName = none)
    (unknown : db.eventsMap.get (stripQualifier eventName).1 = none) :
    db.getitem eventName = (.error (.keyError (stripQualifier eventName).1), db.events) := by
  simp only [getitem, missing, unknown]

theorem contains_of_known (missing : db.eventsMap.get eventName = none)
    (known : db.eventsMap.get (stripQualifier eventName).1 = some event) :
    db.contains eventName =
      (CmaskQualifier.match (stripQualifier eventName).2).map Option.isSome := by
  simp only [contains, missing, known, Option.isSome_none, Option.isSome_some, Bool.false_eq_true,
    if_false, if_true]

def renamed (db : EventsDb) (event : Nat) (eventName : Text) : Arena UarchEvent :=
  (deepcopy db.events event).2.modify db.events.size fun event => { event with name := some eventName }

theorem getitem_of_known (missing : db.eventsMap.get eventName = none)
    (known : db.eventsMap.get (stripQualifier eventName).1 = some event) :
    db.getitem eventName =
      applyQualifiers (db.renamed event eventName) db.events.size (stripQualifier eventName).2 := by
  simp only [getitem, missing, known]
  rfl

theorem renamed_cell (db : EventsDb) (event : Nat) (eventName : Text) :
    (db.renamed event eventName).cell db.events.size =
      { db.events.cell event with name := some eventName } := by
  rw [renamed, Arena.cell_modify_self, deepcopy, Arena.cell_alloc_fresh]

/-- Where `in` says yes, `[]` has an event, and nowhere else. -/
theorem contains_iff_getitem (db : EventsDb) (eventName : Text) :
    db.contains eventName = .ok true ↔ ∃ event, (db.getitem eventName).1 = .ok (some event) := by
  cases key : db.eventsMap.get eventName with
  | some event =>
      rw [contains_of_key key, getitem_of_key key]
      exact iff_of_true rfl ⟨event, rfl⟩
  | none =>
      cases known : db.eventsMap.get (stripQualifier eventName).1 with
      | none =>
          rw [contains_of_unknown key known, getitem_of_unknown key known]
          refine iff_of_false (by simp) ?_
          rintro ⟨event, found⟩
          cases found
      | some event =>
          rw [contains_of_known key known, getitem_of_known key known, applyQualifiers]
          cases CmaskQualifier.match (stripQualifier eventName).2 with
          | error error => simp [Except.map]
          | ok counterMask =>
              cases counterMask with
              | none => simp [Except.map]
              | some counterMask => simp [Except.map]

end Lookup

section Qualified

/-- A lookup gives a copy of the event with another name and counter mask. -/
structure Resolves (db : EventsDb) (event : Nat) (eventName : Text) (counterMask : Nat) : Prop where
  contained : db.contains eventName = .ok true
  copied : ∃ copy, (db.getitem eventName).1 = .ok (some copy) ∧ db.events.size ≤ copy ∧
    (db.getitem eventName).2.cell copy =
      { db.events.cell event with name := some eventName, counterMask := some (counterMask : Int) }

def rest (event : UarchEvent) : UarchEvent := { event with name := none, counterMask := none }

variable {qualifiers : Text} {other : Nat} {counterMask : Nat}

theorem not_resolves_of_key (key : db.eventsMap.get eventName = some other) :
    ¬db.Resolves event eventName counterMask := by
  rintro ⟨-, copy, found, fresh, -⟩
  rw [getitem_of_key key] at found
  cases found
  have old := db.stored (eventName, other) (OrderedDict.mem_of_get key)
  omega

theorem not_resolves_of_unknown (missing : db.eventsMap.get eventName = none)
    (unknown : db.eventsMap.get (stripQualifier eventName).1 = none) :
    ¬db.Resolves event eventName counterMask := by
  rintro ⟨contained, -⟩
  rw [contains_of_unknown missing unknown] at contained
  cases contained

theorem resolves_iff_of_known (missing : db.eventsMap.get eventName = none)
    (known : db.eventsMap.get (stripQualifier eventName).1 = some other)
    (stripped : (stripQualifier eventName).2 = some qualifiers) :
    db.Resolves event eventName counterMask ↔
      rest (db.events.cell other) = rest (db.events.cell event) ∧
        CmaskQualifier.ReadsMask qualifiers counterMask := by
  have found := getitem_of_known missing known
  rw [stripped, applyQualifiers] at found
  constructor
  · rintro ⟨-, copy, returned, -, cell⟩
    obtain ⟨mask, taken⟩ := CmaskQualifier.exists_match qualifiers
    rw [taken] at found
    rw [found] at returned cell
    cases mask with
    | none => cases returned
    | some mask =>
        cases returned
        rw [Arena.cell_modify_self, renamed_cell] at cell
        have sameRest := congrArg rest cell
        have sameMask : mask = counterMask :=
          Option.some.inj (congrArg UarchEvent.counterMask cell)
        rw [sameMask] at taken
        exact ⟨sameRest, CmaskQualifier.match_eq_iff.mp taken⟩
  · rintro ⟨same, reads⟩
    rw [CmaskQualifier.match_of_readsMask reads] at found
    have returned : (db.getitem eventName).1 = .ok (some db.events.size) := by rw [found]
    refine ⟨(contains_iff_getitem db eventName).mpr ⟨_, returned⟩, _, returned, Nat.le_refl _, ?_⟩
    rw [found, Arena.cell_modify_self, renamed_cell]
    have copied := congrArg (fun event : UarchEvent =>
      { event with name := some eventName, counterMask := some (counterMask : Int) }) same
    exact copied

end Qualified

section Names

def qualified (name : Text) (qualifier : Qualifier) : Text := name ++ ':' :: qualifier.text

/-- The name is split at its first colon; behind that, only a numeral written in base 16 is right. -/
inductive ReadRight (db : EventsDb) (name : Text) (event : Nat) (qualifier : Qualifier) : Prop
  | plain (colon : ':' ∉ name) (line : '\n' ∉ name) (plain : qualifier.numeral.Plain)
  -- the code takes another event and another qualifier, which happen to give the same
  | split {before behind : Text} {other : Nat} (whole : name = before ++ ':' :: behind)
      (colon : ':' ∉ before) (line : '\n' ∉ before) (known : db.eventsMap.get before = some other)
      (same : rest (db.events.cell other) = rest (db.events.cell event))
      (reads : CmaskQualifier.ReadsMask behind qualifier.numeral.value)

variable (qualifier : Qualifier)

theorem resolves_iff_of_no_colon (key : db.eventsMap.get name = some event)
    (missing : db.eventsMap.get (qualified name qualifier) = none) (colon : ':' ∉ name) :
    db.Resolves event (qualified name qualifier) qualifier.numeral.value ↔
      db.ReadRight name event qualifier := by
  by_cases line : '\n' ∈ name
  · have stripped := @stripQualifier_of_line name qualifier.text colon line
    have unknown : db.eventsMap.get (stripQualifier (qualified name qualifier)).1 = none := by
      rw [qualified, stripped]
      exact missing
    refine iff_of_false (not_resolves_of_unknown missing unknown) fun right => ?_
    cases right with
    | plain _ noLine => exact noLine line
    | split whole =>
        rw [whole] at colon
        exact colon (List.mem_append_right _ List.mem_cons_self)
  · have stripped := @stripQualifier_of_colon name qualifier.text colon line
    have known : db.eventsMap.get (stripQualifier (qualified name qualifier)).1 = some event := by
      rw [qualified, stripped]
      exact key
    have qualifiers : (stripQualifier (qualified name qualifier)).2 =
        some (qualifier.text.takeWhile Pattern.dot) := congrArg Prod.snd stripped
    rw [resolves_iff_of_known missing known qualifiers, and_iff_right rfl,
      CmaskQualifier.readsMask_takeWhile_iff, CmaskQualifier.readsMask_iff_plain]
    refine ⟨fun plain => .plain colon line plain, fun right => ?_⟩
    cases right with
    | plain _ _ plain => exact plain
    | split whole =>
        rw [whole] at colon
        exact absurd (List.mem_append_right _ List.mem_cons_self) colon

theorem resolves_iff_of_colon {before behind : Text}
    (missing : db.eventsMap.get (qualified (before ++ ':' :: behind) qualifier) = none)
    (colon : ':' ∉ before) :
    db.Resolves event (qualified (before ++ ':' :: behind) qualifier) qualifier.numeral.value ↔
      db.ReadRight (before ++ ':' :: behind) event qualifier := by
  have whole : qualified (before ++ ':' :: behind) qualifier =
      before ++ ':' :: (behind ++ ':' :: qualifier.text) := by
    rw [qualified, List.append_assoc, List.cons_append]
  by_cases line : '\n' ∈ before
  · have stripped := @stripQualifier_of_line before (behind ++ ':' :: qualifier.text) colon line
    have unknown : db.eventsMap.get
        (stripQualifier (qualified (before ++ ':' :: behind) qualifier)).1 = none := by
      rw [whole] at missing ⊢
      rw [stripped]
      exact missing
    refine iff_of_false (not_resolves_of_unknown missing unknown) fun right => ?_
    cases right with
    | plain noColon => exact noColon (List.mem_append_right _ List.mem_cons_self)
    | split same absent noLine =>
        rw [← (cut_at_first colon absent same).1] at noLine
        exact noLine line
  · have stripped := @stripQualifier_of_colon before (behind ++ ':' :: qualifier.text) colon line
    have name : (stripQualifier (qualified (before ++ ':' :: behind) qualifier)).1 = before := by
      rw [whole, stripped]
    have qualifiers : (stripQualifier (qualified (before ++ ':' :: behind) qualifier)).2 =
        some ((behind ++ ':' :: qualifier.text).takeWhile Pattern.dot) := by
      rw [whole, stripped]
    cases known : db.eventsMap.get before with
    | none =>
        rw [← name] at known
        refine iff_of_false (not_resolves_of_unknown missing known) fun right => ?_
        cases right with
        | plain noColon => exact noColon (List.mem_append_right _ List.mem_cons_self)
        | split same absent _ found =>
            rw [← (cut_at_first colon absent same).1, ← name, known] at found
            cases found
    | some other =>
        rw [resolves_iff_of_known missing (name ▸ known) qualifiers,
          CmaskQualifier.readsMask_colon_iff]
        constructor
        · rintro ⟨same, reads⟩
          exact .split rfl colon line known same reads
        · intro right
          cases right with
          | plain noColon => exact absurd (List.mem_append_right _ List.mem_cons_self) noColon
          | split same absent _ found sameRest reads =>
              obtain ⟨rfl, rfl⟩ := cut_at_first colon absent same
              rw [known] at found
              cases found
              exact ⟨sameRest, reads⟩

end Names

/--
Lookups leave the events as they are, and what `in` finds has an event.  A qualified name gives a
copy of its event with the value of the numeral for a counter mask exactly if it is no key itself
and is read right.
-/
theorem resolves_iff {db : EventsDb} {name : Text} {event : Nat}
    (key : db.eventsMap.get name = some event) (qualifier : Qualifier) :
    (∀ names, (db.lookups names).eventsMap = db.eventsMap ∧
        Keeps db.events (db.lookups names).events) ∧
      (∀ eventName, db.contains eventName = .ok true ↔
        ∃ found, (db.getitem eventName).1 = .ok (some found)) ∧
      (db.Resolves event (qualified name qualifier) qualifier.numeral.value ↔
        db.eventsMap.get (qualified name qualifier) = none ∧ db.ReadRight name event qualifier) := by
  refine ⟨db.lookups_keep, contains_iff_getitem db, ?_⟩
  cases missing : db.eventsMap.get (qualified name qualifier) with
  | some other =>
      refine iff_of_false (not_resolves_of_key missing) ?_
      rintro ⟨none, -⟩
      cases none
  | none =>
      rw [and_iff_right rfl]
      by_cases colon : ':' ∈ name
      · obtain ⟨before, behind, rfl, absent⟩ := List.eq_append_cons_of_mem colon
        exact resolves_iff_of_colon qualifier missing absent
      · exact resolves_iff_of_no_colon qualifier key missing colon

section Uops

def uops : UarchEvent where
  eventType := .genericCore
  name := some ['U', 'O', 'P', 'S']
  eventSelect := some (.code 0x0E)
  unitMask := some 1
  counterMask := some 0
  invert := some false
  briefDescription := some ['u', 'n', 'k', 'n', 'o', 'w', 'n']
  description := some ['u', 'n', 'k', 'n', 'o', 'w', 'n']
  validSmtPmc := some (.indices [0, 1, 2, 3])
  validPmc := some (.indices [0, 1, 2, 3, 4, 5, 6, 7])
  msrIndex := some ['0']
  msrValue := some 0
  anyThread := some 0
  edgeDetect := some false
  pebs := some false
  takenAlone := some false
  dataLA := some false
  l1HitIndication := some false
  errata := none
  isOffCore := false

def uopsDb : EventsDb where
  eventsMap := [(['U', 'O', 'P', 'S'], 0)]
  events := (Arena.empty uops).alloc uops
  stored := fun _ member => by
    cases List.mem_singleton.mp member
    exact Nat.one_pos

def sixDigits : Digits 10 where
  text := ['6']
  full := List.cons_ne_nil '6' []
  valid := List.forall_mem_singleton.mpr rfl

def tenDigits : Digits 10 where
  text := ['1', '0']
  full := List.cons_ne_nil '1' ['0']
  valid := List.forall_mem_cons.mpr ⟨rfl, List.forall_mem_singleton.mpr rfl⟩

theorem resolves_iff_uops :
    uopsDb.Resolves 0 ['U', 'O', 'P', 'S', ':', 'c', '6'] 6 ↔
      uopsDb.eventsMap.get ['U', 'O', 'P', 'S', ':', 'c', '6'] = none ∧
        uopsDb.ReadRight ['U', 'O', 'P', 'S'] 0 ⟨false, .decimal sixDigits⟩ :=
  (@resolves_iff uopsDb ['U', 'O', 'P', 'S'] 0 rfl ⟨false, .decimal sixDigits⟩).2.2

/-- `UOPS:c10` counts with a mask of 16. -/
theorem ten_not_resolved :
    ¬∀ (db : EventsDb) (name : Text) (event : Nat), db.eventsMap.get name = some event →
      ∀ qualifier, db.Resolves event (qualified name qualifier) qualifier.numeral.value := by
  intro all
  have resolves := all uopsDb ['U', 'O', 'P', 'S'] 0 rfl ⟨false, .decimal tenDigits⟩
  have colon : ':' ∉ ['U', 'O', 'P', 'S'] := by decide
  have right := (resolves_iff_of_no_colon _ rfl rfl colon).mp resolves
  cases right with
  | plain _ _ plain => exact Nat.lt_irrefl 10 plain
  | split whole =>
      rw [whole] at colon
      exact colon (List.mem_append_right _ List.mem_cons_self)

end Uops

end EventsDb

end Xpedite.Events
