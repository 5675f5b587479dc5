import Mathlib.Data.List.Basic

/-!
Dictionaries of Python whose keys bring an equality of their own.  It need not be transitive,
so a key can be found at one that was stored for another, and keys that are equal to a third
one can be stored side by side.
-/

namespace Xpedite.Lib

namespace LooseDict

variable {Key Value : Type} (same : Key → Key → Bool)

def place (key : Key) (keys : List Key) : Option Nat := keys.findIdx? fun stored => same stored key

def get (key : Key) : List (Key × Value) → Option Value
  | [] => none
  | (stored, value) :: rest => if same stored key then some value else get key rest

/-- The key that was stored first stays. -/
def update (key : Key) (value : Value) : List (Key × Value) → List (Key × Value)
  | [] => [(key, value)]
  | (stored, old) :: rest =>
      if same stored key then (stored, value) :: rest else (stored, old) :: update key value rest

variable {same}

theorem place_cons (key stored : Key) (keys : List Key) :
    place same key (stored :: keys) =
      if same stored key then some 0 else (place same key keys).map (· + 1) := by
  rw [place, List.findIdx?_cons]
  rfl

theorem get_eq_none_iff {key : Key} {dict : List (Key × Value)} :
    get same key dict = none ↔ place same key (dict.map Prod.fst) = none := by
  induction dict with
  | nil => exact iff_of_true rfl rfl
  | cons entry rest ih =>
      rw [get, List.map_cons, place_cons]
      split
      case isTrue => exact iff_of_false nofun nofun
      case isFalse => rw [ih, Option.map_eq_none_iff]

theorem place_append {key : Key} {keys others : List Key} {position : Nat}
    (found : place same key keys = some position) :
    place same key (keys ++ others) = some position := by
  have found' : keys.findIdx? (fun stored => same stored key) = some position := found
  rw [place, List.findIdx?_append, found', Option.some_or]

theorem place_concat_self {key other : Key} {keys : List Key}
    (missed : place same key keys = none) (found : same other key = true) :
    place same key (keys ++ [other]) = some keys.length := by
  have missed' : keys.findIdx? (fun stored => same stored key) = none := missed
  rw [place, List.findIdx?_append, missed', Option.none_or, List.findIdx?_singleton, if_pos found]
  exact congrArg some (Nat.zero_add _)

theorem get_append (key : Key) (dict others : List (Key × Value)) :
    get same key (dict ++ others) = (get same key dict).or (get same key others) := by
  induction dict with
  | nil => rfl
  | cons entry rest ih =>
      rw [List.cons_append, get, get, ih]
      split
      case isTrue => rfl
      case isFalse => rfl

theorem place_cons_inj {key other stored : Key} {keys : List Key}
    (together : place same key (stored :: keys) = place same other (stored :: keys)) :
    same stored key = same stored other ∧
      (same stored key = false → place same key keys = place same other keys) := by
  rw [place_cons, place_cons] at together
  cases found : same stored key <;> cases found' : same stored other <;>
    rw [found, found'] at together
  · exact ⟨rfl, fun _ => Option.map_injective (fun _ _ => Nat.succ.inj) together⟩
  · obtain ⟨_, -, impossible⟩ := Option.map_eq_some_iff.mp together
    cases impossible
  · obtain ⟨_, -, impossible⟩ := Option.map_eq_some_iff.mp together.symm
    cases impossible
  · exact ⟨rfl, nofun⟩

theorem get_congr {key other : Key} {dict : List (Key × Value)}
    (together : place same key (dict.map Prod.fst) = place same other (dict.map Prod.fst)) :
    get same key dict = get same other dict := by
  induction dict with
  | nil => rfl
  | cons entry rest ih =>
      obtain ⟨alike, later⟩ := place_cons_inj together
      rw [get, get, ← alike]
      split
      case isTrue => rfl
      case isFalse missed => exact ih (later (Bool.eq_false_iff.mpr missed))

theorem keys_update (key : Key) (value : Value) (dict : List (Key × Value)) :
    (update same key value dict).map Prod.fst =
      if (get same key dict).isSome then dict.map Prod.fst else dict.map Prod.fst ++ [key] := by
  induction dict with
  | nil => rfl
  | cons entry rest ih =>
      rw [update, get]
      split
      case isTrue => rfl
      case isFalse =>
        rw [List.map_cons, ih]
        split
        case isTrue => rfl
        case isFalse => rfl

theorem update_of_missed {key : Key} (value : Value) {dict : List (Key × Value)}
    (missed : get same key dict = none) : update same key value dict = dict ++ [(key, value)] := by
  induction dict with
  | nil => rfl
  | cons entry rest ih =>
      rw [get] at missed
      split at missed
      case isTrue => cases missed
      case isFalse differ => rw [update, if_neg differ, ih missed, List.cons_append]

theorem get_update_self {key : Key} (value : Value) (dict : List (Key × Value))
    (itself : same key key = true) : get same key (update same key value dict) = some value := by
  induction dict with
  | nil => exact if_pos itself
  | cons entry rest ih =>
      rw [update]
      split
      case isTrue found => exact if_pos found
      case isFalse missed => exact (if_neg missed).trans ih

theorem get_update_together {key other : Key} (value : Value) {dict : List (Key × Value)}
    (present : (get same other dict).isSome = true)
    (together : place same key (dict.map Prod.fst) = place same other (dict.map Prod.fst)) :
    get same other (update same key value dict) = some value := by
  induction dict with
  | nil => cases present
  | cons entry rest ih =>
      obtain ⟨alike, later⟩ := place_cons_inj together
      rw [get, ← alike] at present
      rw [update]
      split
      case isTrue found => exact if_pos (alike ▸ found)
      case isFalse missed =>
        rw [if_neg missed] at present
        refine (if_neg (alike ▸ missed)).trans ?_
        exact ih present (later (Bool.eq_false_iff.mpr missed))

theorem get_update_apart {key other : Key} (value : Value) {dict : List (Key × Value)}
    (present : (get same other dict).isSome = true)
    (apart : place same key (dict.map Prod.fst) ≠ place same other (dict.map Prod.fst)) :
    get same other (update same key value dict) = get same other dict := by
  induction dict with
  | nil => cases present
  | cons entry rest ih =>
      rw [List.map_cons, place_cons, place_cons] at apart
      rw [update]
      rw [get] at present ⊢
      by_cases found' : same entry.1 other = true
      · rw [if_pos found'] at apart ⊢
        rw [if_neg fun found => apart (if_pos found)]
        exact if_pos found'
      · rw [if_neg found'] at apart present ⊢
        split
        case isTrue => exact if_neg found'
        case isFalse missed =>
          rw [if_neg missed] at apart
          rw [get, if_neg found']
          exact ih present fun together => apart (congrArg _ together)

theorem get_update_cases {key other : Key} {value result : Value} {dict : List (Key × Value)}
    (found : get same other (update same key value dict) = some result) :
    result = value ∨ get same other dict = some result := by
  induction dict with
  | nil =>
      rw [update, get] at found
      split at found
      case isTrue => exact .inl (Option.some.inj found).symm
      case isFalse => cases found
  | cons entry rest ih =>
      rw [update] at found
      split at found
      case isTrue =>
        rw [get] at found ⊢
        split at found
        case isTrue => exact .inl (Option.some.inj found).symm
        case isFalse missed => exact .inr ((if_neg missed).trans found)
      case isFalse =>
        rw [get] at found ⊢
        split at found
        case isTrue here => exact .inr ((if_pos here).trans found)
        case isFalse missed =>
          rw [if_neg missed]
          exact ih found

theorem isSome_get_update {key other : Key} (value : Value) {dict : List (Key × Value)}
    (present : (get same other dict).isSome = true) :
    (get same other (update same key value dict)).isSome = true := by
  by_cases together : place same key (dict.map Prod.fst) = place same other (dict.map Prod.fst)
  · rw [get_update_together value present together]
    rfl
  · rw [get_update_apart value present together]
    exact present

section Entries

variable {entries dict : List (Key × Value)}

theorem isSome_get_foldl (reflexive : ∀ key, same key key = true) {key : Key}
    (stored : (∃ value, (key, value) ∈ entries) ∨ (get same key dict).isSome = true) :
    (get same key
      (entries.foldl (fun dict entry => update same entry.1 entry.2 dict) dict)).isSome = true := by
  induction entries generalizing dict with
  | nil =>
      rcases stored with ⟨value, member⟩ | present
      · cases member
      · exact present
  | cons entry entries ih =>
      rw [List.foldl_cons]
      apply ih
      rcases stored with ⟨value, member⟩ | present
      · rcases List.mem_cons.mp member with rfl | later
        · right
          rw [get_update_self value dict (reflexive key)]
          rfl
        · exact .inl ⟨value, later⟩
      · exact .inr (isSome_get_update entry.2 present)

variable {Class : Type} {classOf : Key → Class}
variable (alike : ∀ first second, same first second = true → classOf first = classOf second)

include alike

theorem get_update_class {key other : Key} {value result : Value} {dict : List (Key × Value)}
    (found : get same other (update same key value dict) = some result) :
    (result = value ∧ classOf key = classOf other) ∨ get same other dict = some result := by
  induction dict with
  | nil =>
      rw [update, get] at found
      split at found
      case isTrue hit => exact .inl ⟨(Option.some.inj found).symm, alike key other hit⟩
      case isFalse => cases found
  | cons entry rest ih =>
      rw [update] at found
      split at found
      case isTrue stored =>
        rw [get] at found ⊢
        split at found
        case isTrue hit =>
          have together := (alike _ _ stored).symm.trans (alike _ _ hit)
          exact .inl ⟨(Option.some.inj found).symm, together⟩
        case isFalse missed => exact .inr ((if_neg missed).trans found)
      case isFalse =>
        rw [get] at found ⊢
        split at found
        case isTrue here => exact .inr ((if_pos here).trans found)
        case isFalse missed =>
          rw [if_neg missed]
          exact ih found

theorem get_foldl_class {key : Key} {result : Value}
    (found : get same key (entries.foldl (fun dict entry => update same entry.1 entry.2 dict) dict) =
      some result) :
    (∃ entry ∈ entries, entry.2 = result ∧ classOf entry.1 = classOf key) ∨
      get same key dict = some result := by
  induction entries generalizing dict with
  | nil => exact .inr found
  | cons entry entries ih =>
      rw [List.foldl_cons] at found
      rcases ih found with ⟨later, listed, holds⟩ | earlier
      · exact .inl ⟨later, List.mem_cons_of_mem entry listed, holds⟩
      · rcases get_update_class alike earlier with ⟨rfl, together⟩ | before
        · exact .inl ⟨entry, List.mem_cons_self, rfl, together⟩
        · exact .inr before

/-- The equality may be intransitive, as long as all values in the class of the key agree. -/
theorem get_foldl_of_uniform (reflexive : ∀ key, same key key = true) {key : Key} {value : Value}
    (listed : (key, value) ∈ entries)
    (uniform : ∀ entry ∈ entries, classOf entry.1 = classOf key → entry.2 = value) :
    get same key (entries.foldl (fun dict entry => update same entry.1 entry.2 dict) []) =
      some value := by
  have present := @isSome_get_foldl _ _ _ _ [] reflexive key (.inl ⟨value, listed⟩)
  obtain ⟨result, found⟩ := Option.isSome_iff_exists.mp present
  rcases get_foldl_class alike found with ⟨entry, member, rfl, together⟩ | absent
  · rw [found, uniform entry member together]
  · cases absent

end Entries

end LooseDict

end Xpedite.Lib
