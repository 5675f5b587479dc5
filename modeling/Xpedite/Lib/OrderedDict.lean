import Mathlib.Data.List.Basic

/-!
Dictionaries of Python, which keep the order in which their keys came: an update of a key
that is there leaves it where it is.
-/

namespace Xpedite.Lib

abbrev OrderedDict (Key Value : Type) : Type := List (Key × Value)

namespace OrderedDict

variable {Key Value : Type}

def keys (dict : OrderedDict Key Value) : List Key := dict.map Prod.fst

variable [DecidableEq Key]

def get (key : Key) : OrderedDict Key Value → Option Value
  | [] => none
  | (other, value) :: rest => if other = key then some value else get key rest

def update (key : Key) (value : Value) : OrderedDict Key Value → OrderedDict Key Value
  | [] => [(key, value)]
  | (other, old) :: rest =>
      if other = key then (key, value) :: rest else (other, old) :: update key value rest

theorem get_cons (key other : Key) (value : Value) (rest : OrderedDict Key Value) :
    get key ((other, value) :: rest) = if other = key then some value else get key rest :=
  rfl

theorem update_cons (key other : Key) (value old : Value) (rest : OrderedDict Key Value) :
    update key value ((other, old) :: rest) =
      if other = key then (key, value) :: rest else (other, old) :: update key value rest :=
  rfl

theorem update_of_not_mem {key : Key} (value : Value) {dict : OrderedDict Key Value}
    (absent : key ∉ keys dict) : update key value dict = dict ++ [(key, value)] := by
  induction dict with
  | nil => rfl
  | cons entry rest ih =>
      obtain ⟨other, old⟩ := entry
      rw [keys, List.map_cons, List.mem_cons, not_or] at absent
      rw [update_cons, if_neg (Ne.symm absent.1), ih absent.2, List.cons_append]

theorem get_update (key other : Key) (value : Value) (dict : OrderedDict Key Value) :
    get other (update key value dict) = if key = other then some value else get other dict := by
  induction dict with
  | nil => rfl
  | cons entry rest ih =>
      obtain ⟨first, old⟩ := entry
      rw [update_cons]
      split
      case isTrue same =>
        subst same
        by_cases wanted : first = other
        · rw [get_cons, if_pos wanted, if_pos wanted]
        · rw [get_cons, if_neg wanted, if_neg wanted, get_cons, if_neg wanted]
      case isFalse differ =>
        rw [get_cons, get_cons, ih]
        by_cases wanted : first = other
        · rw [if_pos wanted, if_pos wanted, if_neg fun same => differ (wanted.trans same.symm)]
        · rw [if_neg wanted, if_neg wanted]

theorem get_of_not_mem {key : Key} {dict : OrderedDict Key Value} (absent : key ∉ keys dict) :
    get key dict = none := by
  induction dict with
  | nil => rfl
  | cons entry rest ih =>
      obtain ⟨other, value⟩ := entry
      rw [keys, List.map_cons, List.mem_cons, not_or] at absent
      rw [get_cons, if_neg (Ne.symm absent.1), ih absent.2]

theorem mem_of_get {key : Key} {value : Value} {dict : OrderedDict Key Value}
    (found : get key dict = some value) : (key, value) ∈ dict := by
  induction dict with
  | nil => cases found
  | cons entry rest ih =>
      obtain ⟨other, first⟩ := entry
      rw [get_cons] at found
      split at found
      case isTrue same =>
        cases found
        rw [same]
        exact List.mem_cons_self
      case isFalse => exact List.mem_cons_of_mem _ (ih found)

theorem get_map {Other : Type} (f : Value → Other) (key : Key) (dict : OrderedDict Key Value) :
    get key (dict.map fun entry => (entry.1, f entry.2)) = (get key dict).map f := by
  induction dict with
  | nil => rfl
  | cons entry rest ih =>
      obtain ⟨other, value⟩ := entry
      rw [List.map_cons, get_cons, get_cons]
      by_cases same : other = key
      · rw [if_pos same, if_pos same, Option.map_some]
      · rw [if_neg same, if_neg same, ih]

theorem mem_update {key : Key} {value : Value} {dict : OrderedDict Key Value} {entry : Key × Value}
    (member : entry ∈ update key value dict) : entry = (key, value) ∨ entry ∈ dict := by
  induction dict with
  | nil => exact .inl (List.mem_singleton.mp member)
  | cons first rest ih =>
      rw [update_cons] at member
      split at member
      · exact (List.mem_cons.mp member).imp_right (List.mem_cons_of_mem first)
      · rcases List.mem_cons.mp member with rfl | inRest
        · exact .inr List.mem_cons_self
        · exact (ih inRest).imp_right (List.mem_cons_of_mem first)

theorem nodup_keys_update (key : Key) (value : Value) {dict : OrderedDict Key Value}
    (distinct : (keys dict).Nodup) : (keys (update key value dict)).Nodup := by
  induction dict with
  | nil => simp [keys, update]
  | cons first rest ih =>
      rw [keys, List.map_cons, List.nodup_cons] at distinct
      rw [update_cons]
      split
      case isTrue same =>
        subst same
        exact List.nodup_cons.mpr distinct
      case isFalse differ =>
        refine List.nodup_cons.mpr ⟨fun listed => ?_, ih distinct.2⟩
        obtain ⟨entry, member, same⟩ := List.mem_map.mp listed
        rcases mem_update member with rfl | inRest
        · exact differ same.symm
        · exact distinct.1 (List.mem_map.mpr ⟨entry, inRest, same⟩)

theorem get_of_mem {key : Key} {value : Value} {dict : OrderedDict Key Value}
    (distinct : (keys dict).Nodup) (member : (key, value) ∈ dict) : get key dict = some value := by
  induction dict with
  | nil => cases member
  | cons first rest ih =>
      rw [keys, List.map_cons, List.nodup_cons] at distinct
      rw [get_cons]
      rcases List.mem_cons.mp member with rfl | inRest
      · rw [if_pos rfl]
      · have differ : first.1 ≠ key := fun same =>
          distinct.1 (List.mem_map.mpr ⟨(key, value), inRest, same.symm⟩)
        rw [if_neg differ, ih distinct.2 inRest]

theorem foldl_update_of_nodup {entries dict : OrderedDict Key Value}
    (distinct : (keys (dict ++ entries)).Nodup) :
    entries.foldl (fun dict entry => update entry.1 entry.2 dict) dict = dict ++ entries := by
  induction entries generalizing dict with
  | nil => rw [List.foldl_nil, List.append_nil]
  | cons entry entries ih =>
      have absent : entry.1 ∉ keys dict := by
        rw [keys, List.map_append, List.map_cons] at distinct
        intro present
        exact (List.nodup_append.mp distinct).2.2 entry.1 present entry.1 List.mem_cons_self rfl
      have joined : dict ++ entry :: entries = dict ++ [entry] ++ entries := by
        rw [List.append_assoc, List.singleton_append]
      rw [List.foldl_cons, update_of_not_mem entry.2 absent, joined]
      rw [joined] at distinct
      exact ih distinct

end OrderedDict

end Xpedite.Lib
