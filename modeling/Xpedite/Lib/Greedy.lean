import Mathlib.Data.List.NodupEquivFin
import Mathlib.Data.List.Sublists

/-!
Greedy embedding of a list into another one: the wanted entries are looked for one after
the other, each from where the one before it was met.
-/

namespace Xpedite.Lib

variable {α : Type}

structure Embeds (source wanted : List α) (indices : List Nat) : Prop where
  increasing : indices.Pairwise (· < ·)
  entries : indices.map (fun index => source[index]?) = wanted.map some

namespace Embeds

variable {source wanted : List α} {indices : List Nat}

theorem nil (source : List α) : Embeds source [] [] := ⟨List.Pairwise.nil, rfl⟩

theorem length_eq (embeds : Embeds source wanted indices) : indices.length = wanted.length := by
  simpa only [List.length_map] using congrArg List.length embeds.entries

theorem lt_length (embeds : Embeds source wanted indices) {index : Nat} (listed : index ∈ indices) :
    index < source.length := by
  have found : source[index]? ∈ wanted.map some := by
    rw [← embeds.entries]
    exact List.mem_map.mpr ⟨index, listed, rfl⟩
  obtain ⟨entry, -, same⟩ := List.mem_map.mp found
  exact (List.getElem?_eq_some_iff.mp same.symm).1

theorem getElem?_eq (embeds : Embeds source wanted indices) {k index : Nat}
    (listed : indices[k]? = some index) : source[index]? = wanted[k]? := by
  have entry := congrArg (fun entries => entries[k]?) embeds.entries
  simp only [List.getElem?_map, listed, Option.map_some] at entry
  obtain ⟨wantedEntry, present, same⟩ := Option.map_eq_some_iff.mp entry.symm
  rw [present, same]

theorem sublist (embeds : Embeds source wanted indices) : wanted.Sublist source := by
  have same := embeds.length_eq
  have bound : ∀ k : Fin wanted.length, indices[k.val] < source.length :=
    fun k => embeds.lt_length (List.getElem_mem _)
  refine List.sublist_iff_exists_fin_orderEmbedding_get_eq.mpr
    ⟨OrderEmbedding.ofStrictMono (fun k => ⟨indices[k.val], bound k⟩) ?_, ?_⟩
  · intro first second less
    exact List.pairwise_iff_getElem.mp embeds.increasing _ _ _ _ less
  · intro k
    have entry := embeds.getElem?_eq (List.getElem?_eq_getElem (k.isLt.trans_eq same.symm))
    rw [List.getElem?_eq_getElem (bound k), List.getElem?_eq_getElem k.isLt] at entry
    exact (Option.some.inj entry).symm

theorem skip (other : α) (embeds : Embeds source wanted indices) :
    Embeds (other :: source) wanted (indices.map (· + 1)) where
  increasing := List.pairwise_map.mpr (embeds.increasing.imp fun less => Nat.succ_lt_succ less)
  entries := by
    rw [List.map_map, ← embeds.entries]
    exact List.map_congr_left fun index _ => List.getElem?_cons_succ

theorem take (entry : α) (embeds : Embeds source wanted indices) :
    Embeds (entry :: source) (entry :: wanted) (0 :: indices.map (· + 1)) where
  increasing := by
    refine List.pairwise_cons.mpr ⟨?_, (embeds.skip entry).increasing⟩
    intro index listed
    obtain ⟨before, -, rfl⟩ := List.mem_map.mp listed
    exact Nat.succ_pos before
  entries := by rw [List.map_cons, (embeds.skip entry).entries, List.map_cons, List.getElem?_cons_zero]

theorem reverse (embeds : Embeds source wanted indices) :
    Embeds source.reverse wanted.reverse
      (indices.map fun index => source.length - (index + 1)).reverse where
  increasing := by
    rw [List.pairwise_reverse, List.pairwise_map]
    refine embeds.increasing.imp_of_mem ?_
    intro first second listed listed' less
    have bound := embeds.lt_length listed'
    omega
  entries := by
    rw [List.map_reverse, List.map_reverse, ← embeds.entries, List.map_map]
    refine congrArg List.reverse (List.map_congr_left ?_)
    intro index listed
    have bound := embeds.lt_length listed
    rw [Function.comp_apply, List.getElem?_reverse (by omega)]
    congr 1
    omega

theorem self (source : List α) : Embeds source source (List.range source.length) where
  increasing := List.pairwise_lt_range
  entries := by
    refine List.ext_getElem? fun k => ?_
    rw [List.getElem?_map, List.getElem?_map]
    by_cases bound : k < source.length
    · rw [List.getElem?_range bound, List.getElem?_eq_getElem bound, Option.map_some,
        List.getElem?_eq_getElem bound, Option.map_some]
    · rw [List.getElem?_eq_none (Nat.le_of_not_lt bound),
        List.getElem?_eq_none (List.length_range.le.trans (Nat.le_of_not_lt bound))]
      rfl

theorem unskip {other : α} (embeds : Embeds (other :: source) wanted indices)
    (later : ∀ index ∈ indices, 0 < index) : Embeds source wanted (indices.map (· - 1)) where
  increasing := by
    refine List.pairwise_map.mpr (embeds.increasing.imp_of_mem ?_)
    intro first second listed _ less
    have positive := later first listed
    omega
  entries := by
    rw [List.map_map, ← embeds.entries]
    apply List.map_congr_left
    intro index listed
    obtain ⟨before, rfl⟩ := Nat.exists_eq_succ_of_ne_zero (later index listed).ne'
    rw [Function.comp_apply, Nat.succ_sub_one, List.getElem?_cons_succ]

theorem eq_range (embeds : Embeds source wanted indices)
    (whole : indices.length = source.length) : indices = List.range source.length := by
  have distinct : indices.Nodup := embeds.increasing.imp Nat.ne_of_lt
  have within : indices ⊆ List.range source.length :=
    fun _ listed => List.mem_range.mpr (embeds.lt_length listed)
  have reordered : indices.Perm (List.range source.length) :=
    (List.subperm_of_subset distinct within).perm_of_length_le
      (whole ▸ List.length_range.le)
  refine List.Perm.eq_of_pairwise (fun first second _ _ less less' => ?_) embeds.increasing
    List.pairwise_lt_range reordered
  exact absurd less' (Nat.lt_asymm less)

end Embeds

section Greedy

variable [DecidableEq α]

def greedy : (wanted source : List α) → List Nat
  | [], _ => []
  | _ :: _, [] => []
  | entry :: wanted, other :: source =>
      if entry = other then 0 :: (greedy wanted source).map (· + 1)
      else (greedy (entry :: wanted) source).map (· + 1)

@[simp]
theorem greedy_nil (wanted : List α) : greedy wanted [] = [] := by cases wanted <;> rfl

theorem greedy_embeds {wanted source : List α} (within : wanted.Sublist source) :
    Embeds source wanted (greedy wanted source) := by
  induction source generalizing wanted with
  | nil =>
      cases within
      exact Embeds.nil []
  | cons other source ih =>
      cases wanted with
      | nil => exact Embeds.nil (other :: source)
      | cons entry wanted =>
          rw [greedy]
          split
          case isTrue same =>
            subst same
            exact (ih (List.cons_sublist_cons.mp within)).take entry
          case isFalse differ =>
            refine (ih ?_).skip other
            cases within with
            | cons _ later => exact later
            | cons_cons _ _ => exact absurd rfl differ

theorem forall₂_succ {before after : List Nat} (later : ∀ index ∈ after, 0 < index)
    (least : List.Forall₂ (· ≤ ·) before (after.map (· - 1))) :
    List.Forall₂ (· ≤ ·) (before.map (· + 1)) after := by
  rw [List.forall₂_map_right_iff] at least
  rw [List.forall₂_map_left_iff]
  refine ((List.forall₂_and_left _ _).mpr ⟨later, least.flip⟩).flip.imp ?_
  rintro first index ⟨positive, le⟩
  omega

theorem greedy_least {wanted source : List α} {indices : List Nat}
    (embeds : Embeds source wanted indices) :
    List.Forall₂ (· ≤ ·) (greedy wanted source) indices := by
  induction source generalizing wanted indices with
  | nil =>
      have none : wanted = [] := List.sublist_nil.mp embeds.sublist
      subst none
      rw [List.length_eq_zero_iff.mp embeds.length_eq]
      exact .nil
  | cons other source ih =>
      cases wanted with
      | nil =>
          rw [List.length_eq_zero_iff.mp embeds.length_eq]
          exact .nil
      | cons entry wanted =>
          cases indices with
          | nil => exact absurd embeds.length_eq (by simp)
          | cons first rest =>
              obtain ⟨after, increasing⟩ := List.pairwise_cons.mp embeds.increasing
              obtain ⟨here, entries⟩ := List.cons.inj embeds.entries
              rw [greedy]
              split
              case isTrue same =>
                -- the later entries are met behind the first index, wherever it is
                have later : ∀ index ∈ rest, 0 < index :=
                  fun index listed => Nat.zero_lt_of_lt (after index listed)
                refine .cons (Nat.zero_le first) (forall₂_succ later (ih ?_))
                exact Embeds.unskip ⟨increasing, entries⟩ later
              case isFalse differ =>
                have positive : 0 < first := by
                  apply Nat.pos_of_ne_zero
                  rintro rfl
                  exact differ (Option.some.inj here).symm
                have later : ∀ index ∈ first :: rest, 0 < index := by
                  intro index listed
                  rcases List.mem_cons.mp listed with rfl | behind
                  · exact positive
                  · exact positive.trans (after index behind)
                exact forall₂_succ later (ih (embeds.unskip later))

theorem sublist_of_length_greedy {wanted source : List α}
    (all : (greedy wanted source).length = wanted.length) : wanted.Sublist source := by
  induction source generalizing wanted with
  | nil =>
      rw [greedy_nil] at all
      rw [List.length_eq_zero_iff.mp all.symm]
  | cons other source ih =>
      cases wanted with
      | nil => exact List.nil_sublist (other :: source)
      | cons entry wanted =>
          rw [greedy] at all
          split at all
          case isTrue same =>
            rw [List.length_cons, List.length_map, List.length_cons] at all
            rw [same]
            exact (ih (by omega)).cons_cons other
          case isFalse =>
            rw [List.length_map] at all
            exact (ih all).cons other

end Greedy

section Latest

/-- The embedding that meets each of the wanted entries as far behind as any other does. -/
structure Latest (source wanted : List α) (indices : List Nat) : Prop
    extends Embeds source wanted indices where
  latest : ∀ others, Embeds source wanted others → List.Forall₂ (· ≤ ·) others indices

variable {source wanted : List α} {indices : List Nat}

theorem Latest.unique {others : List Nat} (latest : Latest source wanted indices)
    (latest' : Latest source wanted others) : indices = others := by
  have below := latest'.latest indices latest.toEmbeds
  have above := latest.latest others latest'.toEmbeds
  apply List.ext_getElem below.length_eq
  intro k bound bound'
  have le := (List.forall₂_iff_get.mp below).2 k bound bound'
  have ge := (List.forall₂_iff_get.mp above).2 k bound' bound
  exact Nat.le_antisymm le ge

variable [DecidableEq α]

/-- Looking greedily from the ends of both lists gives the latest embedding. -/
theorem latest_greedy_reverse (within : wanted.Sublist source) :
    Latest source wanted
      ((greedy wanted.reverse source.reverse).map fun index =>
        source.length - (index + 1)).reverse where
  toEmbeds := by
    have mirrored := (greedy_embeds within.reverse).reverse
    rwa [List.reverse_reverse, List.reverse_reverse, List.length_reverse] at mirrored
  latest := by
    intro others embeds
    have least := greedy_least embeds.reverse
    rw [← List.map_reverse, List.forall₂_map_right_iff] at least
    rw [← List.forall₂_reverse_iff, List.reverse_reverse, List.forall₂_map_right_iff]
    have within : ∀ index ∈ others.reverse, index < source.length :=
      fun index listed => embeds.lt_length (List.mem_reverse.mp listed)
    refine ((List.forall₂_and_left _ _).mpr ⟨within, least.flip⟩).imp ?_
    rintro index mirrored ⟨bound, le⟩
    omega

end Latest

end Xpedite.Lib
