import Xpedite.Lib.Admission

/-!
The capacity for samples data: `StorageMgr` and `Collector::persistSamples` of
`xpedite/framework`.  A batch that does not fit is dropped, and sets a flag that later
batches are not held against.
-/

namespace Xpedite.Samples.Storage

open Xpedite.Lib

/-- What lies between `begin_` and `end_`; the distance of two pointers is below 2^63. -/
structure Batch where
  fd : Int
  bytes : List UInt8
  addressable : bytes.length < 2 ^ 63

namespace Batch

def length (batch : Batch) : Nat := batch.bytes.length

def size (batch : Batch) : UInt64 := UInt64.ofNat batch.bytes.length

theorem toNat_size (batch : Batch) : batch.size.toNat = batch.length := by
  have bound := batch.addressable
  rw [size, UInt64.toNat_ofNat', Nat.mod_eq_of_lt (by omega)]
  rfl

end Batch

/-- The consumption never exceeds the capacity, which is 0 where there is no limit. -/
structure StorageMgr where
  capacity : UInt64
  size : UInt64
  within : size ≤ capacity

namespace StorageMgr

def new (capacity : UInt64) : StorageMgr := ⟨capacity, 0, UInt64.zero_le⟩

theorem toNat_add_of_fits {capacity size more : UInt64} (fits : more ≤ capacity)
    (room : size ≤ capacity - more) : (size + more).toNat = size.toNat + more.toNat ∧
      size.toNat + more.toNat ≤ capacity.toNat := by
  rw [UInt64.le_iff_toNat_le] at fits room
  rw [UInt64.toNat_sub_of_le _ _ (UInt64.le_iff_toNat_le.mpr fits)] at room
  have bound := capacity.toNat_lt
  rw [UInt64.toNat_add, Nat.mod_eq_of_lt (by omega)]
  omega

def consume (storageMgr : StorageMgr) (size : UInt64) : StorageMgr × Bool :=
  if storageMgr.capacity = 0 then (storageMgr, true)
  else if fits : size ≤ storageMgr.capacity ∧ storageMgr.size ≤ storageMgr.capacity - size then
    ({ storageMgr with
        size := storageMgr.size + size
        within := by
          obtain ⟨sum, bound⟩ := toNat_add_of_fits fits.1 fits.2
          rw [UInt64.le_iff_toNat_le, sum]
          exact bound }, true)
  else (storageMgr, false)

def room (storageMgr : StorageMgr) : Nat := storageMgr.capacity.toNat - storageMgr.size.toNat

variable {storageMgr : StorageMgr} {size : UInt64}

theorem fits_iff : (size ≤ storageMgr.capacity ∧ storageMgr.size ≤ storageMgr.capacity - size) ↔
    size.toNat ≤ storageMgr.room := by
  have within := UInt64.le_iff_toNat_le.mp storageMgr.within
  rw [room, UInt64.le_iff_toNat_le, UInt64.le_iff_toNat_le]
  constructor
  · rintro ⟨fits, left⟩
    rw [UInt64.toNat_sub_of_le _ _ (UInt64.le_iff_toNat_le.mpr fits)] at left
    omega
  · intro fits
    have fits' : size.toNat ≤ storageMgr.capacity.toNat := by omega
    refine ⟨fits', ?_⟩
    rw [UInt64.toNat_sub_of_le _ _ (UInt64.le_iff_toNat_le.mpr fits')]
    omega

theorem consume_of_le (limited : storageMgr.capacity ≠ 0) (fits : size.toNat ≤ storageMgr.room) :
    (storageMgr.consume size).2 = true ∧ (storageMgr.consume size).1.capacity = storageMgr.capacity ∧
      (storageMgr.consume size).1.room = storageMgr.room - size.toNat := by
  have fits' := fits_iff.mpr fits
  obtain ⟨sum, -⟩ := toNat_add_of_fits fits'.1 fits'.2
  rw [consume, if_neg limited, dif_pos fits']
  refine ⟨rfl, rfl, ?_⟩
  simp only [room, sum]
  omega

theorem consume_of_gt (limited : storageMgr.capacity ≠ 0) (exceeds : storageMgr.room < size.toNat) :
    storageMgr.consume size = (storageMgr, false) := by
  rw [consume, if_neg limited, dif_neg]
  intro fits
  have small := fits_iff.mp fits
  omega

end StorageMgr

/-- `persisted` has the batches that `persistData` was called with. -/
structure Collector where
  storageMgr : StorageMgr
  capacityBreached : Bool
  persisted : List Batch

namespace Collector

def new (samplesDataCapacity : UInt64) : Collector := ⟨.new samplesDataCapacity, false, []⟩

def persistSamples (collector : Collector) (batch : Batch) : Collector :=
  match collector.storageMgr.consume batch.size with
  | (storageMgr, true) =>
      { collector with storageMgr := storageMgr, persisted := collector.persisted ++ [batch] }
  | (storageMgr, false) =>
      if !collector.capacityBreached then
        { collector with storageMgr := storageMgr, capacityBreached := true }
      else { collector with storageMgr := storageMgr }

end Collector

def session (capacity : UInt64) (batches : List Batch) : Collector :=
  batches.foldl Collector.persistSamples (.new capacity)

/--
The persisted batches are the first ones of the session, nothing is persisted any more when
the capacity was breached, and they are within the capacity.
-/
structure BreachIsFinal (capacity : UInt64) (batches : List Batch) : Prop where
  leading : (session capacity batches).persisted <+: batches
  final : ∀ before after, batches = before ++ after →
    (session capacity before).capacityBreached = true →
    (session capacity batches).persisted = (session capacity before).persisted
  bounded : capacity ≠ 0 →
    total Batch.length (session capacity batches).persisted ≤ capacity.toNat

section Sessions

theorem persistSamples_limited (collector : Collector) (limited : collector.storageMgr.capacity ≠ 0)
    (batch : Batch) :
    (collector.persistSamples batch).storageMgr.capacity = collector.storageMgr.capacity ∧
      (batch.length ≤ collector.storageMgr.room ∧
          (collector.persistSamples batch).persisted = collector.persisted ++ [batch] ∧
          (collector.persistSamples batch).storageMgr.room =
            collector.storageMgr.room - batch.length ∧
          (collector.persistSamples batch).capacityBreached = collector.capacityBreached ∨
        collector.storageMgr.room < batch.length ∧
          (collector.persistSamples batch).persisted = collector.persisted ∧
          (collector.persistSamples batch).storageMgr.room = collector.storageMgr.room ∧
          (collector.persistSamples batch).capacityBreached = true) := by
  rw [← batch.toNat_size]
  by_cases fits : batch.size.toNat ≤ collector.storageMgr.room
  · obtain ⟨accepted, same, left⟩ := StorageMgr.consume_of_le limited fits
    have step : collector.persistSamples batch = { collector with
        storageMgr := (collector.storageMgr.consume batch.size).1
        persisted := collector.persisted ++ [batch] } := by
      rw [Collector.persistSamples]
      split
      case h_1 _ consumed => rw [consumed]
      case h_2 _ consumed => rw [consumed] at accepted; cases accepted
    rw [step]
    exact ⟨same, .inl ⟨fits, rfl, left, rfl⟩⟩
  · have exceeds := Nat.not_le.mp fits
    rw [Collector.persistSamples, StorageMgr.consume_of_gt limited exceeds]
    dsimp only
    cases breached : collector.capacityBreached with
    | false => exact ⟨rfl, .inr ⟨exceeds, rfl, rfl, rfl⟩⟩
    | true => exact ⟨rfl, .inr ⟨exceeds, rfl, rfl, rfl⟩⟩

theorem foldl_persistSamples (batches : List Batch) {collector : Collector}
    (limited : collector.storageMgr.capacity ≠ 0) :
    (batches.foldl Collector.persistSamples collector).persisted =
        collector.persisted ++ kept Batch.length collector.storageMgr.room batches ∧
      ((batches.foldl Collector.persistSamples collector).capacityBreached = true ↔
        collector.capacityBreached = true ∨
          collector.storageMgr.room < total Batch.length batches) := by
  induction batches generalizing collector with
  | nil => simp [kept]
  | cons batch batches ih =>
      obtain ⟨same, outcome⟩ := persistSamples_limited collector limited batch
      obtain ⟨persisted, breached⟩ := ih (same ▸ limited)
      rw [List.foldl_cons, persisted, breached, kept, total_cons]
      rcases outcome with ⟨fits, appended, left, flag⟩ | ⟨exceeds, unchanged, left, flag⟩
      · rw [if_pos fits, appended, left, flag, List.append_assoc]
        refine ⟨rfl, or_congr_right ?_⟩
        omega
      · rw [if_neg (Nat.not_le.mpr exceeds), unchanged, left, flag]
        refine ⟨rfl, iff_of_true (.inl rfl) (.inr ?_)⟩
        omega

theorem session_limited {capacity : UInt64} (limited : capacity ≠ 0) (batches : List Batch) :
    (session capacity batches).persisted = kept Batch.length capacity.toNat batches ∧
      ((session capacity batches).capacityBreached = true ↔
        capacity.toNat < total Batch.length batches) := by
  have run := @foldl_persistSamples batches (.new capacity) limited
  simpa [session, Collector.new, StorageMgr.new, StorageMgr.room] using run

theorem session_unlimited (batches : List Batch) :
    (session 0 batches).persisted = batches ∧ (session 0 batches).capacityBreached = false := by
  have general : ∀ collector : Collector, collector.storageMgr.capacity = 0 →
      (batches.foldl Collector.persistSamples collector).persisted =
          collector.persisted ++ batches ∧
        (batches.foldl Collector.persistSamples collector).capacityBreached =
          collector.capacityBreached := by
    induction batches with
    | nil => exact fun collector _ => ⟨(List.append_nil _).symm, rfl⟩
    | cons batch batches ih =>
        intro collector unlimited
        have step : collector.persistSamples batch =
            { collector with persisted := collector.persisted ++ [batch] } := by
          rw [Collector.persistSamples, StorageMgr.consume, if_pos unlimited]
        obtain ⟨persisted, breached⟩ := ih (collector.persistSamples batch) (by rw [step, unlimited])
        rw [List.foldl_cons, persisted, breached, step, List.append_assoc]
        exact ⟨rfl, rfl⟩
  exact general (.new 0) rfl

end Sessions

/--
A breach of the capacity is final exactly in a session without a limit, or where no batch
behind the first one that does not fit is small enough for the room left before that one.
-/
theorem breachIsFinal_iff (capacity : UInt64) (batches : List Batch) :
    BreachIsFinal capacity batches ↔
      capacity = 0 ∨ NoneFitsLater Batch.length capacity.toNat batches := by
  by_cases unlimited : capacity = 0
  · subst unlimited
    refine iff_of_true ⟨?_, ?_, fun limited => absurd rfl limited⟩ (.inl rfl)
    · exact ⟨[], (List.append_nil _).trans (session_unlimited batches).1⟩
    · intro before after _ breached
      exact absurd ((session_unlimited before).2.symm.trans breached) Bool.false_ne_true
  · have limited : ∀ batches, (session capacity batches).persisted =
        kept Batch.length capacity.toNat batches := fun batches => (session_limited unlimited batches).1
    rw [or_iff_right unlimited]
    constructor
    · intro final
      apply (stopsKeeping_iff Batch.length).mp
      intro before after split exceeded
      rw [← limited, ← limited]
      exact final.final before after split ((session_limited unlimited before).2.mpr exceeded)
    · intro none
      refine ⟨?_, ?_, fun _ => ?_⟩
      · rw [limited]
        exact none.kept_isPrefix
      · intro before after split breached
        rw [limited, limited]
        exact (stopsKeeping_iff Batch.length).mpr none before after split
          ((session_limited unlimited before).2.mp breached)
      · rw [limited]
        exact total_kept_le Batch.length capacity.toNat batches

def plainBatch (count : Nat) (few : count < 2 ^ 32) : Batch where
  fd := 3
  bytes := List.replicate (16 * count) 0
  addressable := by
    rw [List.length_replicate]
    omega

/-- Of 100 bytes the first batch takes 64, the second one is dropped, and the third one kept. -/
theorem not_breachIsFinal_smaller :
    ¬BreachIsFinal 100 [plainBatch 4 (by decide), plainBatch 4 (by decide), plainBatch 1 (by decide)] := by
  intro final
  have same := final.final [plainBatch 4 (by decide), plainBatch 4 (by decide)]
    [plainBatch 1 (by decide)] rfl (by decide)
  exact absurd (congrArg List.length same) (by decide)

end Xpedite.Samples.Storage
