import Mathlib.Data.List.Induction
import Mathlib.Data.List.Range
import Xpedite.Collection.Layout

/-!
What holds in every state the thread and the collector can reach: the samples lie in the
pool as `Laid` says, the collector is at most fifteen buffers behind and holds a finished
one, and the buffers account for all that has been recorded.
-/

namespace Xpedite.Collection

open Lib Samples Framework

/-- The buffers hold pieces of what was recorded, and without an overflow all of it. -/
structure Writer.Accounts (samples : List Sample) (writer : Writer) : Prop where
  sublist : ∀ index, (writer.written index).Sublist samples
  complete : writer.overflowCount = 0 →
    samples = (List.range' 1 writer.writeIndex).flatMap writer.written

structure Reads (pool : Nat) (state : State) : Prop where
  bound : state.buffer.isReaderAttached = true →
    state.readIndex + 1 ≤ max state.writer.writeIndex 1 ∧
      state.writer.writeIndex ≤ state.readIndex + 16
  holding : ∀ first, state.curReadBuf = some first →
    state.buffer.isReaderAttached = true ∧ first = bufferAt pool (state.readIndex + 1) ∧
      state.readIndex + 1 < state.writer.writeIndex

namespace Writer

variable {pool : Nat} {writer : Writer} {samples : List Sample}

theorem flatMap_update_of_lt {written : Nat → List Sample} {index last : Nat}
    (before : last ≤ index) (piece : List Sample) :
    (List.range' 1 (last - 1)).flatMap (Function.update written index piece) =
      (List.range' 1 (last - 1)).flatMap written := by
  refine List.flatMap_congr ?_
  intro other listed
  rw [List.mem_range'_1] at listed
  exact Function.update_of_ne (by omega) _ _

theorem Accounts.expand (accounts : writer.Accounts samples) (rindex : Nat) :
    (writer.expand pool rindex).Accounts samples := by
  have pieces : ∀ index other, (Function.update writer.written index [] other).Sublist samples := by
    intro index other
    by_cases same : other = index
    · rw [same, Function.update_self]
      exact List.nil_sublist _
    · rw [Function.update_of_ne same]
      exact accounts.sublist other
  rcases nextWritableBuffer_cases writer rindex with ⟨-, -, next⟩ | same
  · rw [Writer.expand, next]
    refine ⟨pieces _, ?_⟩
    intro none_
    have earlier := @flatMap_update_of_lt writer.written (writer.writeIndex + 1)
      (writer.writeIndex + 1) (Nat.le_refl _) []
    rw [Nat.add_sub_cancel] at earlier
    simp only [List.range'_1_concat, List.flatMap_append, List.flatMap_singleton, earlier,
      Nat.add_comm 1, Function.update_self, List.append_nil]
    exact accounts.complete none_
  · rw [Writer.expand, same]
    refine ⟨pieces _, ?_⟩
    intro none_
    exact absurd none_ (Nat.succ_ne_zero _)

theorem Accounts.expandIfFull (accounts : writer.Accounts samples) (rindex : Nat) :
    (writer.expandIfFull pool rindex).Accounts samples := by
  rw [Writer.expandIfFull]
  split
  · exact accounts.expand rindex
  · exact accounts

theorem Accounts.append (accounts : writer.Accounts samples) (filling : writer.Filling pool)
    (room : writer.isFull = false) (sample : Sample) :
    (writer.append sample).Accounts (samples ++ [sample]) where
  sublist := by
    intro index
    by_cases same : index = writer.writeIndex
    · rw [same, append_written_self sample room]
      exact (accounts.sublist writer.writeIndex).append (List.Sublist.refl _)
    · rw [append_written_of_ne sample same]
      exact (accounts.sublist index).trans (List.sublist_append_left _ _)
  complete := by
    intro none_
    rw [append_overflowCount] at none_
    have counted := filling.counted
    have all := accounts.complete none_
    obtain ⟨earlier, last⟩ : ∃ earlier, writer.writeIndex = earlier + 1 :=
      Nat.exists_eq_add_one.mpr (by omega)
    have range : List.range' 1 writer.writeIndex =
        List.range' 1 earlier ++ [writer.writeIndex] := by
      rw [last, List.range'_1_concat, Nat.add_comm 1]
    have others : (List.range' 1 earlier).flatMap (writer.append sample).written =
        (List.range' 1 earlier).flatMap writer.written := by
      refine List.flatMap_congr ?_
      intro index listed
      rw [List.mem_range'_1] at listed
      exact append_written_of_ne sample (by omega)
    rw [append_writeIndex, range, List.flatMap_append, List.flatMap_singleton, others,
      append_written_self sample room, ← List.append_assoc, all, range, List.flatMap_append,
      List.flatMap_singleton]

theorem Accounts.record (accounts : writer.Accounts samples) (laid : writer.Laid pool)
    (rindex : Nat) (sample : Sample) :
    (writer.record pool rindex sample).Accounts (samples ++ [sample]) := by
  obtain ⟨-, filling, room⟩ := laid.expandIfFull rindex
  exact (accounts.expandIfFull rindex).append filling room sample

theorem writeIndex_record (pool rindex : Nat) (writer : Writer) (sample : Sample) :
    (writer.record pool rindex sample).writeIndex = writer.writeIndex ∨
      ((writer.record pool rindex sample).writeIndex = writer.writeIndex + 1 ∧
        writer.writeIndex < rindex + 16) := by
  rw [record, append_writeIndex, expandIfFull]
  split
  · rcases nextWritableBuffer_cases writer rindex with ⟨room, -, next⟩ | same
    · rw [expand, next]
      exact Or.inr ⟨rfl, room⟩
    · rw [expand, same]
      exact Or.inl rfl
  · exact Or.inl rfl

end Writer

section Steps

variable {pool : Nat} {state next : State}

theorem Reads.record (reads : Reads pool state) (sample : Sample) :
    Reads pool { state with writer := state.writer.record pool state.readIndex sample } := by
  have moved := Writer.writeIndex_record pool state.readIndex state.writer sample
  refine ⟨?_, ?_⟩
  · intro attached
    have bound := reads.bound attached
    simp only
    omega
  · intro first held
    obtain ⟨attached, same, finished⟩ := reads.holding first held
    refine ⟨attached, same, ?_⟩
    simp only
    omega

theorem Reads.null_of_detached (reads : Reads pool state)
    (detached : state.buffer.isReaderAttached ≠ true) : state.curReadBuf = none := by
  rw [Option.eq_none_iff_forall_ne_some]
  intro first held
  exact detached (reads.holding first held).1

theorem Reads.attachReader (reads : Reads pool state) {opened : Int}
    (taken : attachReader state opened = some next) :
    Reads pool next ∧ next.writer = state.writer := by
  rw [Collection.attachReader, Collector.SamplesBuffer.attachReader] at taken
  by_cases attached : state.buffer.isReaderAttached = true
  · rw [if_pos attached] at taken
    cases taken
    exact ⟨reads, rfl⟩
  · have null := reads.null_of_detached attached
    rw [if_neg attached] at taken
    by_cases failed : opened < 0
    · rw [if_pos failed] at taken
      cases taken
      refine ⟨⟨?_, ?_⟩, rfl⟩
      · intro succeeded
        exact absurd (of_decide_eq_true succeeded) (Int.not_le.mpr failed)
      · intro first held
        exact absurd (null.symm.trans held) (Option.some_ne_none first).symm
    · obtain ⟨rindex, stored, behind⟩ : ∃ rindex,
          (if state.writer.writeIndex ≠ 0 then state.writer.writeIndex - 1 else 0) = rindex ∧
            rindex + 1 = max state.writer.writeIndex 1 := by
        refine ⟨_, rfl, ?_⟩
        split <;> omega
      rw [if_neg failed] at taken
      dsimp only at taken
      rw [stored] at taken
      split at taken <;> cases taken
      refine ⟨⟨fun _ => ?_, ?_⟩, rfl⟩
      · simp only
        omega
      · intro first held
        exact absurd (null.symm.trans held) (Option.some_ne_none first).symm

theorem Reads.detachReader (reads : Reads pool state) (null : state.curReadBuf = none) :
    Reads pool (detachReader state) ∧ (detachReader state).writer = state.writer := by
  rw [Collection.detachReader, Collector.SamplesBuffer.detachReader]
  by_cases attached : state.buffer.isReaderAttached = true
  · rw [if_pos attached]
    refine ⟨⟨?_, ?_⟩, rfl⟩
    · intro still
      have closed : (0 : Int) ≤ -1 := of_decide_eq_true still
      omega
    · intro first held
      exact absurd (null.symm.trans held) (Option.some_ne_none first).symm
  · rw [if_neg attached]
    exact ⟨reads, rfl⟩

theorem Reads.nextReadableRange (reads : Reads pool state)
    (attached : state.buffer.isReaderAttached = true) (small : state.writer.writeIndex < 2 ^ 64) :
    Reads pool (nextReadableRange pool state) := by
  obtain ⟨behind, bound⟩ := reads.bound attached
  -- the index that the reader stores still lies behind the write index
  obtain ⟨rindex, stored, later, near⟩ : ∃ rindex,
      (if state.curReadBuf.isSome then (state.readIndex + 1) % 2 ^ 64 else state.readIndex) =
        rindex ∧ rindex + 1 ≤ max state.writer.writeIndex 1 ∧
        state.writer.writeIndex ≤ rindex + 16 := by
    refine ⟨_, rfl, ?_⟩
    cases holding : state.curReadBuf with
    | none => exact ⟨behind, bound⟩
    | some first =>
        have finished := (reads.holding first holding).2.2
        have noWrap : (state.readIndex + 1) % 2 ^ 64 = state.readIndex + 1 :=
          Nat.mod_eq_of_lt (by omega)
        rw [Option.isSome_some, if_pos rfl, noWrap]
        omega
  have noWrap : (rindex + 1) % 2 ^ 64 = rindex + 1 := Nat.mod_eq_of_lt (by omega)
  rw [Collection.nextReadableRange, stored]
  simp only [noWrap]
  refine ⟨fun _ => ⟨later, near⟩, ?_⟩
  intro first held
  split at held <;> cases held
  rename_i available
  exact ⟨attached, rfl, available⟩

theorem Reads.frame (reads : Reads pool state) {buffer : Collector.SamplesBuffer}
    (same : buffer.fd = state.buffer.fd) : Reads pool { state with buffer := buffer } := by
  have attached : buffer.isReaderAttached = state.buffer.isReaderAttached := by
    rw [Collector.SamplesBuffer.isReaderAttached, same, Collector.SamplesBuffer.isReaderAttached]
  refine ⟨?_, ?_⟩
  · rw [attached]
    exact reads.bound
  · rw [attached]
    exact reads.holding

structure Reachable (pool : Nat) (samples : List Sample) (state : State) : Prop where
  laid : state.writer.Laid pool
  accounts : state.writer.Accounts samples
  reads : Reads pool state

theorem new_reachable (pool : Nat) : Reachable pool [] State.new where
  laid := Writer.new_laid pool
  accounts := ⟨fun _ => List.Sublist.refl [], fun _ => rfl⟩
  reads := ⟨fun attached => absurd attached (by decide), fun _ held => by cases held⟩

theorem Reachable.step {samples : List Sample} (reachable : Reachable pool samples state)
    {event : Event} (taken : step pool state event = some next) :
    Reachable pool (samples ++ event.sample?.toList) next := by
  obtain ⟨laid, accounts, reads⟩ := reachable
  cases event with
  | record sample =>
      cases taken
      exact ⟨(laid.record state.readIndex sample).1, accounts.record laid state.readIndex sample,
        reads.record sample⟩
  | attachReader opened =>
      obtain ⟨kept, same⟩ := reads.attachReader taken
      change Reachable pool (samples ++ []) next
      rw [List.append_nil]
      exact ⟨by rwa [same], by rwa [same], kept⟩
  | detachReader =>
      change Reachable pool (samples ++ []) next
      rw [List.append_nil]
      simp only [Collection.step] at taken
      split at taken <;> cases taken
      obtain ⟨kept, same⟩ := reads.detachReader ‹_›
      exact ⟨by rwa [same], by rwa [same], kept⟩
  | nextReadableRange =>
      change Reachable pool (samples ++ []) next
      rw [List.append_nil]
      simp only [Collection.step] at taken
      split at taken <;> cases taken
      exact ⟨laid, accounts, reads.nextReadableRange ‹_› laid.wide⟩
  | collectRange counts =>
      change Reachable pool (samples ++ []) next
      rw [List.append_nil]
      obtain ⟨first, held, rfl⟩ := Option.map_eq_some_iff.mp taken
      exact ⟨laid, accounts, reads.frame (Collector.collectSamples_fd _ _ _)⟩
  | flush now =>
      change Reachable pool (samples ++ []) next
      rw [List.append_nil]
      simp only [Collection.step] at taken
      split at taken <;> cases taken
      exact ⟨laid, accounts, reads.frame (Collector.flush_fd _ _ _)⟩

end Steps

theorem run_reachable {pool : Nat} {events : List Event} {state : State}
    (reached : run (step pool) State.new events = some state) :
    Reachable pool (recorded events) state := by
  induction events using List.reverseRecOn generalizing state with
  | nil =>
      cases reached
      exact new_reachable pool
  | append_singleton earlier event ih =>
      rw [run_snoc] at reached
      obtain ⟨before, ran, taken⟩ := Option.bind_eq_some_iff.mp reached
      have all : recorded (earlier ++ [event]) = recorded earlier ++ event.sample?.toList := by
        rw [recorded, List.filterMap_append, recorded]
        cases event <;> rfl
      rw [all]
      exact (ih ran).step taken

end Xpedite.Collection
