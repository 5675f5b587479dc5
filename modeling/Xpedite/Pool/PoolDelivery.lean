import Mathlib.Data.List.Range
import Xpedite.Pool.PoolInvariant

/-!
First-in first-out delivery.  A log is kept beside a run: the index and the
contents of each buffer the writer moved on from, and of each buffer returned to
the reader.  While a reader that attached between two calls of the writer stays
attached, the second list is a consecutive part of the first.
-/

namespace Xpedite.Pool

open Xpedite.Lib

variable {Data : Type}

structure Log (Data : Type) where
  calls : Nat
  finished : List (Nat × Data)
  returned : List (Nat × Data)

def Log.empty : Log Data := ⟨0, [], []⟩

def record (pool : PoolSize) (state : State Data) (log : Log Data) : Action Data → Log Data
  | .writer =>
      match state.writer with
      | .idle => { log with calls := log.calls + 1 }
      | .loaded _ => log
      | .compared windex rindex =>
          if hasRoom pool windex rindex then
            { log with finished := log.finished ++ [(windex, state.data (bufferAt pool windex))] }
          else log
  | .reader =>
      match state.reader with
      | .nextCheck rindex =>
          let index := (rindex + 1) % 2 ^ 64
          if state.writeIndex > index then
            { log with returned := log.returned ++ [(index, state.data (bufferAt pool index))] }
          else log
      | _ => log
  | _ => log

def observe (pool : PoolSize) (observed : State Data × Log Data) (action : Action Data) :
    Option (State Data × Log Data) :=
  (step pool observed.1 action).map fun next => (next, record pool observed.1 observed.2 action)

def Writer.inFlight : Writer → Nat
  | .idle => 0
  | .loaded _ => 1
  | .compared _ _ => 1

def Action.isAttaching : Action Data → Bool
  | .attach | .reader | .write _ => true
  | .writer | .next | .detach | .forget => false

/--
The reader has been given the indices from `start` (or 1) on, one after the
other and each with the contents the writer left; the buffer it holds is the
last of them and still has these contents; and the writer's calls are accounted for.
-/
structure Delivered (pool : PoolSize) (attached final : State Data) (log : Log Data) : Prop where
  advances : log.finished.map Prod.fst = List.range' attached.writeIndex log.finished.length
  consecutive : log.returned.map Prod.fst =
    List.range' (max attached.writeIndex 1) log.returned.length
  contents : ∀ entry ∈ log.returned, entry ∈ log.finished
  unchanged : ∀ index, readerHolds final = some index →
    log.returned.getLast? = some (index, final.data (bufferAt pool index))
  available : ∀ rindex, final.reader = .nextCheck rindex →
    max attached.writeIndex 1 + log.returned.length < final.writeIndex →
    ∃ next, step pool final .reader = some next ∧
      readerHolds next = some (max attached.writeIndex 1 + log.returned.length)
  accounted : log.calls + attached.overflowCount =
    log.finished.length + final.overflowCount + final.writer.inFlight

def Reader.Awaits (state : State Data) (position : Nat) : Reader → Prop
  | .attached =>
      (state.curReadBuf = .null ∧ position = state.readIndex + 1) ∨
      (state.curReadBuf = .held (state.readIndex + 1) ∧ state.readIndex + 1 < state.writeIndex ∧
        position = state.readIndex + 2)
  | .nextStore rindex =>
      state.curReadBuf = .held (state.readIndex + 1) ∧ state.readIndex + 1 < state.writeIndex ∧
        position = state.readIndex + 2 ∧ rindex = state.readIndex + 1
  | .nextCheck rindex => rindex = state.readIndex ∧ position = state.readIndex + 1
  | _ => False

structure Delivering (pool : PoolSize) (start overflowed : Nat) (state : State Data)
    (log : Log Data) : Prop extends Settled state where
  behind : state.readIndex ≤ state.writeIndex - 1
  bound : state.writeIndex ≤ state.readIndex + pool.size
  pending : ∀ windex rindex, state.writer = .compared windex rindex →
    hasRoom pool windex rindex = true → state.writeIndex < state.readIndex + pool.size
  progress : state.writeIndex = start + log.finished.length
  advances : log.finished.map Prod.fst = List.range' start log.finished.length
  started : max start 1 ≤ state.readIndex + 1
  consecutive : log.returned.map Prod.fst = List.range' (max start 1) log.returned.length
  contents : ∀ entry ∈ log.returned, entry ∈ log.finished
  retained : ∀ entry ∈ log.finished, state.readIndex < entry.1 →
    state.data (bufferAt pool entry.1) = entry.2
  awaits : state.reader.Awaits state (max start 1 + log.returned.length)
  accounted : log.calls + overflowed =
    log.finished.length + state.overflowCount + state.writer.inFlight

theorem exists_mem_of_consecutive {entries : List (Nat × Data)} {first index : Nat}
    (consecutive : entries.map Prod.fst = List.range' first entries.length)
    (lower : first ≤ index) (upper : index < first + entries.length) :
    ∃ contents, (index, contents) ∈ entries := by
  have member : index ∈ entries.map Prod.fst := by
    rw [consecutive, List.mem_range'_1]
    exact ⟨lower, upper⟩
  obtain ⟨⟨key, contents⟩, inside, same⟩ := List.mem_map.mp member
  cases same
  exact ⟨contents, inside⟩

theorem index_mem_of_consecutive {entries : List (Nat × Data)} {first : Nat}
    {entry : Nat × Data} (consecutive : entries.map Prod.fst = List.range' first entries.length)
    (inside : entry ∈ entries) : first ≤ entry.1 ∧ entry.1 < first + entries.length := by
  have member := List.mem_map_of_mem (f := Prod.fst) inside
  rwa [consecutive, List.mem_range'_1] at member

theorem consecutive_snoc {entries : List (Nat × Data)} {first index : Nat} {contents : Data}
    (consecutive : entries.map Prod.fst = List.range' first entries.length)
    (next : index = first + entries.length) :
    (entries ++ [(index, contents)]).map Prod.fst =
      List.range' first (entries ++ [(index, contents)]).length := by
  rw [List.map_append, consecutive, List.length_append, List.length_singleton,
    List.range'_1_concat, next]
  rfl

theorem Reader.Awaits.grow {reader : Reader} {state next : State Data} {position : Nat}
    (awaits : reader.Awaits state position) (sameRead : next.readIndex = state.readIndex)
    (sameBuf : next.curReadBuf = state.curReadBuf) (grown : state.writeIndex ≤ next.writeIndex) :
    reader.Awaits next position := by
  cases reader with
  | attached =>
      simp only [Reader.Awaits, sameRead, sameBuf] at awaits ⊢
      rcases awaits with null | ⟨held, unread, given⟩
      · exact Or.inl null
      · exact Or.inr ⟨held, by omega, given⟩
  | nextStore rindex =>
      simp only [Reader.Awaits, sameRead, sameBuf] at awaits ⊢
      obtain ⟨held, unread, rest⟩ := awaits
      exact ⟨held, by omega, rest⟩
  | nextCheck rindex =>
      simp only [Reader.Awaits, sameRead] at awaits ⊢
      exact awaits
  | detached => exact awaits
  | attachStore windex => exact awaits
  | attachCheck rindex => exact awaits
  | detachLoad rindex => exact awaits
  | detachStore rindex windex => exact awaits

section Steps

variable {pool : PoolSize} {start overflowed : Nat} {state : State Data} {log : Log Data}

theorem Delivering.finished_lt (delivering : Delivering pool start overflowed state log)
    {entry : Nat × Data} (inside : entry ∈ log.finished) : entry.1 < state.writeIndex := by
  have range := index_mem_of_consecutive delivering.advances inside
  have progress := delivering.progress
  omega

theorem Delivering.write (delivering : Delivering pool start overflowed state log)
    {next : State Data} {contents : Data} (taken : writeData pool state contents = some next) :
    Delivering pool start overflowed next log := by
  unfold writeData at taken
  split at taken
  · rename_i index idle given
    cases taken
    have current := delivering.writeBuf index given
    refine { delivering with retained := ?_ }
    intro entry inside unread
    have finished := delivering.finished_lt inside
    have bound := delivering.bound
    have apart := bufferAt_ne pool finished (by simp only at unread; omega)
    rw [current]
    simp only [Function.update_of_ne apart]
    exact delivering.retained entry inside unread
  · cases taken

theorem Delivering.begin (delivering : Delivering pool start overflowed state log)
    (idle : state.writer = .idle) :
    Delivering pool start overflowed { state with writer := .loaded state.writeIndex }
      { log with calls := log.calls + 1 } := by
  have accounted := delivering.accounted
  rw [idle] at accounted
  simp only [Writer.inFlight] at accounted
  refine { delivering with writer := rfl, pending := by simp, accounted := ?_ }
  simp only [Writer.inFlight]
  omega

theorem Delivering.compare (delivering : Delivering pool start overflowed state log)
    {windex : Nat} (loaded : state.writer = .loaded windex) :
    Delivering pool start overflowed { state with writer := .compared windex state.readIndex }
      log := by
  have writer := delivering.writer
  have accounted := delivering.accounted
  rw [loaded] at writer accounted
  refine { delivering with writer := writer, pending := ?_, accounted := accounted }
  intro windex' rindex same room
  cases same
  simp only [Writer.Agrees] at writer
  simp only [hasRoom, decide_eq_true_eq] at room
  have reduced := Nat.mod_le (state.readIndex + pool.size) (2 ^ 64)
  simp only
  omega

theorem Delivering.advance (delivering : Delivering pool start overflowed state log)
    {windex rindex : Nat} (comparing : state.writer = .compared windex rindex)
    (room : hasRoom pool windex rindex = true) :
    Delivering pool start overflowed
      { state with writeIndex := windex + 1, writeBuf := some (windex + 1), writer := .idle }
      { log with
        finished := log.finished ++ [(windex, state.data (bufferAt pool windex))] } := by
  have writer := delivering.writer
  have accounted := delivering.accounted
  have progress := delivering.progress
  have behind := delivering.behind
  have pending := delivering.pending windex rindex comparing room
  have wide : windex + 1 < 2 ^ 64 := by
    rw [← hasRoom_lt room]
    exact Nat.mod_lt _ (by decide)
  rw [comparing] at writer accounted
  simp only [Writer.Agrees] at writer
  simp only [Writer.inFlight] at accounted
  refine
    { wide := wide
      writeBuf := by simp
      writer := trivial
      behind := by simp only; omega
      bound := by simp only; omega
      pending := by simp
      progress := by simp only [List.length_append, List.length_singleton]; omega
      advances := consecutive_snoc delivering.advances (by omega)
      started := delivering.started
      consecutive := delivering.consecutive
      contents := ?_
      retained := ?_
      awaits := ?_
      accounted := ?_ }
  · intro entry inside
    exact List.mem_append_left _ (delivering.contents entry inside)
  · intro entry inside unread
    rcases List.mem_append.mp inside with older | newest
    · exact delivering.retained entry older unread
    · rw [List.mem_singleton.mp newest]
  · exact delivering.awaits.grow rfl rfl (by simp only; omega)
  · simp only [Writer.inFlight, List.length_append, List.length_singleton]
    omega

theorem Delivering.overflow (delivering : Delivering pool start overflowed state log)
    {windex rindex : Nat} (comparing : state.writer = .compared windex rindex) :
    Delivering pool start overflowed
      { state with
        overflowCount := state.overflowCount + 1, writeBuf := some windex, writer := .idle }
      log := by
  have writer := delivering.writer
  have accounted := delivering.accounted
  rw [comparing] at writer accounted
  simp only [Writer.Agrees] at writer
  simp only [Writer.inFlight] at accounted
  refine { delivering with
    writeBuf := by simp [writer], writer := trivial, pending := by simp, accounted := ?_ }
  simp only [Writer.inFlight]
  omega

theorem Delivering.nextWritableBuffer (delivering : Delivering pool start overflowed state log) :
    Delivering pool start overflowed (nextWritableBuffer pool state)
      (record pool state log .writer) := by
  unfold Pool.nextWritableBuffer record
  cases position : state.writer with
  | idle => exact delivering.begin position
  | loaded windex => exact delivering.compare position
  | compared windex rindex =>
      by_cases room : hasRoom pool windex rindex = true
      · simp only [room, if_true, hasRoom_lt room]
        exact delivering.advance position room
      · simp only [room]
        exact delivering.overflow position

theorem Delivering.nextReadableBuffer (delivering : Delivering pool start overflowed state log)
    (attached : state.reader = .attached) :
    Delivering pool start overflowed (nextReadableBuffer state) log := by
  have wide := delivering.wide
  have awaits := delivering.awaits
  rw [attached] at awaits
  simp only [Reader.Awaits] at awaits
  rcases awaits with ⟨null, position⟩ | ⟨held, unread, position⟩
  · simp only [Pool.nextReadableBuffer, null]
    exact { delivering with awaits := ⟨rfl, position⟩ }
  · simp only [Pool.nextReadableBuffer, held]
    have noWrap : (state.readIndex + 1) % 2 ^ 64 = state.readIndex + 1 :=
      Nat.mod_eq_of_lt (by omega)
    rw [noWrap]
    exact { delivering with awaits := ⟨rfl, unread, position, rfl⟩ }

theorem Delivering.release (delivering : Delivering pool start overflowed state log)
    {rindex : Nat} (storing : state.reader = .nextStore rindex) :
    Delivering pool start overflowed
      { state with readIndex := rindex, reader := .nextCheck rindex } log := by
  have awaits := delivering.awaits
  have bound := delivering.bound
  have started := delivering.started
  rw [storing] at awaits
  simp only [Reader.Awaits] at awaits
  obtain ⟨held, unread, position, next⟩ := awaits
  refine { delivering with
    behind := by simp only; omega
    bound := by simp only; omega
    pending := ?_
    started := by simp only; omega
    retained := ?_
    awaits := ⟨rfl, by simp only; omega⟩ }
  · intro windex loaded comparing room
    have pending := delivering.pending windex loaded comparing room
    simp only
    omega
  · intro entry inside later
    exact delivering.retained entry inside (by simp only at later; omega)

theorem Delivering.deliver (delivering : Delivering pool start overflowed state log)
    {rindex : Nat} (checking : state.reader = .nextCheck rindex)
    (available : state.writeIndex > rindex + 1) :
    Delivering pool start overflowed
      { state with curReadBuf := .held (rindex + 1), reader := .attached }
      { log with
        returned := log.returned ++ [(rindex + 1, state.data (bufferAt pool (rindex + 1)))] } := by
  have awaits := delivering.awaits
  have started := delivering.started
  have progress := delivering.progress
  rw [checking] at awaits
  simp only [Reader.Awaits] at awaits
  obtain ⟨stored, position⟩ := awaits
  obtain ⟨contents, inside⟩ := exists_mem_of_consecutive delivering.advances
    (show start ≤ rindex + 1 by omega) (by omega)
  have intact : state.data (bufferAt pool (rindex + 1)) = contents :=
    delivering.retained _ inside (by simp only; omega)
  refine { delivering with
    consecutive := consecutive_snoc delivering.consecutive (by omega)
    contents := ?_
    awaits := ?_ }
  · intro entry member
    rcases List.mem_append.mp member with older | newest
    · exact delivering.contents entry older
    · rw [List.mem_singleton.mp newest, intact]
      exact inside
  · refine Or.inr ⟨?_, ?_, ?_⟩
    · simp only [stored]
    · simp only
      omega
    · simp only [List.length_append, List.length_singleton]
      omega

theorem Delivering.withhold (delivering : Delivering pool start overflowed state log)
    {rindex : Nat} (checking : state.reader = .nextCheck rindex) :
    Delivering pool start overflowed { state with curReadBuf := .null, reader := .attached }
      log := by
  have awaits := delivering.awaits
  rw [checking] at awaits
  exact { delivering with awaits := Or.inl ⟨rfl, awaits.2⟩ }

theorem Delivering.continueReader (delivering : Delivering pool start overflowed state log)
    {next : State Data} (taken : continueReader pool state = some next) :
    Delivering pool start overflowed next (record pool state log .reader) := by
  have wide := delivering.wide
  have behind := delivering.behind
  have awaits := delivering.awaits
  cases position : state.reader with
  | nextStore rindex =>
      simp only [Pool.continueReader, position] at taken
      simp only [record, position]
      cases taken
      exact delivering.release position
  | nextCheck rindex =>
      rw [position] at awaits
      simp only [Reader.Awaits] at awaits
      have noWrap : (rindex + 1) % 2 ^ 64 = rindex + 1 := Nat.mod_eq_of_lt (by omega)
      simp only [Pool.continueReader, position, noWrap] at taken
      simp only [record, position, noWrap]
      split at taken
      · rename_i available
        cases taken
        rw [if_pos available]
        exact delivering.deliver position available
      · rename_i empty
        cases taken
        rw [if_neg empty]
        exact delivering.withhold position
  | attached => simp [Pool.continueReader, position] at taken
  | detached => simp [Pool.continueReader, position] at taken
  | attachStore windex => simp [position, Reader.Awaits] at awaits
  | attachCheck rindex => simp [position, Reader.Awaits] at awaits
  | detachLoad rindex => simp [position, Reader.Awaits] at awaits
  | detachStore rindex windex => simp [position, Reader.Awaits] at awaits

theorem Delivering.step (delivering : Delivering pool start overflowed state log)
    {next : State Data} {action : Action Data} (stays : action ≠ .detach)
    (taken : step pool state action = some next) :
    Delivering pool start overflowed next (record pool state log action) := by
  have awaits := delivering.awaits
  cases action with
  | write contents => exact delivering.write taken
  | writer =>
      cases taken
      exact delivering.nextWritableBuffer
  | next =>
      simp only [Pool.step] at taken
      split at taken <;> cases taken
      exact delivering.nextReadableBuffer ‹_›
  | reader => exact delivering.continueReader taken
  | detach => exact absurd rfl stays
  | attach =>
      simp only [Pool.step] at taken
      split at taken <;> cases taken
      simp_all [Reader.Awaits]
  | forget =>
      simp only [Pool.step] at taken
      split at taken <;> cases taken
      simp_all [Reader.Awaits]

end Steps

def Reader.Attaching (pool : PoolSize) (state : State Data) : Reader → Prop
  | .detached => True
  | .attachStore windex => windex = state.writeIndex
  | .attachCheck rindex => rindex = state.writeIndex - 1 ∧ state.readIndex = rindex
  | .attached =>
      state.readIndex = state.writeIndex - 1 ∧ state.writeIndex ≤ state.readIndex + pool.size
  | _ => False

structure Attaching (pool : PoolSize) (start overflowed : Nat) (state : State Data) : Prop
    extends Settled state where
  idle : state.writer = .idle
  null : state.curReadBuf = .null
  start : state.writeIndex = start
  overflowed : state.overflowCount = overflowed
  reader : state.reader.Attaching pool state

theorem Attaching.step {pool : PoolSize} {start overflowed : Nat} {state next : State Data}
    {action : Action Data} (attaching : Attaching pool start overflowed state)
    (only : action.isAttaching = true) (taken : step pool state action = some next) :
    Attaching pool start overflowed next := by
  have settled := step_settled pool taken attaching.toSettled
  have reader := attaching.reader
  have other : action ≠ .writer := by
    rintro rfl
    cases only
  obtain ⟨sameIndex, sameWriter, _, sameCount⟩ := step_frame pool taken other
  have idle := sameWriter.trans attaching.idle
  have start := sameIndex.trans attaching.start
  have overflowed := sameCount.trans attaching.overflowed
  cases action with
  | writer => cases only
  | next => cases only
  | detach => cases only
  | forget => cases only
  | write contents =>
      simp only [Pool.step, writeData] at taken
      split at taken <;> cases taken
      refine ⟨settled, idle, attaching.null, start, overflowed, ?_⟩
      cases position : state.reader <;> simp only [position] at reader ⊢ <;> exact reader
  | attach =>
      simp only [Pool.step] at taken
      split at taken <;> cases taken
      exact ⟨settled, idle, attaching.null, start, overflowed, rfl⟩
  | reader =>
      simp only [Pool.step] at taken
      cases position : state.reader with
      | attachStore windex =>
          rw [position] at reader
          simp only [Reader.Attaching] at reader
          simp only [continueReader, position] at taken
          cases taken
          refine ⟨settled, idle, attaching.null, start, overflowed, ?_, rfl⟩
          simp only
          split <;> omega
      | attachCheck rindex =>
          rw [position] at reader
          obtain ⟨stored, current⟩ := reader
          simp only [continueReader, position] at taken
          split at taken
          · cases taken
            exact ⟨settled, idle, attaching.null, start, overflowed, rfl⟩
          · rename_i ends
            have reduced := Nat.mod_le (rindex + pool.size) (2 ^ 64)
            cases taken
            refine ⟨settled, idle, attaching.null, start, overflowed, ?_, ?_⟩
            · simp only
              omega
            · simp only
              omega
      | detached => simp [continueReader, position] at taken
      | attached => simp [continueReader, position] at taken
      | nextStore rindex => simp [position, Reader.Attaching] at reader
      | nextCheck rindex => simp [position, Reader.Attaching] at reader
      | detachLoad rindex => simp [position, Reader.Attaching] at reader
      | detachStore rindex windex => simp [position, Reader.Attaching] at reader

theorem Attaching.delivering {pool : PoolSize} {start overflowed : Nat} {state : State Data}
    (attaching : Attaching pool start overflowed state) (attached : state.reader = .attached) :
    Delivering pool start overflowed state Log.empty := by
  have reader := attaching.reader
  have origin := attaching.start
  rw [attached] at reader
  obtain ⟨current, bound⟩ := reader
  refine
    { toSettled := attaching.toSettled
      behind := by omega
      bound := bound
      pending := by simp [attaching.idle]
      progress := by simp [Log.empty, origin]
      advances := by simp [Log.empty]
      started := by omega
      consecutive := by simp [Log.empty]
      contents := by simp [Log.empty]
      retained := by simp [Log.empty]
      awaits := ?_
      accounted := by simp [Log.empty, attaching.idle, attaching.overflowed, Writer.inFlight] }
  rw [attached]
  refine Or.inl ⟨attaching.null, ?_⟩
  simp only [Log.empty, List.length_nil]
  omega

theorem Delivering.holds_last {pool : PoolSize} {start overflowed : Nat} {state : State Data}
    {log : Log Data} (delivering : Delivering pool start overflowed state log) {index : Nat}
    (holds : readerHolds state = some index) :
    index = state.readIndex + 1 ∧ max start 1 + log.returned.length = state.readIndex + 2 := by
  have awaits := delivering.awaits
  cases position : state.reader with
  | attached =>
      rw [position] at awaits
      rcases awaits with ⟨null, given⟩ | ⟨held, unread, given⟩
      · simp [readerHolds, position, null] at holds
      · simp only [readerHolds, position, held, Option.some.injEq] at holds
        exact ⟨holds.symm, given⟩
  | nextStore rindex =>
      rw [position] at awaits
      obtain ⟨held, unread, given, stored⟩ := awaits
      simp only [readerHolds, position, held, Option.some.injEq] at holds
      exact ⟨holds.symm, given⟩
  | nextCheck rindex => simp [readerHolds, position] at holds
  | detached => simp [position, Reader.Awaits] at awaits
  | attachStore windex => simp [position, Reader.Awaits] at awaits
  | attachCheck rindex => simp [position, Reader.Awaits] at awaits
  | detachLoad rindex => simp [position, Reader.Awaits] at awaits
  | detachStore rindex windex => simp [position, Reader.Awaits] at awaits

theorem Delivering.unchanged {pool : PoolSize} {start overflowed : Nat} {state : State Data}
    {log : Log Data} (delivering : Delivering pool start overflowed state log) {index : Nat}
    (holds : readerHolds state = some index) :
    log.returned.getLast? = some (index, state.data (bufferAt pool index)) := by
  obtain ⟨next, given⟩ := delivering.holds_last holds
  have started := delivering.started
  rcases List.eq_nil_or_concat log.returned with none_ | ⟨earlier, last, split⟩
  · simp only [none_, List.length_nil] at given
    omega
  · rw [List.concat_eq_append] at split
    have member : last ∈ log.returned := by simp [split]
    have consecutive := delivering.consecutive
    rw [split, List.map_append, List.length_append, List.length_singleton,
      List.range'_1_concat] at consecutive
    have lastIndex := List.append_inj_right' consecutive rfl
    simp only [List.map_cons, List.map_nil, List.cons.injEq, and_true] at lastIndex
    simp only [split, List.length_append, List.length_singleton] at given
    have same : last.1 = index := by omega
    have retained := delivering.retained last (delivering.contents last member) (by omega)
    rw [split, List.getLast?_concat, ← same, retained]

theorem Delivering.available {pool : PoolSize} {start overflowed : Nat} {state : State Data}
    {log : Log Data} (delivering : Delivering pool start overflowed state log) {rindex : Nat}
    (checking : state.reader = .nextCheck rindex)
    (unread : max start 1 + log.returned.length < state.writeIndex) :
    ∃ next, Pool.step pool state .reader = some next ∧
      readerHolds next = some (max start 1 + log.returned.length) := by
  have wide := delivering.wide
  have awaits := delivering.awaits
  rw [checking] at awaits
  obtain ⟨stored, position⟩ := awaits
  have noWrap : (rindex + 1) % 2 ^ 64 = rindex + 1 := Nat.mod_eq_of_lt (by omega)
  have available : state.writeIndex > rindex + 1 := by omega
  refine ⟨{ state with curReadBuf := .held (rindex + 1), reader := .attached }, ?_, ?_⟩
  · simp only [Pool.step, Pool.continueReader, checking, noWrap, if_pos available]
  · simp only [readerHolds, Option.some.injEq]
    omega

theorem Delivering.delivered {pool : PoolSize} {attached final : State Data} {log : Log Data}
    (delivering : Delivering pool attached.writeIndex attached.overflowCount final log) :
    Delivered pool attached final log where
  advances := delivering.advances
  consecutive := delivering.consecutive
  contents := delivering.contents
  unchanged := fun _ holds => delivering.unchanged holds
  available := fun _ checking unread => delivering.available checking unread
  accounted := delivering.accounted

theorem observe_delivering {pool : PoolSize} {start overflowed : Nat} {state final : State Data}
    {log finalLog : Log Data} {actions : List (Action Data)}
    (delivering : Delivering pool start overflowed state log)
    (stays : ∀ action ∈ actions, action ≠ .detach)
    (ran : run (observe pool) (state, log) actions = some (final, finalLog)) :
    Delivering pool start overflowed final finalLog := by
  have kept : ∀ (observed : State Data × Log Data) (action : Action Data)
      (next : State Data × Log Data), action ≠ .detach → observe pool observed action = some next →
      Delivering pool start overflowed observed.1 observed.2 →
      Delivering pool start overflowed next.1 next.2 := by
    intro observed action next stays taken delivering
    obtain ⟨state, stepped, rfl⟩ := Option.map_eq_some_iff.mp taken
    exact delivering.step stays stepped
  exact run_invariant kept delivering (along_of_forall_mem _ stays _) ran

/--
A reader that attaches between two calls of the writer and stays attached is
given every buffer in turn, with the contents the writer left in it.
-/
theorem attached_reader_delivered (pool : PoolSize) (data : Nat → Data)
    (earlier attaching later : List (Action Data)) (before attached final : State Data)
    (log : Log Data)
    (reached : run (step pool) (State.new pool data) earlier = some before)
    (between : before.writer = .idle) (detached : before.reader = .detached)
    (noBuffer : before.curReadBuf = .null)
    (attaches : run (step pool) before attaching = some attached)
    (attachOnly : ∀ action ∈ attaching, action.isAttaching = true)
    (returns : attached.reader = .attached)
    (stays : ∀ action ∈ later, action ≠ .detach)
    (ran : run (observe pool) (attached, Log.empty) later = some (final, log)) :
    attached.writeIndex = before.writeIndex ∧ Delivered pool attached final log := by
  have settled : Settled before :=
    run_keeps (fun _ _ _ settled taken => step_settled pool taken settled)
      (new_settled pool data) reached
  have origin : Attaching pool before.writeIndex before.overflowCount before :=
    ⟨settled, between, noBuffer, rfl, rfl, by rw [detached]; trivial⟩
  have done : Attaching pool before.writeIndex before.overflowCount attached :=
    run_invariant (fun _ _ _ only taken attaching => attaching.step only taken) origin
      (along_of_forall_mem _ attachOnly _) attaches
  refine ⟨done.start, ?_⟩
  have delivering := observe_delivering (done.delivering returns) stays ran
  rw [← done.start, ← done.overflowed] at delivering
  exact delivering.delivered

def betweenCalls : State Nat where
  writeIndex := 1
  readIndex := readIndexMax twoBuffers
  overflowCount := 0
  data := fun _ => 0
  writer := .idle
  writeBuf := some 1
  reader := .detached
  curReadBuf := .null

def readerAttached : State Nat := { betweenCalls with readIndex := 0, reader := .attached }

def fillAndRead : List (Action Nat) :=
  [.write 7, .writer, .writer, .writer, .write 8, .next, .reader, .writer, .writer, .writer,
   .next, .reader]

theorem attached_reader_delivered_fillAndRead :
    ∃ (final : State Nat) (log : Log Nat),
      run (observe twoBuffers) (readerAttached, Log.empty) fillAndRead = some (final, log) ∧
      log.returned = [(1, 7)] ∧ log.finished = [(1, 7)] ∧ final.overflowCount = 1 ∧
      Delivered twoBuffers readerAttached final log :=
  ⟨_, _, rfl, rfl, rfl, rfl,
    (attached_reader_delivered twoBuffers (fun _ => 0) [.writer, .writer, .writer]
      [.attach, .reader, .reader] fillAndRead betweenCalls readerAttached _ _ rfl rfl rfl rfl rfl
      (by decide) rfl (by decide) rfl).2⟩

end Xpedite.Pool
