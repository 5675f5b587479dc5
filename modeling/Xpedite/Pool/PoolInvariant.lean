import Mathlib.Tactic.Ring
import Xpedite.Pool.PoolCore

/-!
Writer and reader never meet in a slot.  `Ordered` relates what each thread has
loaded to the indices and holds in every run; `Guarded` is the pool's documented
bound on the write index together with what a writer about to advance knows.
Only the return of `attachReader` can lose `Guarded`.
-/

namespace Xpedite.Pool

open Xpedite.Lib

variable {Data : Type}

theorem poolSize_gt_one (pool : PoolSize) : 1 < pool.size := by
  have valid := pool.valid
  simp only [isPoolSizeValid, gt_iff_lt, Bool.and_eq_true, decide_eq_true_eq] at valid
  exact valid.1

theorem bufferAt_eq_mod (pool : PoolSize) (index : Nat) :
    bufferAt pool index = index % pool.size := by
  have valid := pool.valid
  have large := poolSize_gt_one pool
  simp only [isPoolSizeValid, gt_iff_lt, Bool.and_eq_true, beq_iff_eq] at valid
  obtain ⟨exponent, power⟩ :=
    (Nat.and_sub_one_eq_zero_iff_isPowerOfTwo (by omega)).mp valid.2
  rw [bufferAt, power, Nat.and_two_pow_sub_one_eq_mod]

theorem bufferAt_ne (pool : PoolSize) {first second : Nat} (before : first < second)
    (near : second < first + pool.size) : bufferAt pool first ≠ bufferAt pool second := by
  rw [bufferAt_eq_mod, bufferAt_eq_mod]
  intro same
  have distance : (second - first) % pool.size = 0 := by
    exact Nat.sub_mod_eq_zero_of_mod_eq same.symm
  rw [Nat.mod_eq_of_lt (by omega)] at distance
  omega

def Writer.Agrees (writeIndex : Nat) : Writer → Prop
  | .idle => True
  | .loaded windex => windex = writeIndex
  | .compared windex _ => windex = writeIndex

def ReadBuf.NotHeld (buffer : ReadBuf) : Prop := ∀ index, buffer ≠ .held index

def ReadBuf.Below (writeIndex : Nat) : ReadBuf → Prop
  | .null => True
  | .held index => index < writeIndex
  | .stale index => index < writeIndex

def ReadBuf.Positioned (readIndex writeIndex : Nat) : ReadBuf → Prop
  | .null => readIndex ≤ writeIndex
  | .held index => index = readIndex + 1
  | .stale _ => readIndex ≤ writeIndex - 1

def Reader.Positioned (readIndex writeIndex : Nat) (buffer : ReadBuf) : Reader → Prop
  | .detached => buffer.NotHeld
  | .attachStore windex => buffer.NotHeld ∧ windex ≤ writeIndex
  | .attachCheck rindex => buffer.NotHeld ∧ readIndex = rindex ∧ rindex ≤ writeIndex - 1
  | .attached => buffer.Positioned readIndex writeIndex
  | .nextStore rindex =>
      buffer.Positioned readIndex writeIndex ∧ rindex = readIndex + 1 ∧ rindex ≤ writeIndex
  | .nextCheck rindex => readIndex = rindex ∧ rindex ≤ writeIndex
  | .detachLoad _ => buffer.Positioned readIndex writeIndex
  | .detachStore _ _ => buffer.Positioned readIndex writeIndex

structure Settled (state : State Data) : Prop where
  wide : state.writeIndex < 2 ^ 64
  writeBuf : ∀ index, state.writeBuf = some index → index = state.writeIndex
  writer : state.writer.Agrees state.writeIndex

structure Ordered (state : State Data) : Prop extends Settled state where
  below : state.curReadBuf.Below state.writeIndex
  reader : state.reader.Positioned state.readIndex state.writeIndex state.curReadBuf

theorem ReadBuf.Below.mono {buffer : ReadBuf} {older newer : Nat} (grown : older ≤ newer)
    (below : buffer.Below older) : buffer.Below newer := by
  cases buffer <;> simp only [ReadBuf.Below] at below ⊢ <;> omega

theorem ReadBuf.Positioned.mono {buffer : ReadBuf} {readIndex older newer : Nat}
    (grown : older ≤ newer) (positioned : buffer.Positioned readIndex older) :
    buffer.Positioned readIndex newer := by
  cases buffer <;> simp only [ReadBuf.Positioned] at positioned ⊢ <;> omega

theorem Reader.Positioned.mono {reader : Reader} {buffer : ReadBuf} {readIndex older newer : Nat}
    (grown : older ≤ newer) (positioned : reader.Positioned readIndex older buffer) :
    reader.Positioned readIndex newer buffer := by
  cases reader with
  | detached => exact positioned
  | attachStore windex => exact ⟨positioned.1, by have := positioned.2; omega⟩
  | attachCheck rindex => exact ⟨positioned.1, positioned.2.1, by have := positioned.2.2; omega⟩
  | attached => exact ReadBuf.Positioned.mono grown positioned
  | nextStore rindex =>
      exact ⟨ReadBuf.Positioned.mono grown positioned.1, positioned.2.1,
        by have := positioned.2.2; omega⟩
  | nextCheck rindex => exact ⟨positioned.1, by have := positioned.2; omega⟩
  | detachLoad rindex => exact ReadBuf.Positioned.mono grown positioned
  | detachStore rindex windex => exact ReadBuf.Positioned.mono grown positioned

theorem ReadBuf.abandon_notHeld (buffer : ReadBuf) : buffer.abandon.NotHeld := by
  intro index
  cases buffer <;> simp [ReadBuf.abandon]

theorem ReadBuf.Below.abandon {buffer : ReadBuf} {writeIndex : Nat}
    (below : buffer.Below writeIndex) : buffer.abandon.Below writeIndex := by
  cases buffer <;> exact below

theorem ReadBuf.NotHeld.positioned {buffer : ReadBuf} {readIndex writeIndex : Nat}
    (notHeld : buffer.NotHeld) (behind : readIndex ≤ writeIndex - 1) :
    buffer.Positioned readIndex writeIndex := by
  cases buffer with
  | null => simp only [ReadBuf.Positioned]; omega
  | held index => exact absurd rfl (notHeld index)
  | stale index => exact behind

theorem ReadBuf.Positioned.le {buffer : ReadBuf} {readIndex writeIndex : Nat}
    (below : buffer.Below writeIndex) (positioned : buffer.Positioned readIndex writeIndex) :
    readIndex ≤ writeIndex := by
  cases buffer <;> simp only [ReadBuf.Positioned, ReadBuf.Below] at positioned below <;> omega

theorem new_settled (pool : PoolSize) (data : Nat → Data) : Settled (State.new pool data) where
  wide := by simp [State.new]
  writeBuf := by simp [State.new]
  writer := trivial

theorem new_ordered (pool : PoolSize) (data : Nat → Data) : Ordered (State.new pool data) where
  toSettled := new_settled pool data
  below := trivial
  reader := by simp [State.new, Reader.Positioned, ReadBuf.NotHeld]

theorem hasRoom_lt {pool : PoolSize} {windex rindex : Nat}
    (room : hasRoom pool windex rindex = true) : (windex + 1) % 2 ^ 64 = windex + 1 := by
  simp only [hasRoom, decide_eq_true_eq] at room
  have bound := Nat.mod_lt (rindex + pool.size) (show 0 < 2 ^ 64 by decide)
  exact Nat.mod_eq_of_lt (by omega)

theorem nextWritableBuffer_settled (pool : PoolSize) {state : State Data}
    (settled : Settled state) : Settled (nextWritableBuffer pool state) := by
  have writer := settled.writer
  unfold nextWritableBuffer
  split
  · exact ⟨settled.wide, settled.writeBuf, rfl⟩
  · rename_i windex position
    rw [position] at writer
    exact ⟨settled.wide, settled.writeBuf, writer⟩
  · rename_i windex rindex position
    rw [position] at writer
    simp only [Writer.Agrees] at writer
    split
    · exact ⟨Nat.mod_lt _ (by decide), by simp, trivial⟩
    · exact ⟨settled.wide, by simp [writer], trivial⟩

theorem Settled.frame {state next : State Data} (settled : Settled state)
    (sameIndex : next.writeIndex = state.writeIndex) (sameWriter : next.writer = state.writer)
    (sameBuf : next.writeBuf = state.writeBuf) : Settled next where
  wide := sameIndex ▸ settled.wide
  writeBuf := by
    rw [sameIndex, sameBuf]
    exact settled.writeBuf
  writer := by
    rw [sameIndex, sameWriter]
    exact settled.writer

theorem step_frame (pool : PoolSize) {state next : State Data} {action : Action Data}
    (taken : step pool state action = some next) (other : action ≠ .writer) :
    next.writeIndex = state.writeIndex ∧ next.writer = state.writer ∧
      next.writeBuf = state.writeBuf ∧ next.overflowCount = state.overflowCount := by
  cases action with
  | write contents =>
      simp only [step, writeData] at taken
      split at taken <;> cases taken
      exact ⟨rfl, rfl, rfl, rfl⟩
  | writer => exact absurd rfl other
  | attach =>
      simp only [step] at taken
      split at taken <;> cases taken
      exact ⟨rfl, rfl, rfl, rfl⟩
  | next =>
      simp only [step] at taken
      split at taken <;> cases taken
      unfold nextReadableBuffer
      split <;> exact ⟨rfl, rfl, rfl, rfl⟩
  | detach =>
      simp only [step] at taken
      split at taken <;> cases taken
      exact ⟨rfl, rfl, rfl, rfl⟩
  | reader =>
      simp only [step, continueReader] at taken
      split at taken <;> try split at taken
      all_goals cases taken
      all_goals exact ⟨rfl, rfl, rfl, rfl⟩
  | forget =>
      simp only [step] at taken
      split at taken <;> cases taken
      exact ⟨rfl, rfl, rfl, rfl⟩

theorem step_settled (pool : PoolSize) {state next : State Data} {action : Action Data}
    (taken : step pool state action = some next) (settled : Settled state) : Settled next := by
  by_cases advance : action = .writer
  · subst advance
    cases taken
    exact nextWritableBuffer_settled pool settled
  · obtain ⟨sameIndex, sameWriter, sameBuf, _⟩ := step_frame pool taken advance
    exact settled.frame sameIndex sameWriter sameBuf

def Behind (state : State Data) : Prop :=
  state.curReadBuf.Below state.writeIndex ∧
    state.reader.Positioned state.readIndex state.writeIndex state.curReadBuf

theorem nextWritableBuffer_behind (pool : PoolSize) {state : State Data}
    (ordered : Ordered state) : Behind (nextWritableBuffer pool state) := by
  have writer := ordered.writer
  unfold nextWritableBuffer
  split
  · exact ⟨ordered.below, ordered.reader⟩
  · exact ⟨ordered.below, ordered.reader⟩
  · rename_i windex rindex position
    rw [position] at writer
    simp only [Writer.Agrees] at writer
    split
    · rename_i room
      simp only [Behind, hasRoom_lt room]
      have grown : state.writeIndex ≤ windex + 1 := by omega
      exact ⟨ordered.below.mono grown, ordered.reader.mono grown⟩
    · exact ⟨ordered.below, ordered.reader⟩

theorem nextReadableBuffer_behind {state : State Data} (small : state.writeIndex < 2 ^ 63)
    (attached : state.reader = .attached) (ordered : Ordered state) :
    Behind (nextReadableBuffer state) := by
  have reader := ordered.reader
  rw [attached] at reader
  have below := ordered.below
  have behind := ReadBuf.Positioned.le below reader
  have noWrap : (state.readIndex + 1) % 2 ^ 64 = state.readIndex + 1 :=
    Nat.mod_eq_of_lt (by omega)
  unfold nextReadableBuffer
  split
  · exact ⟨ordered.below, rfl, behind⟩
  · rename_i notNull
    refine ⟨ordered.below, reader, noWrap, ?_⟩
    rw [noWrap]
    cases buffer : state.curReadBuf with
    | null => exact absurd buffer notNull
    | held index =>
        simp only [buffer, Reader.Positioned, ReadBuf.Positioned, ReadBuf.Below] at reader below
        simp only
        omega
    | stale index =>
        simp only [buffer, Reader.Positioned, ReadBuf.Positioned, ReadBuf.Below] at reader below
        simp only
        omega

theorem continueReader_behind (pool : PoolSize) {state next : State Data}
    (small : state.writeIndex < 2 ^ 63) (taken : continueReader pool state = some next)
    (ordered : Ordered state) : Behind next := by
  have reader := ordered.reader
  unfold continueReader at taken
  split at taken
  case h_1 windex position =>
      rw [position] at reader
      cases taken
      refine ⟨ordered.below, reader.1, rfl, ?_⟩
      have loaded := reader.2
      dsimp only
      split <;> omega
  case h_2 rindex position =>
      rw [position] at reader
      obtain ⟨notHeld, stored, behind⟩ := reader
      split at taken
      · cases taken
        exact ⟨ordered.below, notHeld, Nat.le_refl _⟩
      · cases taken
        refine ⟨ordered.below, ?_⟩
        exact notHeld.positioned (by simp only; omega)
  case h_3 rindex position =>
      rw [position] at reader
      cases taken
      exact ⟨ordered.below, rfl, reader.2.2⟩
  case h_4 rindex position =>
      rw [position] at reader
      obtain ⟨stored, behind⟩ := reader
      have noWrap : (rindex + 1) % 2 ^ 64 = rindex + 1 := Nat.mod_eq_of_lt (by omega)
      rw [noWrap] at taken
      split at taken
      · cases taken
        refine ⟨?_, ?_⟩
        · simpa only [ReadBuf.Below] using ‹_›
        · simp only [Reader.Positioned, ReadBuf.Positioned, stored]
      · cases taken
        exact ⟨trivial, by simp only [Reader.Positioned, ReadBuf.Positioned, stored, behind]⟩
  case h_5 rindex position =>
      rw [position] at reader
      cases taken
      exact ⟨ordered.below, reader⟩
  case h_6 rindex windex position =>
      cases taken
      exact ⟨ordered.below.abandon, ReadBuf.abandon_notHeld _⟩
  case h_7 => cases taken
  case h_8 => cases taken

theorem step_behind (pool : PoolSize) {state next : State Data} {action : Action Data}
    (small : state.writeIndex < 2 ^ 63) (taken : step pool state action = some next)
    (ordered : Ordered state) : Behind next := by
  have reader := ordered.reader
  cases action with
  | write contents =>
      simp only [step, writeData] at taken
      split at taken <;> cases taken
      exact ⟨ordered.below, ordered.reader⟩
  | writer =>
      cases taken
      exact nextWritableBuffer_behind pool ordered
  | attach =>
      simp only [step] at taken
      split at taken <;> cases taken
      rename_i position
      rw [position] at reader
      exact ⟨ordered.below, reader, Nat.le_refl _⟩
  | next =>
      simp only [step] at taken
      split at taken <;> cases taken
      exact nextReadableBuffer_behind small ‹_› ordered
  | detach =>
      simp only [step] at taken
      split at taken <;> cases taken
      rename_i position
      rw [position] at reader
      exact ⟨ordered.below, reader⟩
  | reader => exact continueReader_behind pool small taken ordered
  | forget =>
      simp only [step] at taken
      split at taken <;> cases taken
      rename_i position
      refine ⟨trivial, ?_⟩
      simp [position, Reader.Positioned, ReadBuf.NotHeld]

theorem step_ordered (pool : PoolSize) {state next : State Data} {action : Action Data}
    (small : state.writeIndex < 2 ^ 63) (taken : step pool state action = some next)
    (ordered : Ordered state) : Ordered next := by
  obtain ⟨below, reader⟩ := step_behind pool small taken ordered
  exact ⟨step_settled pool taken ordered.toSettled, below, reader⟩

structure Guarded (pool : PoolSize) (state : State Data) : Prop where
  bound : state.reader.isAttached = true → state.writeIndex ≤ state.readIndex + pool.size
  pending : state.reader.isAttached = true → ∀ windex rindex,
    state.writer = .compared windex rindex → hasRoom pool windex rindex = true →
      state.writeIndex < state.readIndex + pool.size

/--
`attachReader` returns just as the write index is a whole pool ahead of the read
index it stored, while the writer has already compared with an older read index
and is about to advance once more.
-/
def attachRaces (pool : PoolSize) (state : State Data) (action : Action Data) : Bool :=
  match action, state.reader, state.writer with
  | .reader, .attachCheck rindex, .compared windex loaded =>
      state.writeIndex == rindex + pool.size && hasRoom pool windex loaded
  | _, _, _ => false

theorem new_guarded (pool : PoolSize) (data : Nat → Data) : Guarded pool (State.new pool data) where
  bound := by simp [State.new, Reader.isAttached]
  pending := by simp [State.new, Reader.isAttached]

theorem Guarded.raise {pool : PoolSize} {state next : State Data} (guarded : Guarded pool state)
    (attached : state.reader.isAttached = true) (sameWriter : next.writer = state.writer)
    (sameIndex : next.writeIndex = state.writeIndex) (raised : state.readIndex ≤ next.readIndex) :
    Guarded pool next where
  bound := by
    intro _
    have bound := guarded.bound attached
    omega
  pending := by
    intro _ windex rindex position room
    have pending := guarded.pending attached windex rindex (sameWriter ▸ position) room
    omega

theorem Guarded.of_detached {pool : PoolSize} {state : State Data}
    (detached : state.reader.isAttached = false) : Guarded pool state where
  bound := by simp [detached]
  pending := by simp [detached]

theorem readIndex_le_of_attached {state : State Data} (ordered : Ordered state)
    (attached : state.reader.isAttached = true) : state.readIndex ≤ state.writeIndex := by
  have reader := ordered.reader
  cases position : state.reader with
  | detached => simp [position, Reader.isAttached] at attached
  | attachStore windex => simp [position, Reader.isAttached] at attached
  | attachCheck rindex => simp [position, Reader.isAttached] at attached
  | attached =>
      rw [position] at reader
      exact ReadBuf.Positioned.le ordered.below reader
  | nextStore rindex =>
      rw [position] at reader
      exact reader.1.le ordered.below
  | nextCheck rindex =>
      rw [position] at reader
      obtain ⟨stored, behind⟩ := reader
      omega
  | detachLoad rindex =>
      rw [position] at reader
      exact ReadBuf.Positioned.le ordered.below reader
  | detachStore rindex windex =>
      rw [position] at reader
      exact ReadBuf.Positioned.le ordered.below reader

theorem hasRoom_iff {pool : PoolSize} {windex rindex : Nat} (small : rindex < 2 ^ 63) :
    hasRoom pool windex rindex = true ↔ windex < rindex + pool.size := by
  have unsigned := pool.unsigned
  rw [hasRoom, decide_eq_true_eq, Nat.mod_eq_of_lt (by omega)]

theorem nextWritableBuffer_guarded (pool : PoolSize) {state : State Data}
    (small : state.writeIndex < 2 ^ 63) (ordered : Ordered state) (guarded : Guarded pool state) :
    Guarded pool (nextWritableBuffer pool state) := by
  have writer := ordered.writer
  unfold nextWritableBuffer
  split
  · exact ⟨guarded.bound, by simp⟩
  · rename_i windex position
    rw [position] at writer
    refine ⟨guarded.bound, ?_⟩
    intro attached windex' rindex same room
    have behind := readIndex_le_of_attached ordered attached
    cases same
    rw [hasRoom_iff (by omega)] at room
    simp only [Writer.Agrees] at writer
    simp only
    omega
  · rename_i windex rindex position
    rw [position] at writer
    simp only [Writer.Agrees] at writer
    split
    · rename_i room
      simp only [hasRoom_lt room]
      refine ⟨?_, by simp⟩
      intro attached
      have advance := guarded.pending attached windex rindex position room
      simp only
      omega
    · exact ⟨guarded.bound, by simp⟩

theorem continueReader_guarded (pool : PoolSize) {state next : State Data}
    (small : state.writeIndex < 2 ^ 63) (unraced : attachRaces pool state .reader = false)
    (taken : continueReader pool state = some next) (ordered : Ordered state)
    (guarded : Guarded pool state) : Guarded pool next := by
  have reader := ordered.reader
  have unsigned := pool.unsigned
  unfold continueReader at taken
  split at taken
  case h_1 windex position =>
      cases taken
      exact Guarded.of_detached rfl
  case h_2 rindex position =>
      rw [position] at reader
      obtain ⟨notHeld, stored, behind⟩ := reader
      split at taken
      · cases taken
        exact Guarded.of_detached rfl
      · -- The loop of `attachReader` ends: the bound is the negation of its condition.
        rename_i ends
        rw [Nat.mod_eq_of_lt (by omega)] at ends
        cases taken
        refine ⟨by simp only; omega, ?_⟩
        intro _ windex loaded comparing room
        simp only at comparing ⊢
        simp only [attachRaces, position, comparing, room, Bool.and_true, beq_eq_false_iff_ne]
          at unraced
        omega
  case h_3 rindex position =>
      rw [position] at reader
      cases taken
      exact guarded.raise (by rw [position]; rfl) rfl rfl (by have := reader.2.1; simp only; omega)
  case h_4 rindex position =>
      have attached : state.reader.isAttached = true := by rw [position]; rfl
      split at taken
      · cases taken
        exact guarded.raise attached rfl rfl (Nat.le_refl _)
      · cases taken
        exact guarded.raise attached rfl rfl (Nat.le_refl _)
  case h_5 rindex position =>
      cases taken
      exact guarded.raise (by rw [position]; rfl) rfl rfl (Nat.le_refl _)
  case h_6 rindex windex position =>
      cases taken
      exact Guarded.of_detached rfl
  case h_7 => cases taken
  case h_8 => cases taken

theorem step_guarded (pool : PoolSize) {state next : State Data} {action : Action Data}
    (small : state.writeIndex < 2 ^ 63) (unraced : attachRaces pool state action = false)
    (taken : step pool state action = some next) (ordered : Ordered state)
    (guarded : Guarded pool state) : Guarded pool next := by
  cases action with
  | write contents =>
      simp only [step, writeData] at taken
      split at taken
      · cases taken
        exact ⟨guarded.bound, guarded.pending⟩
      · cases taken
  | writer =>
      cases taken
      exact nextWritableBuffer_guarded pool small ordered guarded
  | attach =>
      simp only [step] at taken
      split at taken
      · cases taken
        exact Guarded.of_detached rfl
      · cases taken
  | next =>
      simp only [step] at taken
      split at taken
      · rename_i position
        have attached : state.reader.isAttached = true := by rw [position]; rfl
        cases taken
        unfold nextReadableBuffer
        split <;> exact guarded.raise attached rfl rfl (Nat.le_refl _)
      · cases taken
  | detach =>
      simp only [step] at taken
      split at taken
      · rename_i position
        cases taken
        exact guarded.raise (by rw [position]; rfl) rfl rfl (Nat.le_refl _)
      · cases taken
  | reader => exact continueReader_guarded pool small unraced taken ordered guarded
  | forget =>
      simp only [step] at taken
      split at taken
      · rename_i position
        cases taken
        exact Guarded.of_detached (by simp only; rw [position]; rfl)
      · cases taken

def SlotsApart (pool : PoolSize) (state : State Data) : Prop :=
  ∀ reading writing, readerHolds state = some reading → state.writeBuf = some writing →
    bufferAt pool reading ≠ bufferAt pool writing

/-- Invariant #2 of the pool. -/
def WithinPool (pool : PoolSize) (state : State Data) : Prop :=
  state.reader.isAttached = true → state.writeIndex ≤ state.readIndex + pool.size

theorem readerHolds_eq_some {state : State Data} (ordered : Ordered state) {index : Nat}
    (holds : readerHolds state = some index) :
    state.reader.isAttached = true ∧ index = state.readIndex + 1 ∧ index < state.writeIndex := by
  have reader := ordered.reader
  have below := ordered.below
  have held : state.curReadBuf = .held index := by
    unfold readerHolds at holds
    split at holds
    · cases holds
    · cases holds
      assumption
    · cases holds
  rw [held] at reader below
  cases position : state.reader with
  | nextCheck rindex => simp [readerHolds, position] at holds
  | detached =>
      rw [position] at reader
      exact absurd rfl (reader index)
  | attachStore windex =>
      rw [position] at reader
      exact absurd rfl (reader.1 index)
  | attachCheck rindex =>
      rw [position] at reader
      exact absurd rfl (reader.1 index)
  | nextStore rindex =>
      rw [position] at reader
      exact ⟨rfl, reader.1, below⟩
  | attached =>
      rw [position] at reader
      exact ⟨rfl, reader, below⟩
  | detachLoad rindex =>
      rw [position] at reader
      exact ⟨rfl, reader, below⟩
  | detachStore rindex windex =>
      rw [position] at reader
      exact ⟨rfl, reader, below⟩

theorem slotsApart_of_guarded {pool : PoolSize} {state : State Data} (ordered : Ordered state)
    (guarded : Guarded pool state) : SlotsApart pool state := by
  intro reading writing holds given
  obtain ⟨attached, next, behind⟩ := readerHolds_eq_some ordered holds
  have bound := guarded.bound attached
  rw [ordered.writeBuf writing given]
  exact bufferAt_ne pool behind (by omega)

/-- The read index the loop of `attachReader` stored is a whole pool behind: one more store of
the pending write index breaks the bound. -/
theorem attachRaces_breaks {pool : PoolSize} {state : State Data} {action : Action Data}
    (small : state.writeIndex < 2 ^ 63) (ordered : Ordered state)
    (races : attachRaces pool state action = true) :
    ∃ next, run (step pool) state [action, .writer] = some next ∧ ¬WithinPool pool next := by
  have reader := ordered.reader
  have writer := ordered.writer
  have unsigned := pool.unsigned
  unfold attachRaces at races
  split at races
  · rename_i rindex windex loaded position comparing
    rw [position] at reader
    rw [comparing] at writer
    obtain ⟨notHeld, stored, behind⟩ := reader
    simp only [Writer.Agrees] at writer
    simp only [Bool.and_eq_true, beq_iff_eq] at races
    obtain ⟨full, room⟩ := races
    have ends : ¬state.writeIndex > (rindex + pool.size) % 2 ^ 64 := by
      rw [Nat.mod_eq_of_lt (by omega)]
      omega
    refine ⟨_, by
      simp only [run, step, continueReader, position, if_neg ends, nextWritableBuffer, comparing,
        if_pos room, Option.bind_some]
      rfl, ?_⟩
    intro within
    have bound := within rfl
    simp only [hasRoom_lt room] at bound
    omega
  · cases races

def SmallIndex (state : State Data) (_ : Action Data) : Prop := state.writeIndex < 2 ^ 63

def Careful (pool : PoolSize) (state : State Data) (action : Action Data) : Prop :=
  SmallIndex state action ∧ attachRaces pool state action = false

instance (state : State Data) (action : Action Data) : Decidable (SmallIndex state action) :=
  inferInstanceAs (Decidable (state.writeIndex < 2 ^ 63))

instance (pool : PoolSize) (state : State Data) (action : Action Data) :
    Decidable (Careful pool state action) :=
  inferInstanceAs (Decidable (_ ∧ _))

theorem run_ordered (pool : PoolSize) {data : Nat → Data} {actions : List (Action Data)}
    {state : State Data} (small : Along (step pool) SmallIndex (State.new pool data) actions)
    (reached : run (step pool) (State.new pool data) actions = some state) : Ordered state :=
  run_invariant (fun _ _ _ allowed taken ordered => step_ordered pool allowed taken ordered)
    (new_ordered pool data) small reached

theorem run_guarded (pool : PoolSize) {data : Nat → Data} {actions : List (Action Data)}
    {state : State Data} (careful : Along (step pool) (Careful pool) (State.new pool data) actions)
    (reached : run (step pool) (State.new pool data) actions = some state) :
    Ordered state ∧ Guarded pool state := by
  have kept : ∀ (state : State Data) (action : Action Data) (next : State Data),
      Careful pool state action → step pool state action = some next →
      Ordered state ∧ Guarded pool state → Ordered next ∧ Guarded pool next := by
    rintro state action next ⟨small, unraced⟩ taken ⟨ordered, guarded⟩
    exact ⟨step_ordered pool small taken ordered,
      step_guarded pool small unraced taken ordered guarded⟩
  exact run_invariant kept ⟨new_ordered pool data, new_guarded pool data⟩ careful reached

/--
The reader and the writer are apart in every state of a run in which
`attachReader` never returns into the race; from a state in which it does, the
next access of the writer breaks the pool's bound.
-/
theorem slots_apart_unless_attachRaces (pool : PoolSize) (data : Nat → Data) :
    (∀ actions state, Along (step pool) (Careful pool) (State.new pool data) actions →
      run (step pool) (State.new pool data) actions = some state →
      SlotsApart pool state ∧ WithinPool pool state) ∧
    (∀ actions state action, Along (step pool) SmallIndex (State.new pool data) actions →
      run (step pool) (State.new pool data) actions = some state → state.writeIndex < 2 ^ 63 →
      attachRaces pool state action = true →
      ∃ next, run (step pool) state [action, .writer] = some next ∧ ¬WithinPool pool next) := by
  constructor
  · intro actions state careful reached
    obtain ⟨ordered, guarded⟩ := run_guarded pool careful reached
    exact ⟨slotsApart_of_guarded ordered guarded, guarded.bound⟩
  · intro actions state action along reached small races
    exact attachRaces_breaks small (run_ordered pool along reached) races

def twoBuffers : PoolSize := ⟨2, by decide, by decide⟩

/-- The writer advances twice and compares for a third time while the reader is in `attachReader`. -/
def attachRace : List (Action Nat) :=
  [.writer, .writer, .writer, .attach, .writer, .writer, .writer, .writer, .writer,
   .reader, .reader, .writer, .next, .reader]

theorem not_slots_apart_attachRace :
    ¬∀ (pool : PoolSize) (data : Nat → Nat) (actions : List (Action Nat)) (state : State Nat),
      Along (step pool) SmallIndex (State.new pool data) actions →
      run (step pool) (State.new pool data) actions = some state →
      SlotsApart pool state ∧ WithinPool pool state := by
  intro apart
  have final : ∃ state, run (step twoBuffers) (State.new twoBuffers fun _ => 0) attachRace
      = some state ∧ readerHolds state = some 1 ∧ state.writeBuf = some 3 := by
    exact ⟨_, rfl, rfl, rfl⟩
  obtain ⟨state, reached, reading, writing⟩ := final
  exact (apart twoBuffers _ attachRace state (by decide) reached).1 1 3 reading writing (by decide)

def attachThenRead : List (Action Nat) :=
  [.writer, .writer, .writer, .attach, .reader, .reader, .writer, .writer, .writer, .next, .reader]

theorem slots_apart_attachThenRead :
    ∃ state : State Nat, run (step twoBuffers) (State.new twoBuffers fun _ => 0) attachThenRead
      = some state ∧ readerHolds state = some 1 ∧ state.writeBuf = some 2 ∧
      SlotsApart twoBuffers state ∧ WithinPool twoBuffers state :=
  ⟨_, rfl, rfl, rfl, (slots_apart_unless_attachRaces twoBuffers fun _ => 0).1 attachThenRead _
    (by decide) rfl⟩

end Xpedite.Pool
