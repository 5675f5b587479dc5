import Mathlib.Algebra.Group.Int.Defs
import Mathlib.Algebra.Group.Nat.Defs
import Xpedite.Transport.BufferCore
import Xpedite.Transport.Tape

/-!
What `ensureRoom` keeps of the receive buffer.  Without an overflow of 32 bits it does what the
buffer with cursors in the naturals does, and what that one does is known from its tape.
-/

namespace Xpedite.Transport

namespace Buffer32

def toBuffer (buffer : Buffer32) : Buffer :=
  ⟨buffer.bytes, buffer.capacity.toNat, buffer.inPos.toNat, buffer.outPos.toNat⟩

structure Valid (buffer : Buffer32) : Prop where
  ordered : buffer.outPos.toNat ≤ buffer.inPos.toNat
  fits : buffer.inPos.toNat ≤ buffer.capacity.toNat
  length : buffer.bytes.length = buffer.capacity.toNat

/-- No sum, difference or product of `ensureRoom` leaves its type. -/
structure NoOverflow (buffer : Buffer32) (size : UInt32) : Prop where
  reach : buffer.inPos.toNat + size.toNat < 2 ^ 32
  needed : buffer.size.toNat + size.toNat < buffer.capacity.toNat + 2 ^ 31
  spare : buffer.capacity.toNat < buffer.inPos.toNat + size.toNat →
    buffer.capacity.toNat ≤ buffer.size.toNat + size.toNat + 2 ^ 31
  doubled : ∀ doublings, buffer.capacity.toNat * 2 ^ doublings < buffer.size.toNat + size.toNat →
    buffer.capacity.toNat * 2 ^ (doublings + 1) < 2 ^ 32

/-- What a reader of the buffer relies on. -/
def KeepsUnread (buffer : Buffer32) (size : UInt32) : Prop :=
  ∃ after, buffer.ensureRoom size = some after ∧ after.unread = buffer.unread ∧
    after.outPos ≤ after.inPos ∧ after.inPos ≤ after.capacity ∧ size ≤ after.usableCapacity

section Cursors

variable {buffer : Buffer32}

theorem Valid.toNat_size (valid : buffer.Valid) :
    buffer.size.toNat = buffer.inPos.toNat - buffer.outPos.toNat :=
  UInt32.toNat_sub_of_le _ _ (UInt32.le_iff_toNat_le.mpr valid.ordered)

theorem Valid.toNat_usableCapacity (valid : buffer.Valid) :
    buffer.usableCapacity.toNat = buffer.capacity.toNat - buffer.inPos.toNat :=
  UInt32.toNat_sub_of_le _ _ (UInt32.le_iff_toNat_le.mpr valid.fits)

theorem Valid.length_unread (valid : buffer.Valid) : buffer.unread.length = buffer.size.toNat := by
  have ordered := valid.ordered
  have fits := valid.fits
  rw [unread, List.length_take, List.length_drop, valid.length, valid.toNat_size]
  omega

theorem new_valid (capacity : UInt32) : (new capacity).Valid where
  ordered := Nat.le_refl _
  fits := Nat.zero_le _
  length := List.length_replicate

theorem Valid.rewind (valid : buffer.Valid) : buffer.rewind.Valid where
  ordered := Nat.zero_le _
  fits := by
    have size := valid.toNat_size
    have fits := valid.fits
    change buffer.size.toNat ≤ buffer.capacity.toNat
    omega
  length := valid.length

theorem Valid.memmove (valid : buffer.Valid) : buffer.memmove.Valid where
  ordered := valid.ordered
  fits := valid.fits
  length := by
    have size := valid.toNat_size
    have fits := valid.fits
    simp only [Buffer32.memmove, List.length_append, List.length_drop, valid.length_unread,
      valid.length]
    omega

theorem Valid.realloc (valid : buffer.Valid) {newSize : UInt32}
    (larger : buffer.capacity.toNat ≤ newSize.toNat) : (buffer.realloc newSize).Valid where
  ordered := valid.ordered
  fits := Nat.le_trans valid.fits larger
  length := by
    simp only [Buffer32.realloc, List.length_append, List.length_replicate, valid.length]
    omega

theorem Valid.store (valid : buffer.Valid) {data : List UInt8}
    (room : data.length ≤ buffer.usableCapacity.toNat) : (buffer.store data).Valid := by
  have ordered := valid.ordered
  have fits := valid.fits
  have small := buffer.capacity.toNat_lt
  rw [valid.toNat_usableCapacity] at room
  have moved : (buffer.inPos + UInt32.ofNat data.length).toNat =
      buffer.inPos.toNat + data.length := by
    rw [UInt32.toNat_add, UInt32.toNat_ofNat']
    omega
  refine ⟨?_, ?_, ?_⟩
  · change buffer.outPos.toNat ≤ (buffer.inPos + UInt32.ofNat data.length).toNat
    omega
  · change (buffer.inPos + UInt32.ofNat data.length).toNat ≤ buffer.capacity.toNat
    omega
  · simp only [Buffer32.store, List.length_append, List.length_take, List.length_drop, valid.length]
    omega

theorem Valid.read (valid : buffer.Valid) (socket : Socket) : (buffer.read socket).2.1.Valid := by
  rw [Buffer32.read]
  split
  case isTrue => exact valid
  case isFalse =>
    rw [Socket.read]
    cases socket.arrival with
    | failed => exact valid
    | ready count =>
        dsimp only
        split
        case h_1 data rest received =>
          split at received
          · cases received
          · cases received
            refine valid.store ?_
            rw [List.length_take]
            omega
        case h_2 => exact valid
        case h_3 => exact valid

theorem Valid.advanceRead (valid : buffer.Valid) {size : UInt32} {after : Buffer32}
    (advanced : buffer.advanceRead size = some after) : after.Valid := by
  rw [Buffer32.advanceRead] at advanced
  split at advanced
  case isTrue => cases advanced
  case isFalse within =>
    cases advanced
    exact ⟨UInt32.le_iff_toNat_le.mp (UInt32.not_lt.mp within), valid.fits, valid.length⟩

end Cursors

section Doubling

theorem target_le_of_doubleTo {target size newSize : UInt32} {rounds : Nat}
    (stopped : doubleTo target rounds size = some newSize) : target.toNat ≤ newSize.toNat := by
  induction rounds generalizing size with
  | zero => cases stopped
  | succ rounds ih =>
      rw [doubleTo] at stopped
      split at stopped
      case isTrue => exact ih stopped
      case isFalse enough =>
        cases stopped
        exact UInt32.le_iff_toNat_le.mp (UInt32.not_lt.mp enough)

theorem le_of_doubleTo {target size newSize : UInt32} {rounds : Nat}
    (stopped : doubleTo target rounds size = some newSize) : size.toNat ≤ newSize.toNat := by
  by_cases below : size < target
  · have reached := target_le_of_doubleTo stopped
    have below := UInt32.lt_iff_toNat_lt.mp below
    omega
  · cases rounds with
    | zero => cases stopped
    | succ rounds =>
        rw [doubleTo, if_neg below] at stopped
        cases stopped
        exact Nat.le_refl _

/-- While no size overflows, 32 rounds after the first one are enough, and they are exact. -/
theorem doubleTo_eq {target size : UInt32} {rounds enough : Nat} (positive : 0 < size.toNat)
    (doubled : ∀ doublings, size.toNat * 2 ^ doublings < target.toNat →
      size.toNat * 2 ^ (doublings + 1) < 2 ^ 32)
    (deep : target.toNat ≤ size.toNat * 2 ^ rounds) (deep' : target.toNat ≤ enough + size.toNat) :
    ∃ newSize, doubleTo target (rounds + 1) size = some newSize ∧
      newSize.toNat = Buffer.doubleTo target.toNat enough size.toNat := by
  induction rounds generalizing size enough with
  | zero =>
      have stops : ¬size < target := by
        rw [UInt32.lt_iff_toNat_lt]
        omega
      refine ⟨size, by rw [doubleTo, if_neg stops], ?_⟩
      cases enough with
      | zero => rfl
      | succ enough => rw [Buffer.doubleTo, if_neg (by omega)]
  | succ rounds ih =>
      by_cases below : size < target
      · have below' := UInt32.lt_iff_toNat_lt.mp below
        obtain ⟨enough, rfl⟩ : ∃ less, enough = less + 1 := ⟨enough - 1, by omega⟩
        have next : (size * 2).toNat = size.toNat * 2 := by
          have small := doubled 0 (by omega)
          rw [UInt32.toNat_mul]
          exact Nat.mod_eq_of_lt (by simpa using small)
        have further : ∀ doublings, size.toNat * 2 * 2 ^ doublings = size.toNat * 2 ^ (doublings + 1) :=
          fun doublings => by rw [Nat.pow_succ, Nat.mul_assoc, Nat.mul_comm 2]
        rw [doubleTo, if_pos below, Buffer.doubleTo, if_pos below', ← next]
        apply ih
        · omega
        · intro doublings short
          rw [next, further] at short ⊢
          exact doubled (doublings + 1) short
        · rw [next, further]
          exact deep
        · omega
      · refine ⟨size, by rw [doubleTo, if_neg below], ?_⟩
        rw [UInt32.lt_iff_toNat_lt] at below
        cases enough with
        | zero => rfl
        | succ enough => rw [Buffer.doubleTo, if_neg below]

/-- An empty buffer is doubled for ever. -/
theorem doubleTo_zero {target : UInt32} (positive : 0 < target) (rounds : Nat) :
    doubleTo target rounds 0 = none := by
  induction rounds with
  | zero => rfl
  | succ rounds ih =>
      rw [doubleTo, if_pos positive]
      exact ih

end Doubling

section Runs

variable {buffer after : Buffer32}

theorem Valid.ensureRoom (valid : buffer.Valid) {size : UInt32}
    (made : buffer.ensureRoom size = some after) : after.Valid := by
  rw [Buffer32.ensureRoom] at made
  dsimp only at made
  split at made
  case isTrue =>
    split at made
    case isTrue =>
      obtain ⟨newSize, doubled, rfl⟩ := Option.map_eq_some_iff.mp made
      exact (valid.realloc (le_of_doubleTo doubled)).rewind
    case isFalse =>
      split at made
      case isTrue =>
        cases made
        exact valid.memmove.rewind
      case isFalse =>
        cases made
        exact valid.rewind
  case isFalse =>
    cases made
    exact valid

theorem Valid.step (operation : Operation) (valid : buffer.Valid)
    (done : buffer.step operation = some after) : after.Valid := by
  cases operation with
  | read socket =>
      cases done
      exact valid.read socket
  | advanceRead size => exact valid.advanceRead done
  | ensureRoom size => exact valid.ensureRoom done
  | reset =>
      cases done
      exact new_valid buffer.capacity

theorem Reachable.valid (reachable : buffer.Reachable) : buffer.Valid := by
  obtain ⟨capacity, operations, reached⟩ := reachable
  exact Lib.run_keeps (fun _ operation _ valid done => valid.step operation done)
    (new_valid capacity) reached

end Runs

section Refinement

variable {buffer : Buffer32} {size : UInt32}

theorem toInt32_pos_iff (word : UInt32) :
    0 < word.toInt32 ↔ 0 < word.toNat ∧ word.toNat < 2 ^ 31 := by
  have small := word.toNat_lt
  rw [Int32.lt_iff_toInt_lt]
  have signed : word.toInt32.toInt = if 2 * word.toNat < 2 ^ 32 then (word.toNat : Int)
      else (word.toNat : Int) - 2 ^ 32 := BitVec.toInt_eq_toNat_cond word.toBitVec
  rw [signed, Int32.toInt_zero]
  split <;> omega

/-- What the difference to the capacity says when it does not leave 32 bits. -/
theorem grows_iff (valid : buffer.Valid) (fine : buffer.NoOverflow size)
    (short : buffer.capacity.toNat < buffer.inPos.toNat + size.toNat) :
    0 < (buffer.size + size - buffer.capacity).toInt32 ↔
      buffer.capacity.toNat < buffer.size.toNat + size.toNat := by
  have reach := fine.reach
  have needed := fine.needed
  have spare := fine.spare short
  have small := buffer.capacity.toNat_lt
  have within : buffer.size.toNat + size.toNat < 2 ^ 32 := by
    rw [valid.toNat_size]
    omega
  rw [toInt32_pos_iff, UInt32.toNat_sub, UInt32.toNat_add]
  omega

theorem target_eq : buffer.capacity + (buffer.size + size - buffer.capacity).toInt32.toUInt32 =
    buffer.size + size := by
  rw [UInt32.toUInt32_toInt32, UInt32.add_comm, UInt32.sub_add_cancel]

theorem Valid.toNat_target (valid : buffer.Valid) (fine : buffer.NoOverflow size) :
    (buffer.size + size).toNat = buffer.size.toNat + size.toNat := by
  have reach := fine.reach
  rw [UInt32.toNat_add]
  apply Nat.mod_eq_of_lt
  rw [valid.toNat_size]
  omega

theorem Valid.toBuffer_size (valid : buffer.Valid) : buffer.toBuffer.size = buffer.size.toNat :=
  valid.toNat_size.symm

theorem Valid.toBuffer_unread (valid : buffer.Valid) :
    buffer.toBuffer.getReadBuffer buffer.toBuffer.size = buffer.unread := by
  rw [valid.toBuffer_size]
  rfl

theorem Valid.toBuffer_rewind (valid : buffer.Valid) :
    buffer.rewind.toBuffer = buffer.toBuffer.rewind := by
  have size := valid.toNat_size
  rw [Buffer32.size] at size
  simp only [toBuffer, Buffer32.rewind, Buffer.rewind, size]
  rfl

theorem Valid.toBuffer_memmove (valid : buffer.Valid) :
    buffer.memmove.toBuffer = buffer.toBuffer.memmove := by
  rw [Buffer.memmove, valid.toBuffer_unread, valid.toBuffer_size]
  rfl

theorem exists_grown (valid : buffer.Valid) (fine : buffer.NoOverflow size)
    (positive : 0 < buffer.capacity.toNat) :
    ∃ newSize, doubleTo (buffer.size + size) 33 buffer.capacity = some newSize ∧
      (buffer.realloc newSize).rewind.toBuffer = (buffer.toBuffer.realloc (Buffer.doubleTo
        (buffer.size + size).toNat (buffer.size + size).toNat buffer.capacity.toNat)).rewind := by
  have target := valid.toNat_target fine
  have small := (buffer.size + size).toNat_lt
  have deep : (buffer.size + size).toNat ≤ buffer.capacity.toNat * 2 ^ 32 := by omega
  obtain ⟨newSize, doubled, same⟩ := @doubleTo_eq (buffer.size + size) buffer.capacity 32
    (buffer.size + size).toNat positive (by rw [target]; exact fine.doubled) deep
    (Nat.le_add_right _ _)
  have bigger : buffer.capacity.toNat ≤ newSize.toNat := le_of_doubleTo doubled
  refine ⟨newSize, doubled, ?_⟩
  rw [(valid.realloc bigger).toBuffer_rewind, ← same]
  rfl

theorem compacted_refines (valid : buffer.Valid) :
    ∃ after, (if 0 < buffer.size then some buffer.memmove.rewind else some buffer.rewind) =
        some after ∧
      after.toBuffer = if buffer.size.toNat > 0 then buffer.toBuffer.memmove.rewind
        else buffer.toBuffer.rewind := by
  by_cases unread : 0 < buffer.size
  · have unread' : buffer.size.toNat > 0 := UInt32.lt_iff_toNat_lt.mp unread
    refine ⟨buffer.memmove.rewind, if_pos unread, ?_⟩
    rw [if_pos unread', valid.memmove.toBuffer_rewind, valid.toBuffer_memmove]
  · have unread' : ¬buffer.size.toNat > 0 := fun some => unread (UInt32.lt_iff_toNat_lt.mpr some)
    exact ⟨buffer.rewind, if_neg unread, by rw [if_neg unread', valid.toBuffer_rewind]⟩

/-- Without an overflow the buffer does what the one in the naturals does. -/
theorem ensureRoom_refines (valid : buffer.Valid) (fine : buffer.NoOverflow size)
    (ends : buffer.size.toNat + size.toNat ≤ buffer.capacity.toNat ∨ 0 < buffer.capacity.toNat) :
    ∃ after, buffer.ensureRoom size = some after ∧
      after.toBuffer = buffer.toBuffer.ensureRoom size.toNat := by
  have reached : (buffer.inPos + size).toNat = buffer.inPos.toNat + size.toNat := by
    rw [UInt32.toNat_add]
    exact Nat.mod_eq_of_lt fine.reach
  have capacity : buffer.toBuffer.capacity = buffer.capacity.toNat := rfl
  rw [Buffer32.ensureRoom, Buffer.ensureRoom, valid.toBuffer_size]
  by_cases short : buffer.capacity < buffer.inPos + size
  · have short' : buffer.toBuffer.inPos + size.toNat > buffer.toBuffer.capacity := by
      rw [UInt32.lt_iff_toNat_lt, reached] at short
      exact short
    have grows := grows_iff valid fine short'
    rw [if_pos short, if_pos short']
    dsimp only
    by_cases larger : buffer.capacity.toNat < buffer.size.toNat + size.toNat
    · have needed : ((buffer.size.toNat + size.toNat : Nat) : Int) -
          (buffer.toBuffer.capacity : Int) > 0 := by
        rw [capacity]
        omega
      have target : buffer.toBuffer.capacity + (((buffer.size.toNat + size.toNat : Nat) : Int) -
          (buffer.toBuffer.capacity : Int)).toNat = (buffer.size + size).toNat := by
        rw [valid.toNat_target fine, capacity]
        omega
      obtain ⟨newSize, doubled, same⟩ := exists_grown valid fine (by omega)
      refine ⟨(buffer.realloc newSize).rewind, ?_, ?_⟩
      · rw [if_pos (grows.mpr larger), target_eq, doubled, Option.map_some]
      · rw [if_pos needed, target, capacity, same]
    · have needed : ¬((buffer.size.toNat + size.toNat : Nat) : Int) -
          (buffer.toBuffer.capacity : Int) > 0 := by
        rw [capacity]
        omega
      rw [if_neg (fun positive => larger (grows.mp positive)), if_neg needed]
      exact compacted_refines valid
  · have enough : ¬buffer.toBuffer.inPos + size.toNat > buffer.toBuffer.capacity := by
      rw [UInt32.lt_iff_toNat_lt, reached] at short
      exact short
    exact ⟨buffer, if_neg short, by rw [if_neg enough]⟩

end Refinement

section Unread

variable {buffer : Buffer32} {size : UInt32}

def tape (buffer : Buffer32) : Tape :=
  ⟨buffer.capacity.toNat, buffer.bytes.take buffer.outPos.toNat, buffer.unread⟩

theorem Valid.holds (valid : buffer.Valid) : Holds buffer.toBuffer buffer.tape := by
  have ordered := valid.ordered
  have fits := valid.fits
  have length := valid.length
  have size := valid.toNat_size
  have front : (buffer.bytes.take buffer.outPos.toNat).length = buffer.outPos.toNat := by
    rw [List.length_take]
    omega
  refine ⟨length, rfl, front.symm, ?_, fits, ?_⟩
  · change buffer.inPos.toNat = (buffer.bytes.take buffer.outPos.toNat).length + buffer.unread.length
    rw [front, valid.length_unread]
    omega
  · change buffer.bytes.take buffer.inPos.toNat =
      buffer.bytes.take buffer.outPos.toNat ++ buffer.unread
    have whole : buffer.inPos.toNat = buffer.outPos.toNat + buffer.size.toNat := by omega
    rw [whole, List.take_add, unread]

theorem unread_of_holds (valid : buffer.Valid) {other : Tape} (holds : Holds buffer.toBuffer other) :
    buffer.unread = other.ahead := by
  rw [← valid.toBuffer_unread, holds.size, holds.getReadBuffer (Nat.le_refl _), List.take_length]

theorem Valid.bytes_take (valid : buffer.Valid) :
    (buffer.bytes.take buffer.outPos.toNat ++ buffer.unread).take buffer.unread.length =
      buffer.bytes.take buffer.size.toNat := by
  have filled : buffer.bytes.take buffer.inPos.toNat =
      buffer.bytes.take buffer.outPos.toNat ++ buffer.unread := valid.holds.filled
  have ordered := valid.toNat_size
  rw [← filled, valid.length_unread, List.take_take]
  congr 1
  omega

theorem Tape.ahead_ensureRoom_iff (tape : Tape) (frame : Nat) :
    (tape.ensureRoom frame).ahead = tape.ahead ↔
      frame ≤ tape.capacity ∨ (tape.front ++ tape.ahead).take tape.ahead.length = tape.ahead := by
  rw [Tape.ensureRoom]
  split
  case isTrue short =>
    split
    case isTrue grows =>
      refine ⟨fun kept => .inr kept, fun kept => ?_⟩
      rcases kept with fits | kept
      · omega
      · exact kept
    case isFalse fits => exact ⟨fun _ => .inl (Nat.not_lt.mp fits), fun _ => rfl⟩
  case isFalse enough => exact ⟨fun _ => .inl (by omega), fun _ => rfl⟩

theorem Tape.le_room_ensureRoom (tape : Tape) {frame : Nat} (available : tape.ahead.length ≤ frame)
    (ends : frame ≤ tape.capacity ∨ 0 < tape.capacity) :
    frame - tape.ahead.length ≤ (tape.ensureRoom frame).room := by
  rw [Tape.ensureRoom]
  split
  case isTrue short =>
    split
    case isTrue grows =>
      have larger := target_le_doubleTo frame frame tape.capacity (by omega) (Nat.le_add_right _ _)
      simp only [Tape.room, List.length_take, List.length_append, List.length_nil]
      omega
    case isFalse fits =>
      simp only [Tape.room, List.length_nil]
      omega
  case isFalse enough =>
    rw [Tape.room]
    omega

theorem exists_ensureRoom (valid : buffer.Valid) (fine : buffer.NoOverflow size)
    (positive : 0 < size.toNat)
    (ends : buffer.size.toNat + size.toNat ≤ buffer.capacity.toNat ∨ 0 < buffer.capacity.toNat) :
    ∃ after, buffer.ensureRoom size = some after ∧ after.Valid ∧
      Holds after.toBuffer (buffer.tape.ensureRoom (buffer.size.toNat + size.toNat)) := by
  obtain ⟨after, made, same⟩ := ensureRoom_refines valid fine ends
  refine ⟨after, made, valid.ensureRoom made, ?_⟩
  have missing : buffer.tape.ahead.length < buffer.size.toNat + size.toNat := by
    change buffer.unread.length < _
    rw [valid.length_unread]
    omega
  have holds := valid.holds.ensureRoom missing
  rw [valid.toBuffer_size, Nat.add_sub_cancel_left] at holds
  rw [same]
  exact holds

theorem keepsUnread_iff_of_positive (valid : buffer.Valid) (fine : buffer.NoOverflow size)
    (positive : 0 < size.toNat)
    (ends : buffer.size.toNat + size.toNat ≤ buffer.capacity.toNat ∨ 0 < buffer.capacity.toNat) :
    buffer.KeepsUnread size ↔
      buffer.size.toNat + size.toNat ≤ buffer.capacity.toNat ∨
        buffer.bytes.take buffer.size.toNat = buffer.unread := by
  obtain ⟨after, made, afterValid, holds⟩ := exists_ensureRoom valid fine positive ends
  have ahead : buffer.tape.ahead.length = buffer.size.toNat := valid.length_unread
  have kept : after.unread = buffer.unread ↔
      buffer.size.toNat + size.toNat ≤ buffer.capacity.toNat ∨
        buffer.bytes.take buffer.size.toNat = buffer.unread := by
    rw [unread_of_holds afterValid holds, ← valid.bytes_take]
    exact Tape.ahead_ensureRoom_iff buffer.tape _
  have room : size ≤ after.usableCapacity := by
    have enough := Tape.le_room_ensureRoom buffer.tape
      (Nat.le_trans (Nat.le_of_eq ahead) (Nat.le_add_right _ size.toNat)) ends
    rw [← holds.usableCapacity, ahead, Nat.add_sub_cancel_left] at enough
    rw [UInt32.le_iff_toNat_le, afterValid.toNat_usableCapacity]
    exact enough
  rw [← kept]
  constructor
  · rintro ⟨other, made', same, -⟩
    rw [made] at made'
    cases made'
    exact same
  · intro same
    exact ⟨after, made, same, UInt32.le_iff_toNat_le.mpr afterValid.ordered,
      UInt32.le_iff_toNat_le.mpr afterValid.fits, room⟩

theorem keepsUnread_of_zero (valid : buffer.Valid) : buffer.KeepsUnread 0 := by
  have enough : ¬buffer.capacity < buffer.inPos + 0 := by
    rw [UInt32.add_zero, UInt32.lt_iff_toNat_lt]
    exact Nat.not_lt.mpr valid.fits
  refine ⟨buffer, if_neg enough, rfl, UInt32.le_iff_toNat_le.mpr valid.ordered,
    UInt32.le_iff_toNat_le.mpr valid.fits, ?_⟩
  exact UInt32.le_iff_toNat_le.mpr (Nat.zero_le _)

/-- Nothing can be added to a buffer without capacity. -/
theorem not_keepsUnread_of_empty (valid : buffer.Valid) (fine : buffer.NoOverflow size)
    (positive : 0 < size.toNat) (empty : buffer.capacity = 0) : ¬buffer.KeepsUnread size := by
  rintro ⟨after, made, -⟩
  have fits := valid.fits
  have room : buffer.capacity.toNat < buffer.inPos.toNat + size.toNat := by
    rw [empty, UInt32.toNat_zero]
    omega
  have larger := grows_iff valid fine room
  have target := @target_eq buffer size
  have reached := valid.toNat_target fine
  rw [empty, UInt32.toNat_zero] at fits
  have short : buffer.capacity < buffer.inPos + size := by
    have none : buffer.inPos = 0 := UInt32.toNat_inj.mp (Nat.le_zero.mp fits)
    rw [empty, none, UInt32.zero_add]
    exact UInt32.lt_iff_toNat_lt.mpr positive
  have grows : 0 < (buffer.size + size - buffer.capacity).toInt32 := by
    rw [larger, empty, UInt32.toNat_zero]
    omega
  have stuck := @doubleTo_zero (buffer.size + size)
    (UInt32.lt_iff_toNat_lt.mpr (by rw [UInt32.toNat_zero]; omega)) 33
  rw [ensureRoom, if_pos short] at made
  dsimp only at made
  rw [if_pos grows, target, empty, stuck] at made
  cases made

end Unread

/--
Room is made without harm to the unread bytes exactly if they and the room fit in the buffer, or
if the buffer is not empty and its first bytes are the unread ones.
-/
theorem ensureRoom_keeps_iff {buffer : Buffer32} {size : UInt32} (reachable : buffer.Reachable)
    (fine : buffer.NoOverflow size) :
    buffer.KeepsUnread size ↔
      buffer.size.toNat + size.toNat ≤ buffer.capacity.toNat ∨
        (0 < buffer.capacity ∧ buffer.bytes.take buffer.size.toNat = buffer.unread) := by
  have valid := reachable.valid
  by_cases positive : 0 < size.toNat
  · by_cases empty : buffer.capacity = 0
    · have never := not_keepsUnread_of_empty valid fine positive empty
      rw [empty, UInt32.toNat_zero]
      constructor
      · exact fun keeps => absurd keeps never
      · rintro (fits | ⟨some, -⟩)
        · omega
        · exact absurd some (UInt32.lt_irrefl 0)
    · have some : 0 < buffer.capacity := UInt32.pos_iff_ne_zero.mpr empty
      rw [keepsUnread_iff_of_positive valid fine positive (.inr (UInt32.lt_iff_toNat_lt.mp some))]
      exact or_congr_right (and_iff_right some).symm
  · have zero : size = 0 := UInt32.toNat_inj.mp (Nat.le_zero.mp (Nat.not_lt.mp positive))
    have size := valid.toNat_size
    have fits := valid.fits
    rw [zero]
    refine iff_of_true (keepsUnread_of_zero valid) (.inl ?_)
    rw [UInt32.toNat_zero]
    omega

def partlyRead : Buffer32 := ⟨[97, 98, 99, 0], 4, 3, 1⟩

theorem partlyRead_reachable : partlyRead.Reachable :=
  ⟨4, [.read ⟨[97, 98, 99], .ready 3⟩, .advanceRead 1], rfl⟩

theorem noOverflow_partlyRead {size : UInt32} (small : size.toNat ≤ 6) :
    partlyRead.NoOverflow size where
  reach := by
    change 3 + size.toNat < 2 ^ 32
    omega
  needed := by
    change 2 + size.toNat < 4 + 2 ^ 31
    omega
  spare _ := by
    change 4 ≤ 2 + size.toNat + 2 ^ 31
    omega
  doubled := by
    intro doublings short
    change 4 * 2 ^ doublings < 2 + size.toNat at short
    change 4 * 2 ^ (doublings + 1) < 2 ^ 32
    omega

theorem ensureRoom_keeps_iff_partlyRead :
    partlyRead.KeepsUnread 2 ↔
      partlyRead.size.toNat + 2 ≤ 4 ∨
        (0 < (4 : UInt32) ∧ partlyRead.bytes.take partlyRead.size.toNat = partlyRead.unread) :=
  ensureRoom_keeps_iff partlyRead_reachable (noOverflow_partlyRead (by decide))

/-- The buffer grows to eight bytes, and the unread bytes are said to be the first two. -/
theorem ensureRoom_loses_unread :
    ¬∀ buffer : Buffer32, buffer.Reachable → ∀ size, buffer.NoOverflow size →
      buffer.KeepsUnread size := by
  intro keeps
  obtain ⟨after, made, same, -⟩ :=
    keeps partlyRead partlyRead_reachable 3 (noOverflow_partlyRead (by decide))
  have grown : partlyRead.ensureRoom 3 = some ⟨[97, 98, 99, 0, 0, 0, 0, 0], 8, 2, 0⟩ := rfl
  rw [grown] at made
  cases made
  exact absurd same (by decide)

end Buffer32

end Xpedite.Transport
