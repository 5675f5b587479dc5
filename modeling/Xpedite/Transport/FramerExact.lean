import Mathlib.Data.List.TakeDrop
import Xpedite.Lib.Digits
import Xpedite.Transport.Tape

/-!
Which messages the framer returns byte for byte, whatever the chunks the socket
hands over.  Where a frame is put in the buffer depends on the lengths alone;
what a growing buffer keeps at its start decides whether a message survives.
-/

namespace Xpedite.Transport

def base (capacity : Nat) (front : List UInt8) (length : Nat) : List UInt8 :=
  if front.length + length > capacity then [] else front

def place (capacity : Nat) (front frame : List UInt8) : List UInt8 :=
  base capacity front frame.length ++ frame

def grown (capacity length : Nat) : Nat :=
  if length > capacity then Buffer.doubleTo length length capacity else capacity

/--
A message longer than the buffer is not harmed if the bytes from the start of
the buffer are those of the message, as far as the buffer holds the message.
-/
def Retained (capacity : Nat) (front message : List UInt8) : Prop :=
  message.length > capacity →
    (front ++ message).take (capacity - front.length) = message.take (capacity - front.length)

def Aligned : Nat → List UInt8 → List (List UInt8) → Prop
  | _, _, [] => True
  | capacity, front, message :: rest =>
      let start := place capacity front (header message)
      Retained capacity start message ∧
        Aligned (grown capacity message.length) (place capacity start message) rest

theorem digit_nibble (digit : Nat) (small : digit < 10) :
    (UInt8.ofNat digit.digitChar.toNat &&& 0xf).toNat = digit := by
  have table : ∀ digit < 10, (UInt8.ofNat (Nat.digitChar digit).toNat &&& 0xf).toNat = digit := by
    decide
  exact table digit small

def digitByte (digit : Char) : UInt8 := UInt8.ofNat digit.toNat

def value (bytes : List UInt8) : Nat := bytes.foldl (fun total byte => total * 10 + (byte &&& 0xf).toNat) 0

theorem value_toDigits (number : Nat) : value ((Nat.toDigits 10 number).map digitByte) = number :=
  Lib.foldl_toDigits _ digitByte (by decide) digit_nibble number

theorem value_zeros (count : Nat) (bytes : List UInt8) :
    value (List.replicate count (digitByte '0') ++ bytes) = value bytes :=
  Lib.foldl_zeros _ (by decide) count bytes

theorem header_length {message : List UInt8} (short : message.length < 10 ^ 8) :
    (header message).length = headerLen := by
  have digits : (Nat.toDigits 10 message.length).length ≤ 8 :=
    (Nat.length_toDigits_le_iff (by decide) (by decide)).mpr short
  simp only [header, List.length_map, List.length_leftpad, headerLen]
  omega

theorem frameLen_eq_value {bytes : List UInt8} (length : bytes.length = headerLen) :
    Framer.frameLen bytes = value bytes := by
  match bytes, length with
  | [a, b, c, d, e, f, g, h], _ =>
      simp only [Framer.frameLen, Framer.nibble, value, List.foldl_cons, List.foldl_nil,
        List.getD_cons_zero, List.getD_cons_succ]
      omega

theorem frameLen_header {message : List UInt8} (short : message.length < 10 ^ 8) :
    Framer.frameLen (header message) = message.length := by
  rw [frameLen_eq_value (header_length short), header, List.leftpad, List.map_append,
    List.map_replicate]
  exact (value_zeros _ _).trans (value_toDigits _)

theorem Tape.ensureRoom_eq (tape : Tape) (length : Nat) :
    tape.ensureRoom length =
      ⟨grown tape.capacity length, base tape.capacity tape.front length,
        if length > tape.capacity then (tape.front ++ tape.ahead).take tape.ahead.length
        else tape.ahead⟩ := by
  unfold Tape.ensureRoom grown base
  by_cases grows : length > tape.capacity
  · have overflows : tape.front.length + length > tape.capacity := by omega
    simp only [grows, overflows, if_true]
  · simp only [grows, if_false]
    split <;> rfl

theorem le_grown (capacity length : Nat) : capacity ≤ grown capacity length := by
  unfold grown
  split
  · exact le_doubleTo _ _ _
  · exact Nat.le_refl _

theorem length_le_grown {capacity : Nat} (positive : 0 < capacity) (length : Nat) :
    length ≤ grown capacity length := by
  unfold grown
  split
  · exact target_le_doubleTo _ _ _ positive (by omega)
  · omega

theorem grown_eq_self {capacity length : Nat} (fits : length ≤ capacity) :
    grown capacity length = capacity := by
  rw [grown, if_neg (by omega)]

theorem base_eq_self {capacity length : Nat} {front : List UInt8}
    (fits : front.length + length ≤ capacity) : base capacity front length = front := by
  rw [base, if_neg (by omega)]

theorem base_fits {capacity : Nat} (positive : 0 < capacity) (front : List UInt8) (length : Nat) :
    (base capacity front length).length + length ≤ grown capacity length := by
  have enough := length_le_grown positive length
  have larger := le_grown capacity length
  unfold base
  split
  · simpa using enough
  · omega

theorem base_grown {capacity : Nat} (positive : 0 < capacity) (front : List UInt8) (length : Nat) :
    base (grown capacity length) (base capacity front length) length = base capacity front length :=
  base_eq_self (base_fits positive front length)

theorem place_base {capacity : Nat} (positive : 0 < capacity) (front frame : List UInt8) :
    place (grown capacity frame.length) (base capacity front frame.length) frame =
      place capacity front frame := by
  rw [place, place, base_grown positive]

theorem place_eq_append {capacity : Nat} {front frame : List UInt8}
    (fits : front.length + frame.length ≤ capacity) : place capacity front frame = front ++ frame := by
  rw [place, base_eq_self fits]

structure Roomy (tape : Tape) : Prop where
  large : headerLen ≤ tape.capacity
  fits : tape.front.length + tape.ahead.length ≤ tape.capacity

structure AtHeader (session : Session) (rest : List (List UInt8)) : Prop
    extends Roomy session.tape where
  inBody : session.inBody = false
  frameLength : session.frameLength = headerLen
  stream : session.tape.ahead ++ session.unread = rest.flatMap encode

structure AtBody (session : Session) (message : List UInt8) (rest : List (List UInt8)) : Prop
    extends Roomy session.tape where
  inBody : session.inBody = true
  frameLength : session.frameLength = message.length
  stream : session.tape.ahead ++ session.unread = message ++ rest.flatMap encode

theorem Roomy.positive {tape : Tape} (roomy : Roomy tape) : 0 < tape.capacity := by
  have large := roomy.large
  rw [headerLen] at large
  omega

theorem Roomy.ensureRoom {tape : Tape} (roomy : Roomy tape) {length : Nat}
    (missing : tape.ahead.length < length) : Roomy (tape.ensureRoom length) where
  large := by
    rw [Tape.ensureRoom_eq]
    exact Nat.le_trans roomy.large (le_grown _ _)
  fits := by
    have placed := base_fits roomy.positive tape.front length
    rw [Tape.ensureRoom_eq]
    split
    · simp only [List.length_take, List.length_append]
      omega
    · simp only
      omega

theorem Roomy.store {tape : Tape} (roomy : Roomy tape) {data : List UInt8}
    (room : data.length ≤ tape.room) : Roomy (tape.store data) where
  large := roomy.large
  fits := by
    have fits := roomy.fits
    rw [Tape.room] at room
    simp only [Tape.store, List.length_append]
    omega

theorem Roomy.advance {tape : Tape} (roomy : Roomy tape) {length : Nat}
    (available : length ≤ tape.ahead.length) : Roomy (tape.advance length) where
  large := roomy.large
  fits := by
    have fits := roomy.fits
    simp only [Tape.advance, List.length_append, List.length_take, List.length_drop]
    omega

def Session.arrived (session : Session) (count : Nat) : List UInt8 :=
  session.unread.take (min count (session.tape.ensureRoom session.frameLength).room)

theorem Session.read_of_missing {session : Session} (count : Nat)
    (missing : ¬session.Complete) :
    session.read count = { session with
      tape := (session.tape.ensureRoom session.frameLength).store (session.arrived count)
      unread := session.unread.drop (session.arrived count).length } := by
  rw [Session.read, if_pos (Nat.not_le.mp missing)]
  rfl

theorem Session.read_of_complete {session : Session} (count : Nat) (whole : session.Complete) :
    session.read count = session := by
  rw [Session.read, if_neg (Nat.not_lt.mpr whole)]

theorem Session.arrived_append (session : Session) (count : Nat) :
    session.arrived count ++ session.unread.drop (session.arrived count).length =
      session.unread := by
  rw [Session.arrived]
  generalize min count (session.tape.ensureRoom session.frameLength).room = limit
  rw [List.length_take]
  by_cases all : session.unread.length ≤ limit
  · rw [Nat.min_eq_right all, List.drop_length, List.take_of_length_le all, List.append_nil]
  · rw [Nat.min_eq_left (by omega), List.take_append_drop]

theorem Session.arrived_room (session : Session) (count : Nat) :
    (session.arrived count).length ≤ (session.tape.ensureRoom session.frameLength).room := by
  rw [Session.arrived, List.length_take]
  omega

theorem Session.read_roomy {session : Session} (roomy : Roomy session.tape) (count : Nat) :
    Roomy (session.read count).tape := by
  by_cases whole : session.Complete
  · rwa [Session.read_of_complete count whole]
  · rw [Session.read_of_missing count whole]
    exact (roomy.ensureRoom (Nat.not_le.mp whole)).store (session.arrived_room count)

theorem AtHeader.read {session : Session} {rest : List (List UInt8)}
    (header : AtHeader session rest) (count : Nat) : AtHeader (session.read count) rest := by
  have roomy := Session.read_roomy header.toRoomy count
  by_cases whole : session.Complete
  · rwa [Session.read_of_complete count whole]
  · rw [Session.read_of_missing count whole] at roomy ⊢
    refine ⟨roomy, header.inBody, header.frameLength, ?_⟩
    have small : ¬session.frameLength > session.tape.capacity := by
      rw [header.frameLength]
      exact Nat.not_lt.mpr header.large
    simp only [Tape.store, Tape.ensureRoom_eq, if_neg small]
    rw [List.append_assoc, session.arrived_append, header.stream]

theorem AtHeader.read_aligned {session : Session} {rest : List (List UInt8)}
    (header : AtHeader session rest) (short : ∀ message ∈ rest, message.length < 10 ^ 8)
    (count : Nat) :
    Aligned (session.read count).tape.capacity (session.read count).tape.front rest ↔
      Aligned session.tape.capacity session.tape.front rest := by
  by_cases whole : session.Complete
  · rw [Session.read_of_complete count whole]
  · rw [Session.read_of_missing count whole]
    simp only [Tape.store, Tape.ensureRoom_eq, header.frameLength]
    cases rest with
    | nil => exact Iff.rfl
    | cons message later =>
        have length := header_length (short message List.mem_cons_self)
        have kept : grown session.tape.capacity headerLen = session.tape.capacity :=
          grown_eq_self header.large
        have placed := place_base header.positive session.tape.front (Transport.header message)
        rw [length, kept] at placed
        simp only [Aligned, kept, placed]

def garbled (front message : List UInt8) (count : Nat) : List UInt8 :=
  (front ++ message).take count ++ message.drop count

theorem garbled_of_retained {capacity count : Nat} {front message : List UInt8}
    (retained : Retained capacity front message) (long : message.length > capacity)
    (held : count ≤ capacity - front.length) : garbled front message count = message := by
  have same := congrArg (List.take count) (retained long)
  rw [List.take_take, List.take_take, Nat.min_eq_left held] at same
  rw [garbled, same, List.take_append_drop]

theorem retained_of_garbled {capacity : Nat} {front message : List UInt8}
    (same : garbled front message (capacity - front.length) = message) :
    Retained capacity front message := by
  intro long
  have taken := congrArg (List.take (capacity - front.length)) same
  rw [garbled, List.take_append_of_le_length (by
    rw [List.length_take, List.length_append]
    omega), List.take_take, Nat.min_self] at taken
  exact taken

def received (tape : Tape) (message : List UInt8) : List UInt8 :=
  if message.length > tape.capacity then garbled tape.front message tape.ahead.length else message

theorem AtBody.ahead_eq_take {session : Session} {message : List UInt8} {rest : List (List UInt8)}
    (body : AtBody session message rest) (missing : ¬session.Complete) :
    session.tape.ahead = message.take session.tape.ahead.length := by
  have short : session.tape.ahead.length ≤ message.length := by
    rw [Session.Complete, body.frameLength] at missing
    omega
  have taken := congrArg (List.take session.tape.ahead.length) body.stream
  rwa [List.take_left, List.take_append_of_le_length short] at taken

theorem AtBody.read {session : Session} {message : List UInt8} {rest : List (List UInt8)}
    (body : AtBody session message rest) (missing : ¬session.Complete) (count : Nat) :
    AtBody (session.read count) (received session.tape message) rest := by
  have roomy := Session.read_roomy body.toRoomy count
  have start := body.ahead_eq_take missing
  have short : session.tape.ahead.length < message.length := by
    rw [Session.Complete, body.frameLength] at missing
    omega
  have unread : session.unread = message.drop session.tape.ahead.length ++ rest.flatMap encode := by
    have dropped := congrArg (List.drop session.tape.ahead.length) body.stream
    rwa [List.drop_left, List.drop_append_of_le_length (by omega)] at dropped
  rw [Session.read_of_missing count missing] at roomy ⊢
  refine ⟨roomy, body.inBody, ?_, ?_⟩
  · rw [received]
    split
    · rw [body.frameLength, garbled, List.length_append, List.length_take, List.length_append,
        List.length_drop]
      omega
    · exact body.frameLength
  · simp only [Tape.store, Tape.ensureRoom_eq, body.frameLength]
    rw [List.append_assoc, session.arrived_append, received]
    split
    · have kept : (session.tape.front ++ session.tape.ahead).take session.tape.ahead.length =
          (session.tape.front ++ message).take session.tape.ahead.length := by
        conv_lhs => rw [start, ← List.take_length_add_append, List.take_take]
        congr 1
        rw [List.length_take]
        omega
      rw [kept, garbled, unread, List.append_assoc]
    · exact body.stream

theorem AtHeader.parse {session : Session} {message : List UInt8} {rest : List (List UInt8)}
    (header : AtHeader session (message :: rest)) (short : message.length < 10 ^ 8)
    (whole : session.Complete) :
    AtBody session.parseFrameLen message rest ∧
      session.parseFrameLen.tape.front =
        place session.tape.capacity session.tape.front (Transport.header message) := by
  have length := header_length short
  have available : headerLen ≤ session.tape.ahead.length := by
    rw [← header.frameLength]
    exact whole
  have stream := header.stream
  rw [List.flatMap_cons, encode, List.append_assoc] at stream
  have taken : session.tape.ahead.take headerLen = Transport.header message := by
    have first := congrArg (List.take headerLen) stream
    rw [List.take_append_of_le_length available] at first
    rw [first, ← length, List.take_left]
  have dropped : session.tape.ahead.drop headerLen ++ session.unread =
      message ++ rest.flatMap encode := by
    have later := congrArg (List.drop headerLen) stream
    rw [List.drop_append_of_le_length available] at later
    rw [later, ← length, List.drop_left]
  constructor
  · refine ⟨header.toRoomy.advance available, rfl, ?_, dropped⟩
    simp only [Session.parseFrameLen, taken, frameLen_header short]
  · have fits := header.fits
    rw [place_eq_append (by omega)]
    simp only [Session.parseFrameLen, Tape.advance, taken]

theorem AtBody.take {session : Session} {message : List UInt8} {rest : List (List UInt8)}
    (body : AtBody session message rest) (whole : session.Complete) :
    AtHeader session.takeBody rest ∧ session.takeBody.frames = session.frames ++ [message] ∧
      session.takeBody.tape.capacity = grown session.tape.capacity message.length ∧
      session.takeBody.tape.front = place session.tape.capacity session.tape.front message := by
  have fits := body.fits
  have available : message.length ≤ session.tape.ahead.length := by
    rw [← body.frameLength]
    exact whole
  have taken : session.tape.ahead.take message.length = message := by
    have first := congrArg (List.take message.length) body.stream
    rwa [List.take_append_of_le_length available, List.take_left] at first
  have dropped : session.tape.ahead.drop message.length ++ session.unread = rest.flatMap encode := by
    have later := congrArg (List.drop message.length) body.stream
    rwa [List.drop_append_of_le_length available, List.drop_left] at later
  have roomy := body.toRoomy.advance available
  simp only [Session.takeBody, body.frameLength]
  refine ⟨⟨roomy, rfl, rfl, dropped⟩, by rw [taken], ?_, ?_⟩
  · rw [grown_eq_self (by omega)]
    rfl
  · rw [place_eq_append (by omega), Tape.advance, taken]

/-- The framer will return exactly these messages. -/
inductive Ready (session : Session) : List (List UInt8) → Prop
  | header {rest : List (List UInt8)} (header : AtHeader session rest)
      (aligned : Aligned session.tape.capacity session.tape.front rest) : Ready session rest
  | body {message : List UInt8} {rest : List (List UInt8)} (body : AtBody session message rest)
      (retained : Retained session.tape.capacity session.tape.front message)
      (aligned : Aligned (grown session.tape.capacity message.length)
        (place session.tape.capacity session.tape.front message) rest) :
      Ready session (message :: rest)

def Short (messages : List (List UInt8)) : Prop := ∀ message ∈ messages, message.length < 10 ^ 8

theorem AtBody.received_eq {session : Session} {message : List UInt8} {rest : List (List UInt8)}
    (body : AtBody session message rest)
    (retained : Retained session.tape.capacity session.tape.front message) :
    received session.tape message = message := by
  have fits := body.fits
  rw [received]
  split
  · rename_i long
    exact garbled_of_retained retained long (by omega)
  · rfl

theorem Ready.read {session : Session} {rest : List (List UInt8)} (ready : Ready session rest)
    (short : Short rest) (count : Nat) : Ready (session.read count) rest := by
  cases ready with
  | header header aligned =>
      exact .header (header.read count) ((header.read_aligned short count).mpr aligned)
  | @body message rest body retained aligned =>
      by_cases whole : session.Complete
      · rw [Session.read_of_complete count whole]
        exact .body body retained aligned
      · have next := body.read whole count
        rw [body.received_eq retained] at next
        have enough := length_le_grown body.positive message.length
        have placed := place_base body.positive session.tape.front message
        rw [Session.read_of_missing count whole] at next ⊢
        simp only [Tape.ensureRoom_eq, body.frameLength] at next ⊢
        refine .body next ?_ ?_
        · intro long
          simp only [Tape.store] at long
          omega
        · simp only [Tape.store, grown_eq_self enough, placed]
          exact aligned

def remaining (session : Session) (rest : List (List UInt8)) : Nat :=
  session.unread.length + 2 * rest.length + if session.inBody then 0 else 1

theorem AtHeader.cons_of_complete {session : Session} {rest : List (List UInt8)}
    (header : AtHeader session rest) (whole : session.Complete) : rest ≠ [] := by
  rintro rfl
  have stream := header.stream
  rw [List.flatMap_nil, List.append_eq_nil_iff] at stream
  rw [Session.Complete, header.frameLength, stream.1] at whole
  exact absurd whole (by decide)

theorem Ready.takeBody {session : Session} {message : List UInt8} {rest : List (List UInt8)}
    (body : AtBody session message rest)
    (aligned : Aligned (grown session.tape.capacity message.length)
      (place session.tape.capacity session.tape.front message) rest) (whole : session.Complete) :
    Ready session.takeBody rest ∧ session.takeBody.frames = session.frames ++ [message] ∧
      remaining session.takeBody rest < remaining session (message :: rest) := by
  obtain ⟨header, frames, capacity, front⟩ := body.take whole
  refine ⟨.header header (by rwa [capacity, front]), frames, ?_⟩
  simp only [remaining, header.inBody, body.inBody, List.length_cons]
  simp only [Session.takeBody, Bool.false_eq_true, if_false, if_true]
  omega

theorem Ready.consume {session : Session} {rest : List (List UInt8)} (ready : Ready session rest)
    (short : Short rest) (whole : session.Complete) :
    ∃ later, Ready session.consume later ∧
      session.consume.frames ++ later = session.frames ++ rest ∧
      remaining session.consume later < remaining session rest := by
  rw [Session.consume, if_pos whole]
  cases ready with
  | @body message rest body retained aligned =>
      obtain ⟨next, frames, less⟩ := Ready.takeBody body aligned whole
      rw [if_pos body.inBody]
      exact ⟨rest, next, by rw [frames, List.append_assoc]; rfl, less⟩
  | header header aligned =>
      obtain ⟨message, rest, rfl⟩ :=
        List.exists_cons_of_ne_nil (header.cons_of_complete whole)
      obtain ⟨body, front⟩ := header.parse (short message List.mem_cons_self) whole
      rw [if_neg (by rw [header.inBody]; exact Bool.false_ne_true), Session.fallThrough]
      have parsedLess : remaining session.parseFrameLen (message :: rest) <
          remaining session (message :: rest) := by
        simp only [remaining, header.inBody, Session.parseFrameLen,
          Bool.false_eq_true, if_false, if_true]
        omega
      have capacity : session.parseFrameLen.tape.capacity = session.tape.capacity := rfl
      obtain ⟨retained, later⟩ := aligned
      rw [← front] at retained later
      rw [← capacity] at retained later
      have parsedFrames : session.parseFrameLen.frames = session.frames := rfl
      generalize session.parseFrameLen = parsed at body front parsedLess retained later parsedFrames ⊢
      by_cases fits : parsed.Complete
      · obtain ⟨next, frames, less⟩ := Ready.takeBody body later fits
        rw [if_pos fits]
        exact ⟨rest, next, by rw [frames, parsedFrames, List.append_assoc]; rfl,
          Nat.lt_trans less parsedLess⟩
      · rw [if_neg fits]
        exact ⟨message :: rest, .body body retained later, by rw [parsedFrames], parsedLess⟩

theorem Session.read_unread (session : Session) (count : Nat) :
    (session.read count).unread.length ≤ session.unread.length := by
  by_cases whole : session.Complete
  · have unread := congrArg Session.unread (Session.read_of_complete count whole)
    exact Nat.le_of_eq (congrArg List.length unread)
  · rw [Session.read_of_missing count whole, List.length_drop]
    omega

theorem remaining_read (session : Session) (rest : List (List UInt8)) (count : Nat) :
    remaining (session.read count) rest ≤ remaining session rest := by
  have fewer := session.read_unread count
  simp only [remaining, (session.read_inBody count).1]
  omega

theorem Ready.read_progress {session : Session} {rest : List (List UInt8)}
    (ready : Ready session rest) (short : Short rest) {count : Nat} (some_ : count ≠ 0)
    (due : rest ≠ []) (missing : ¬session.Complete) :
    remaining (session.read count) rest < remaining session rest := by
  have roomy : Roomy session.tape := by
    cases ready with
    | header header => exact header.toRoomy
    | body body => exact body.toRoomy
  have unread : session.unread ≠ [] := by
    intro none_
    cases ready with
    | header header aligned =>
        obtain ⟨message, later, rfl⟩ := List.exists_cons_of_ne_nil due
        have length := header_length (short message List.mem_cons_self)
        have stream := congrArg List.length header.stream
        rw [none_, List.append_nil, List.flatMap_cons, encode] at stream
        simp only [List.length_append] at stream
        rw [Session.Complete, header.frameLength] at missing
        omega
    | body body retained aligned =>
        have stream := congrArg List.length body.stream
        rw [none_, List.append_nil, List.length_append] at stream
        rw [Session.Complete, body.frameLength] at missing
        omega
  have room : 0 < (session.tape.ensureRoom session.frameLength).room := by
    have placed := base_fits roomy.positive session.tape.front session.frameLength
    rw [Session.Complete] at missing
    rw [Tape.room, Tape.ensureRoom_eq]
    split
    · simp only [List.length_take, List.length_append]
      omega
    · simp only
      omega
  have arrived : 0 < (session.arrived count).length := by
    have positive := List.length_pos_of_ne_nil unread
    rw [Session.arrived, List.length_take]
    omega
  have bytes := List.length_pos_of_ne_nil unread
  simp only [remaining, (session.read_inBody count).1]
  rw [Session.read_of_missing count missing, List.length_drop]
  omega

theorem Session.consume_of_missing {session : Session} (missing : ¬session.Complete) :
    session.consume = session := by
  rw [Session.consume, if_neg missing]

theorem Ready.poll {session : Session} {rest : List (List UInt8)} (ready : Ready session rest)
    (short : Short rest) (count : Nat) :
    ∃ later, Ready (session.poll count) later ∧
      (session.poll count).frames ++ later = session.frames ++ rest ∧
      remaining (session.poll count) later ≤ remaining session rest ∧
      (count ≠ 0 → rest ≠ [] → remaining (session.poll count) later < remaining session rest) := by
  have readReady := ready.read short count
  have readLess := remaining_read session rest count
  have sameFrames := (session.read_inBody count).2.2
  rw [Session.poll]
  by_cases whole : (session.read count).Complete
  · obtain ⟨later, next, frames, less⟩ := readReady.consume short whole
    rw [sameFrames] at frames
    exact ⟨later, next, frames, by omega, fun _ _ => by omega⟩
  · rw [Session.consume_of_missing whole]
    refine ⟨rest, readReady, by rw [sameFrames], readLess, ?_⟩
    intro some_ due
    apply ready.read_progress short some_ due
    intro complete
    rw [Session.read_of_complete count complete] at whole
    exact whole complete

def Session.after (messages : List (List UInt8)) (schedule : Nat → Nat) : Nat → Session
  | 0 => Session.start messages
  | calls + 1 => (Session.after messages schedule calls).poll (schedule calls)

def Session.LengthAtHeader (session : Session) : Prop :=
  session.inBody = false → session.frameLength = headerLen

theorem Session.poll_lengthAtHeader {session : Session} (atHeader : session.LengthAtHeader)
    (count : Nat) : (session.poll count).LengthAtHeader := by
  obtain ⟨sameBody, sameLength, _⟩ := session.read_inBody count
  have readAtHeader : (session.read count).LengthAtHeader := by
    intro header
    rw [sameLength]
    exact atHeader (sameBody ▸ header)
  rw [Session.poll, Session.consume]
  split
  · split
    · exact fun _ => rfl
    · rw [Session.fallThrough]
      split
      · exact fun _ => rfl
      · intro header
        simp only [Session.parseFrameLen, reduceCtorEq] at header
  · exact readAtHeader

theorem after_agrees (messages : List (List UInt8)) (schedule : Nat → Nat) (calls : Nat) :
    Agrees (Connection.after messages schedule calls) (Session.after messages schedule calls) ∧
      (Session.after messages schedule calls).LengthAtHeader := by
  induction calls with
  | zero => exact ⟨⟨⟨Holds.new _, rfl, rfl⟩, rfl, rfl⟩, fun _ => rfl⟩
  | succ calls ih =>
      exact ⟨ih.1.poll (schedule calls) ih.2, Session.poll_lengthAtHeader ih.2 _⟩

def WellSized (message : List UInt8) : Prop := 0 < message.length ∧ message.length < 10 ^ 8

/--
Whatever each call can read, the frames returned are the first of the messages,
and all of them once enough calls could read something.
-/
def FramedExactly (messages : List (List UInt8)) : Prop :=
  ∀ schedule : Nat → Nat,
    (∀ calls, (Connection.after messages schedule calls).frames <+: messages) ∧
    ((∀ calls, ∃ later ≥ calls, schedule later ≠ 0) →
      ∃ calls, (Connection.after messages schedule calls).frames = messages)

theorem start_ready {messages : List (List UInt8)} (aligned : Aligned bufferCapacity [] messages) :
    Ready (Session.start messages) messages :=
  .header ⟨⟨show headerLen ≤ bufferCapacity by decide, Nat.zero_le _⟩, rfl, rfl, rfl⟩ aligned

theorem after_ready {messages : List (List UInt8)} (short : Short messages)
    (aligned : Aligned bufferCapacity [] messages) (schedule : Nat → Nat) (calls : Nat) :
    ∃ rest, Ready (Session.after messages schedule calls) rest ∧
      (Session.after messages schedule calls).frames ++ rest = messages := by
  induction calls with
  | zero => exact ⟨messages, start_ready aligned, rfl⟩
  | succ calls ih =>
      obtain ⟨rest, ready, split⟩ := ih
      have restShort : Short rest := by
        intro message member
        exact short message (split ▸ List.mem_append_right _ member)
      obtain ⟨later, next, frames, _⟩ := ready.poll restShort (schedule calls)
      exact ⟨later, next, frames.trans split⟩

theorem after_complete {messages : List (List UInt8)} (short : Short messages)
    {schedule : Nat → Nat} (fair : ∀ calls, ∃ later ≥ calls, schedule later ≠ 0) (bound : Nat) :
    ∀ calls rest, Ready (Session.after messages schedule calls) rest →
      (Session.after messages schedule calls).frames ++ rest = messages →
      remaining (Session.after messages schedule calls) rest ≤ bound →
      ∃ later, (Session.after messages schedule later).frames = messages := by
  induction bound with
  | zero =>
      intro calls rest ready split small
      cases rest with
      | nil => exact ⟨calls, by simpa using split⟩
      | cons message rest =>
          simp only [remaining, List.length_cons] at small
          omega
  | succ bound ih =>
      intro calls rest ready split small
      -- the calls before the next one that can read something change nothing for the worse
      obtain ⟨next, later, reads⟩ := fair calls
      obtain ⟨gap, rfl⟩ := Nat.exists_eq_add_of_le later
      induction gap generalizing calls rest with
      | zero =>
          have restShort : Short rest := by
            intro message member
            exact short message (split ▸ List.mem_append_right _ member)
          by_cases due : rest = []
          · exact ⟨calls, by simpa [due] using split⟩
          · obtain ⟨later, next, frames, _, less⟩ := ready.poll restShort (schedule calls)
            have smaller := less reads due
            exact ih (calls + 1) later next (frames.trans split) (by
              simp only [Session.after]
              omega)
      | succ gap gapIh =>
          have restShort : Short rest := by
            intro message member
            exact short message (split ▸ List.mem_append_right _ member)
          obtain ⟨later, next, frames, notMore, _⟩ := ready.poll restShort (schedule calls)
          refine gapIh (calls + 1) later next (frames.trans split) ?_ (by omega) ?_
          · simp only [Session.after]
            omega
          · rwa [show calls + 1 + gap = calls + (gap + 1) by omega]

theorem framedExactly_of_aligned {messages : List (List UInt8)} (short : Short messages)
    (aligned : Aligned bufferCapacity [] messages) : FramedExactly messages := by
  intro schedule
  constructor
  · intro calls
    obtain ⟨rest, _, split⟩ := after_ready short aligned schedule calls
    rw [(after_agrees messages schedule calls).1.frames]
    exact ⟨rest, split⟩
  · intro fair
    obtain ⟨calls, done⟩ := after_complete short fair _ 0 messages (start_ready aligned) rfl
      (Nat.le_refl _)
    exact ⟨calls, by rw [(after_agrees messages schedule calls).1.frames, done]⟩

def Full (session : Session) : Prop :=
  session.tape.front.length + session.tape.ahead.length = session.tape.capacity ∨
    session.unread = []

theorem full_read {session : Session} (roomy : Roomy session.tape) {count : Nat}
    (greedy : session.unread.length ≤ count) (full : session.Complete → Full session) :
    Full (session.read count) := by
  by_cases whole : session.Complete
  · rw [Session.read_of_complete count whole]
    exact full whole
  · have fits := (roomy.ensureRoom (Nat.not_le.mp whole)).fits
    have arrived := List.length_take (i := min count (session.tape.ensureRoom
      session.frameLength).room) (l := session.unread)
    rw [← Session.arrived, Tape.room] at arrived
    rw [Session.read_of_missing count whole, Full]
    simp only [Tape.store, List.length_append]
    by_cases all : session.unread.length ≤ (session.arrived count).length
    · exact Or.inr (List.drop_of_length_le all)
    · exact Or.inl (by omega)

theorem complete_read {session : Session} (roomy : Roomy session.tape) {count : Nat}
    (full : Full (session.read count))
    (due : session.frameLength ≤
      (session.read count).tape.ahead.length + (session.read count).unread.length) :
    (session.read count).Complete := by
  by_cases whole : session.Complete
  · rwa [Session.read_of_complete count whole]
  · have placed := base_fits roomy.positive session.tape.front session.frameLength
    rw [Session.Complete, (session.read_inBody count).2.1]
    rcases full with brimming | nothing
    · rw [Session.read_of_missing count whole] at brimming ⊢
      simp only [Tape.store, Tape.ensureRoom_eq] at brimming ⊢
      omega
    · rw [nothing, List.length_nil] at due
      omega

theorem full_advance {session : Session} (full : Full session) {length : Nat}
    (available : length ≤ session.tape.ahead.length) :
    (session.tape.advance length).front.length + (session.tape.advance length).ahead.length =
      (session.tape.advance length).capacity ∨ session.unread = [] := by
  rcases full with brimming | nothing
  · left
    simp only [Tape.advance, List.length_append, List.length_take, List.length_drop]
    omega
  · exact Or.inr nothing

structure Returned (session next : Session) (capacity : Nat) (start message : List UInt8)
    (rest : List (List UInt8)) (frame : List UInt8) : Prop where
  frames : next.frames = session.frames ++ [frame]
  retained : frame = message → Retained capacity start message
  header : AtHeader next rest
  capacity_eq : next.tape.capacity = grown capacity message.length
  front_eq : frame = message → next.tape.front = place capacity start message
  full : Full next

theorem greedy_body {session : Session} {message : List UInt8} {rest : List (List UInt8)}
    (body : AtBody session message rest) (full : Full session) {count : Nat}
    (greedy : session.unread.length ≤ count) :
    ∃ frame, Returned session (session.poll count) session.tape.capacity session.tape.front
      message rest frame := by
  have fits := body.fits
  have readFull := full_read body.toRoomy greedy fun _ => full
  have sameBody := (session.read_inBody count).1
  have sameFrames := (session.read_inBody count).2.2
  by_cases whole : session.Complete
  · obtain ⟨header, frames, capacity, front⟩ := body.take whole
    refine ⟨message, ?_⟩
    rw [Session.poll, Session.read_of_complete count whole, Session.consume, if_pos whole,
      if_pos body.inBody]
    refine ⟨frames, fun _ long => ?_, header, capacity, fun _ => front, full_advance full whole⟩
    rw [Session.Complete, body.frameLength] at whole
    omega
  · have next := body.read whole count
    have sameLength : (received session.tape message).length = message.length := by
      rw [← next.frameLength, (session.read_inBody count).2.1, body.frameLength]
    have complete : (session.read count).Complete := by
      apply complete_read body.toRoomy readFull
      have stream := congrArg List.length next.stream
      rw [List.length_append, List.length_append] at stream
      rw [body.frameLength]
      omega
    obtain ⟨header, frames, capacity, front⟩ := next.take complete
    have readCapacity : (session.read count).tape.capacity =
        grown session.tape.capacity message.length := by
      rw [Session.read_of_missing count whole, ← body.frameLength]
      simp only [Tape.store, Tape.ensureRoom_eq]
    have readFront : (session.read count).tape.front =
        base session.tape.capacity session.tape.front message.length := by
      rw [Session.read_of_missing count whole, ← body.frameLength]
      simp only [Tape.store, Tape.ensureRoom_eq]
    have enough := length_le_grown body.positive message.length
    refine ⟨received session.tape message, ?_⟩
    rw [Session.poll, Session.consume, if_pos complete, if_pos (sameBody ▸ body.inBody)]
    refine ⟨by rw [frames, sameFrames], ?_, header, ?_, ?_, full_advance readFull complete⟩
    · -- the buffer was full, so the frame shows all of its start that the growing buffer kept
      intro same long
      have held : session.tape.ahead.length = session.tape.capacity - session.tape.front.length := by
        rcases full with brimming | nothing
        · omega
        · have stream := congrArg List.length body.stream
          rw [nothing, List.append_nil, List.length_append] at stream
          omega
      rw [received, if_pos long, held] at same
      exact retained_of_garbled same long
    · rw [capacity, readCapacity, sameLength, grown_eq_self enough]
    · intro same
      rw [same] at front
      rw [front, readCapacity, readFront, place_base body.positive]

theorem greedy_message {session : Session} {message : List UInt8} {rest : List (List UInt8)}
    (header : AtHeader session (message :: rest)) (short : message.length < 10 ^ 8)
    (full : session.Complete → Full session) {count : Nat}
    (greedy : session.unread.length ≤ count) :
    ∃ next, (next = session.poll count ∨ next = (session.poll count).poll count) ∧
      ∃ frame, Returned session next session.tape.capacity
        (place session.tape.capacity session.tape.front (Transport.header message))
        message rest frame := by
  have readFull := full_read header.toRoomy greedy full
  have readHeader := header.read count
  have sameFrames := (session.read_inBody count).2.2
  have fewer := session.read_unread count
  have length := header_length short
  have complete : (session.read count).Complete := by
    apply complete_read header.toRoomy readFull
    have stream := congrArg List.length readHeader.stream
    rw [List.length_append, List.flatMap_cons, List.length_append, encode, List.length_append,
      length] at stream
    rw [header.frameLength]
    omega
  have readCapacity : (session.read count).tape.capacity = session.tape.capacity := by
    by_cases whole : session.Complete
    · rw [Session.read_of_complete count whole]
    · rw [Session.read_of_missing count whole]
      simp only [Tape.store, Tape.ensureRoom_eq, header.frameLength, grown_eq_self header.large]
  obtain ⟨body, front⟩ := readHeader.parse short complete
  have start : (session.read count).parseFrameLen.tape.front =
      place session.tape.capacity session.tape.front (Transport.header message) := by
    rw [front, readCapacity]
    by_cases whole : session.Complete
    · rw [Session.read_of_complete count whole]
    · have placed := place_base header.positive session.tape.front (Transport.header message)
      rw [length, grown_eq_self header.large] at placed
      rw [Session.read_of_missing count whole]
      simp only [Tape.store, Tape.ensureRoom_eq, header.frameLength]
      exact placed
  have parsedCapacity : (session.read count).parseFrameLen.tape.capacity = session.tape.capacity :=
    readCapacity
  have parsedFull : Full (session.read count).parseFrameLen := by
    apply full_advance readFull
    rw [← readHeader.frameLength]
    exact complete
  have parsedFrames : (session.read count).parseFrameLen.frames = session.frames := sameFrames
  have parsedUnread : (session.read count).parseFrameLen.unread.length ≤ count :=
    Nat.le_trans fewer greedy
  have polled : session.poll count = (session.read count).parseFrameLen.fallThrough := by
    rw [Session.poll, Session.consume, if_pos complete,
      if_neg (by rw [readHeader.inBody]; exact Bool.false_ne_true)]
  rw [← start, ← parsedCapacity, polled]
  generalize (session.read count).parseFrameLen = parsed at body parsedFull parsedFrames parsedUnread ⊢
  obtain ⟨frame, returned⟩ := greedy_body body parsedFull parsedUnread
  rw [Session.fallThrough]
  refine ⟨parsed.poll count, ?_, frame, ?_⟩
  · by_cases fits : parsed.Complete
    · rw [if_pos fits, Session.poll, Session.read_of_complete count fits, Session.consume,
        if_pos fits, if_pos body.inBody]
      exact Or.inl rfl
    · rw [if_neg fits]
      exact Or.inr rfl
  · exact { returned with frames := by rw [returned.frames, parsedFrames] }

theorem Session.consume_unread (session : Session) : session.consume.unread = session.unread := by
  rw [Session.consume]
  split
  · split
    · rfl
    · rw [Session.fallThrough]
      split <;> rfl
  · rfl

theorem after_unread (messages : List (List UInt8)) (schedule : Nat → Nat) (calls : Nat) :
    (Session.after messages schedule calls).unread.length ≤ (messages.flatMap encode).length := by
  induction calls with
  | zero => exact Nat.le_refl _
  | succ calls ih =>
      have fewer := (Session.after messages schedule calls).read_unread (schedule calls)
      rw [Session.after, Session.poll, Session.consume_unread]
      omega

theorem aligned_of_framedExactly {messages : List (List UInt8)} (short : Short messages)
    (exactly : FramedExactly messages) : Aligned bufferCapacity [] messages := by
  let schedule : Nat → Nat := fun _ => (messages.flatMap encode).length
  have prefixes : ∀ calls, (Session.after messages schedule calls).frames <+: messages := by
    intro calls
    rw [← (after_agrees messages schedule calls).1.frames]
    exact (exactly schedule).1 calls
  have from_ : ∀ rest calls, AtHeader (Session.after messages schedule calls) rest →
      (Session.after messages schedule calls).frames ++ rest = messages →
      ((Session.after messages schedule calls).Complete →
        Full (Session.after messages schedule calls)) →
      Aligned (Session.after messages schedule calls).tape.capacity
        (Session.after messages schedule calls).tape.front rest := by
    intro rest
    induction rest with
    | nil => intro calls _ _ _; trivial
    | cons message rest ih =>
        intro calls header split full
        have member : message ∈ messages := by
          rw [← split]
          simp
        obtain ⟨next, reached, frame, returned⟩ := greedy_message header (short message member) full
          (after_unread messages schedule calls)
        obtain ⟨later, rfl⟩ : ∃ later, next = Session.after messages schedule later := by
          rcases reached with once | twice
          · exact ⟨calls + 1, once⟩
          · exact ⟨calls + 2, twice⟩
        have same : frame = message := by
          obtain ⟨tail, whole⟩ := prefixes later
          rw [returned.frames, List.append_assoc] at whole
          have cancelled := List.append_cancel_left (whole.trans split.symm)
          rw [List.singleton_append, List.cons.injEq] at cancelled
          exact cancelled.1
        subst same
        refine ⟨returned.retained rfl, ?_⟩
        have remainder := ih later returned.header (by rw [returned.frames, List.append_assoc,
          List.singleton_append, split]) (fun _ => returned.full)
        rwa [returned.capacity_eq, returned.front_eq rfl] at remainder
  refine from_ messages 0 ?_ rfl ?_
  · exact ⟨⟨show headerLen ≤ bufferCapacity by decide, Nat.zero_le _⟩, rfl, rfl, rfl⟩
  · intro whole
    exact absurd whole (by simp [Session.Complete, Session.after, Session.start, headerLen])

theorem aligned_of_fits {capacity : Nat} {messages : List (List UInt8)}
    (fits : ∀ message ∈ messages, message.length ≤ capacity) (front : List UInt8) :
    Aligned capacity front messages := by
  induction messages generalizing front with
  | nil => trivial
  | cons message rest ih =>
      have small := fits message List.mem_cons_self
      refine ⟨fun long => by omega, ?_⟩
      rw [grown_eq_self small]
      exact ih (fun other member => fits other (List.mem_cons_of_mem _ member)) _

/--
Messages are framed exactly over every chunking if and only if each message longer
than the buffer is retained when the buffer grows for it.
-/
theorem framedExactly_iff (messages : List (List UInt8))
    (sized : ∀ message ∈ messages, WellSized message) :
    FramedExactly messages ↔ Aligned bufferCapacity [] messages := by
  have short : Short messages := fun message member => (sized message member).2
  exact ⟨aligned_of_framedExactly short, framedExactly_of_aligned short⟩

theorem framedExactly_two_messages :
    (∀ message ∈ [[0x61, 0x62, 0x63], [0x64]], WellSized message) ∧
      FramedExactly [[0x61, 0x62, 0x63], [0x64]] := by
  have sized : ∀ message ∈ [[0x61, 0x62, 0x63], [0x64]], WellSized message := by
    intro message member
    simp only [List.mem_cons, List.not_mem_nil, or_false] at member
    rcases member with rfl | rfl <;> exact ⟨by decide, by decide⟩
  refine ⟨sized, (framedExactly_iff _ sized).mpr (aligned_of_fits ?_ [])⟩
  intro message member
  simp only [List.mem_cons, List.not_mem_nil, or_false] at member
  rcases member with rfl | rfl <;> decide

/-- One message of 8193 bytes `x`: with its first byte read before the buffer grows it comes out
beginning with the first digit of its length. -/
def tooLong : List UInt8 := List.replicate 8193 0x78

theorem not_framedExactly_tooLong :
    ¬∀ messages : List (List UInt8), (∀ message ∈ messages, WellSized message) →
      FramedExactly messages := by
  intro always
  have length : tooLong.length = 8193 := List.length_replicate
  have sized : ∀ message ∈ [tooLong], WellSized message := by
    intro message member
    rw [List.mem_singleton.mp member, WellSized, length]
    decide
  have digits : header tooLong = [48, 48, 48, 48, 56, 49, 57, 51] := by
    rw [header, length]
    decide
  have aligned := aligned_of_framedExactly (fun message member => (sized message member).2)
    (always [tooLong] sized)
  have retained := aligned.1 (by rw [length]; decide)
  have start : place bufferCapacity [] (header tooLong) = [48, 48, 48, 48, 56, 49, 57, 51] := by
    rw [digits]
    decide
  have first := congrArg List.head? retained
  rw [start, List.head?_take, List.head?_take, if_neg (by decide), if_neg (by decide), tooLong,
    List.head?_replicate] at first
  exact absurd first (by decide)

end Xpedite.Transport
