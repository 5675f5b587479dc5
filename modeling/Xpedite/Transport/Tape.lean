import Xpedite.Transport.FramerCore

/-!
The framer without memory and cursors.  A tape is what the buffer holds: the bytes
already read past (since the cursors were last rewound) and the bytes still ahead.
The framer on a buffer does exactly what a session does on the tape.
-/

namespace Xpedite.Transport

structure Tape where
  capacity : Nat
  front : List UInt8
  ahead : List UInt8

namespace Tape

def room (tape : Tape) : Nat := tape.capacity - (tape.front.length + tape.ahead.length)

def store (tape : Tape) (data : List UInt8) : Tape := { tape with ahead := tape.ahead ++ data }

def advance (tape : Tape) (length : Nat) : Tape :=
  { tape with front := tape.front ++ tape.ahead.take length, ahead := tape.ahead.drop length }

/-- Room for a frame.  A buffer that has to grow keeps the bytes at its start, not those ahead. -/
def ensureRoom (tape : Tape) (frame : Nat) : Tape :=
  if tape.front.length + frame > tape.capacity then
    if frame > tape.capacity then
      { capacity := Buffer.doubleTo frame frame tape.capacity
        front := []
        ahead := (tape.front ++ tape.ahead).take tape.ahead.length }
    else { tape with front := [] }
  else tape

end Tape

structure Holds (buffer : Buffer) (tape : Tape) : Prop where
  length : buffer.bytes.length = buffer.capacity
  capacity : buffer.capacity = tape.capacity
  outPos : buffer.outPos = tape.front.length
  inPos : buffer.inPos = tape.front.length + tape.ahead.length
  fits : buffer.inPos ≤ buffer.capacity
  filled : buffer.bytes.take buffer.inPos = tape.front ++ tape.ahead

namespace Holds

variable {buffer : Buffer} {tape : Tape}

theorem new (capacity : Nat) : Holds (Buffer.new capacity) ⟨capacity, [], []⟩ where
  length := by simp [Buffer.new]
  capacity := rfl
  outPos := rfl
  inPos := rfl
  fits := Nat.zero_le _
  filled := rfl

theorem size (holds : Holds buffer tape) : buffer.size = tape.ahead.length := by
  have inPos := holds.inPos
  have outPos := holds.outPos
  rw [Buffer.size]
  omega

theorem usableCapacity (holds : Holds buffer tape) : buffer.usableCapacity = tape.room := by
  rw [Buffer.usableCapacity, Tape.room, holds.inPos, holds.capacity]

theorem getReadBuffer (holds : Holds buffer tape) {length : Nat}
    (available : length ≤ tape.ahead.length) :
    buffer.getReadBuffer length = tape.ahead.take length := by
  have outPos := holds.outPos
  have inPos := holds.inPos
  have filled := congrArg (fun bytes => (bytes.drop tape.front.length).take length) holds.filled
  simp only [List.drop_left, List.drop_take, List.take_take] at filled
  rw [Buffer.getReadBuffer, outPos, ← filled]
  congr 1
  omega

theorem advance (holds : Holds buffer tape) {length : Nat}
    (available : length ≤ tape.ahead.length) :
    Holds (buffer.advanceReadUnsafe length) (tape.advance length) where
  length := holds.length
  capacity := holds.capacity
  outPos := by
    have outPos := holds.outPos
    simp only [Buffer.advanceReadUnsafe, Tape.advance, List.length_append, List.length_take]
    omega
  inPos := by
    have inPos := holds.inPos
    simp only [Buffer.advanceReadUnsafe, Tape.advance, List.length_append, List.length_take,
      List.length_drop]
    omega
  fits := holds.fits
  filled := by
    simp only [Buffer.advanceReadUnsafe, Tape.advance, holds.filled, List.append_assoc,
      List.take_append_drop]

theorem store (holds : Holds buffer tape) {data : List UInt8} (room : data.length ≤ tape.room) :
    Holds (buffer.store data) (tape.store data) := by
  have length := holds.length
  have inPos := holds.inPos
  have fits := holds.fits
  have space : buffer.inPos + data.length ≤ buffer.capacity := by
    rw [Tape.room, ← inPos, ← holds.capacity] at room
    omega
  have prefixLength : (buffer.bytes.take buffer.inPos ++ data).length =
      buffer.inPos + data.length := by
    rw [List.length_append, List.length_take, length]
    omega
  refine ⟨?_, holds.capacity, holds.outPos, ?_, space, ?_⟩
  · simp only [Buffer.store, List.length_append, List.length_take, List.length_drop, length]
    omega
  · simp only [Buffer.store, Tape.store, List.length_append]
    omega
  · simp only [Buffer.store, Tape.store]
    rw [← prefixLength, List.take_left, holds.filled, List.append_assoc]

theorem rewind_memmove (holds : Holds buffer tape) :
    Holds buffer.memmove.rewind { tape with front := [] } := by
  have size := holds.size
  have fits := holds.fits
  have inPos := holds.inPos
  have outPos := holds.outPos
  have moved : buffer.getReadBuffer buffer.size = tape.ahead := by
    rw [size, holds.getReadBuffer (Nat.le_refl _), List.take_length]
  refine ⟨?_, holds.capacity, rfl, ?_, ?_, ?_⟩
  · simp only [Buffer.rewind, Buffer.memmove, moved, List.length_append, List.length_drop,
      holds.length]
    omega
  · simp only [Buffer.rewind, Buffer.memmove, List.length_nil]
    omega
  · simp only [Buffer.rewind, Buffer.memmove]
    omega
  · have distance : buffer.inPos - buffer.outPos = tape.ahead.length := by omega
    simp only [Buffer.rewind, Buffer.memmove, moved, distance, List.take_left, List.nil_append]

theorem rewind_empty (holds : Holds buffer tape) (empty : tape.ahead = []) :
    Holds buffer.rewind { tape with front := [] } := by
  have inPos := holds.inPos
  have outPos := holds.outPos
  rw [empty, List.length_nil] at inPos
  refine ⟨holds.length, holds.capacity, rfl, ?_, ?_, ?_⟩
  · simp only [Buffer.rewind, empty, List.length_nil]
    omega
  · simp only [Buffer.rewind]
    omega
  · have distance : buffer.inPos - buffer.outPos = 0 := by omega
    simp only [Buffer.rewind, distance, List.take_zero, empty, List.append_nil]

theorem rewind_realloc (holds : Holds buffer tape) {newSize : Nat}
    (larger : buffer.capacity ≤ newSize) :
    Holds (buffer.realloc newSize).rewind
      ⟨newSize, [], (tape.front ++ tape.ahead).take tape.ahead.length⟩ := by
  have fits := holds.fits
  have inPos := holds.inPos
  have outPos := holds.outPos
  have distance : buffer.inPos - buffer.outPos = tape.ahead.length := by omega
  have within : tape.ahead.length ≤ buffer.bytes.length := by
    rw [holds.length]
    omega
  refine ⟨?_, rfl, rfl, ?_, ?_, ?_⟩
  · simp only [Buffer.rewind, Buffer.realloc, List.length_append, List.length_replicate,
      holds.length]
    omega
  · simp only [Buffer.rewind, Buffer.realloc, distance, List.length_take, List.length_append,
      List.length_nil]
    omega
  · simp only [Buffer.rewind, Buffer.realloc]
    omega
  · simp only [Buffer.rewind, Buffer.realloc, distance, List.nil_append]
    rw [List.take_append_of_le_length within, ← holds.filled, List.take_take]
    congr 1
    omega

end Holds

theorem le_doubleTo (target rounds size : Nat) : size ≤ Buffer.doubleTo target rounds size := by
  induction rounds generalizing size with
  | zero => exact Nat.le_refl _
  | succ rounds ih =>
      rw [Buffer.doubleTo]
      split
      · have larger := ih (size * 2)
        omega
      · exact Nat.le_refl _

theorem target_le_doubleTo (target rounds size : Nat) (positive : 0 < size)
    (enough : target ≤ rounds + size) : target ≤ Buffer.doubleTo target rounds size := by
  induction rounds generalizing size with
  | zero =>
      rw [Buffer.doubleTo]
      omega
  | succ rounds ih =>
      rw [Buffer.doubleTo]
      split
      · exact ih (size * 2) (by omega) (by omega)
      · omega

theorem Holds.ensureRoom {buffer : Buffer} {tape : Tape} (holds : Holds buffer tape) {frame : Nat}
    (missing : tape.ahead.length < frame) :
    Holds (buffer.ensureRoom (frame - buffer.size)) (tape.ensureRoom frame) := by
  have size := holds.size
  have capacity := holds.capacity
  have reach : buffer.inPos + (frame - buffer.size) = tape.front.length + frame := by
    have inPos := holds.inPos
    omega
  have whole : buffer.size + (frame - buffer.size) = frame := by omega
  unfold Buffer.ensureRoom Tape.ensureRoom
  simp only [reach, whole, capacity]
  split
  · by_cases grows : frame > tape.capacity
    · have needed : (frame : Int) - (tape.capacity : Int) > 0 := by omega
      have target : tape.capacity + ((frame : Int) - (tape.capacity : Int)).toNat = frame := by
        omega
      simp only [needed, grows, if_true, target]
      apply holds.rewind_realloc
      rw [capacity]
      exact le_doubleTo frame frame tape.capacity
    · have needed : ¬(frame : Int) - (tape.capacity : Int) > 0 := by omega
      simp only [needed, grows, if_false]
      split
      · exact holds.rewind_memmove
      · exact holds.rewind_empty (List.length_eq_zero_iff.mp (by omega))
  · exact holds

/-- A connection on a tape; in the body of a frame `frameLength` is that of the message. -/
structure Session where
  tape : Tape
  inBody : Bool
  frameLength : Nat
  unread : List UInt8
  frames : List (List UInt8)

namespace Session

def start (messages : List (List UInt8)) : Session :=
  ⟨⟨bufferCapacity, [], []⟩, false, headerLen, messages.flatMap encode, []⟩

def read (session : Session) (count : Nat) : Session :=
  if session.tape.ahead.length < session.frameLength then
    let tape := session.tape.ensureRoom session.frameLength
    let data := session.unread.take (min count tape.room)
    { session with tape := tape.store data, unread := session.unread.drop data.length }
  else session

def parseFrameLen (session : Session) : Session :=
  { session with
    tape := session.tape.advance headerLen
    inBody := true
    frameLength := Framer.frameLen (session.tape.ahead.take headerLen) }

def takeBody (session : Session) : Session :=
  { session with
    tape := session.tape.advance session.frameLength
    inBody := false
    frameLength := headerLen
    frames := session.frames ++ [session.tape.ahead.take session.frameLength] }

def Complete (session : Session) : Prop := session.frameLength ≤ session.tape.ahead.length

instance (session : Session) : Decidable session.Complete :=
  inferInstanceAs (Decidable (session.frameLength ≤ session.tape.ahead.length))

def fallThrough (session : Session) : Session :=
  if session.Complete then session.takeBody else session

def consume (session : Session) : Session :=
  if session.Complete then
    if session.inBody then session.takeBody else session.parseFrameLen.fallThrough
  else session

def poll (session : Session) (count : Nat) : Session := (session.read count).consume

end Session

def location (inBody : Bool) : CursorLocation := if inBody then .pduBody else .pduMeta

structure FramerAgrees (framer : Framer) (session : Session) : Prop where
  holds : Holds framer.buffer session.tape
  cursorLocation : framer.cursorLocation = location session.inBody
  frameLength : framer.frameLength = session.frameLength

structure Agrees (connection : Connection) (session : Session) : Prop where
  framer : FramerAgrees connection.framer session
  unread : connection.socket.unread = session.unread
  frames : connection.frames = session.frames

theorem Agrees.of_framer {framer : Framer} {socket : Socket} {frames : List (List UInt8)}
    {session : Session} (agrees : FramerAgrees framer session)
    (unread : socket.unread = session.unread) (sameFrames : frames = session.frames) :
    Agrees ⟨framer, socket, frames⟩ session :=
  ⟨agrees, unread, sameFrames⟩

theorem Buffer.read_agrees {buffer : Buffer} {tape : Tape} (holds : Holds buffer tape)
    (unread : List UInt8) (count : Nat) :
    ∃ rc read socket, buffer.read ⟨unread, .ready count⟩ = (rc, read, socket) ∧ 0 ≤ rc ∧
      Holds read (tape.store (unread.take (min count tape.room))) ∧
      socket.unread = unread.drop (unread.take (min count tape.room)).length := by
  have same : tape.store [] = tape := by simp [Tape.store]
  unfold Buffer.read
  rw [holds.usableCapacity]
  split
  · rename_i full
    refine ⟨_, _, _, rfl, Int.le_refl 0, ?_, ?_⟩
    · simpa [full, same] using holds
    · simp [full]
  · simp only [Socket.read]
    by_cases none : unread.take (min count tape.room) = []
    · rw [if_pos none]
      refine ⟨_, _, _, rfl, Int.le_refl 0, ?_, ?_⟩
      · simpa [none, same] using holds
      · simp [none]
    · rw [if_neg none]
      refine ⟨_, _, _, rfl, by simp, holds.store ?_, rfl⟩
      rw [List.length_take]
      omega

theorem Session.status_eq (session : Session) :
    (if session.tape.ahead.length < session.frameLength then ReadStatus.partialRead
      else .completeRead) = if session.Complete then .completeRead else .partialRead := by
  by_cases whole : session.Complete
  · rw [if_pos whole, if_neg (Nat.not_lt.mpr whole)]
  · rw [if_neg whole, if_pos (Nat.not_le.mp whole)]

theorem Framer.read_agrees {framer : Framer} {session : Session}
    (agrees : FramerAgrees framer session) (count : Nat) :
    ∃ read socket, framer.read ⟨session.unread, .ready count⟩ =
        (if (session.read count).Complete then .completeRead else .partialRead, read, socket) ∧
      FramerAgrees read (session.read count) ∧ socket.unread = (session.read count).unread := by
  have size := agrees.holds.size
  unfold Framer.read Session.read
  rw [size, agrees.frameLength]
  split
  · rename_i missing
    obtain ⟨rc, buffer, socket, done, noError, holds, unread⟩ :=
      Buffer.read_agrees (agrees.holds.ensureRoom missing) session.unread count
    rw [size] at done
    simp only [done, if_neg (Int.not_lt.mpr noError), holds.size]
    refine ⟨{ framer with buffer := buffer }, socket, ?_,
      ⟨holds, agrees.cursorLocation, agrees.frameLength⟩, unread⟩
    rw [agrees.frameLength]
    congr 1
    rw [← Session.status_eq]
  · rename_i enough
    refine ⟨framer, ⟨session.unread, .ready count⟩, ?_, agrees, rfl⟩
    have whole : session.Complete := Nat.not_lt.mp enough
    simp only [size, if_neg enough, if_pos whole]

theorem Framer.takeBody_agrees {framer : Framer} {session : Session}
    (agrees : FramerAgrees framer session) (whole : session.Complete) :
    framer.takeBody.1 = .frame (session.tape.ahead.take session.frameLength) ∧
      FramerAgrees framer.takeBody.2 session.takeBody := by
  constructor
  · simp only [Framer.takeBody, agrees.frameLength, agrees.holds.getReadBuffer whole]
  · refine ⟨?_, rfl, rfl⟩
    simp only [Framer.takeBody, agrees.frameLength]
    exact agrees.holds.advance whole

theorem Framer.parseFrameLen_agrees {framer : Framer} {session : Session}
    (agrees : FramerAgrees framer session) (whole : headerLen ≤ session.tape.ahead.length) :
    FramerAgrees framer.parseFrameLen session.parseFrameLen where
  holds := agrees.holds.advance whole
  cursorLocation := rfl
  frameLength := by
    simp only [Framer.parseFrameLen, Session.parseFrameLen, agrees.holds.getReadBuffer whole]

theorem Session.read_inBody (session : Session) (count : Nat) :
    (session.read count).inBody = session.inBody ∧
      (session.read count).frameLength = session.frameLength ∧
      (session.read count).frames = session.frames := by
  unfold Session.read
  split <;> exact ⟨rfl, rfl, rfl⟩

def Framer.Result.addTo (frames : List (List UInt8)) : Framer.Result → List (List UInt8)
  | .frame data => frames ++ [data]
  | _ => frames

theorem Connection.poll_eq (connection : Connection) (count : Nat) {result : Framer.Result}
    {framer : Framer} {socket : Socket}
    (done : connection.framer.readFrame ⟨connection.socket.unread, .ready count⟩ =
      (result, framer, socket)) :
    connection.poll count = ⟨framer, socket, result.addTo connection.frames⟩ := by
  simp only [Connection.poll, done]
  cases result <;> rfl

theorem Framer.takeBody_addTo {framer : Framer} {session : Session}
    (agrees : FramerAgrees framer session) (whole : session.Complete) :
    framer.takeBody.1.addTo session.frames = session.takeBody.frames := by
  rw [(Framer.takeBody_agrees agrees whole).1]
  rfl

theorem Framer.fallThrough_agrees {framer : Framer} {session : Session}
    (agrees : FramerAgrees framer session) :
    FramerAgrees framer.fallThrough.2 session.fallThrough ∧
      framer.fallThrough.1.addTo session.frames = session.fallThrough.frames ∧
      session.fallThrough.unread = session.unread := by
  unfold Framer.fallThrough Session.fallThrough
  by_cases whole : session.Complete
  · have enough : ¬framer.buffer.size < framer.frameLength := by
      rw [agrees.holds.size, agrees.frameLength]
      exact Nat.not_lt.mpr whole
    rw [if_neg enough, if_pos whole]
    exact ⟨(Framer.takeBody_agrees agrees whole).2, Framer.takeBody_addTo agrees whole, rfl⟩
  · have missing : framer.buffer.size < framer.frameLength := by
      rw [agrees.holds.size, agrees.frameLength]
      exact Nat.not_le.mp whole
    rw [if_pos missing, if_neg whole]
    exact ⟨agrees, rfl, rfl⟩

theorem Agrees.poll {connection : Connection} {session : Session}
    (agrees : Agrees connection session) (count : Nat)
    (atHeader : session.inBody = false → session.frameLength = headerLen) :
    Agrees (connection.poll count) (session.poll count) := by
  obtain ⟨sameBody, sameLength, sameFrames⟩ := session.read_inBody count
  have connected : connection.framer.cursorLocation ≠ .disconnected := by
    rw [agrees.framer.cursorLocation, location]
    split <;> simp
  obtain ⟨framer, socket, read, agreed, unread⟩ := Framer.read_agrees agrees.framer count
  have cursor := agreed.cursorLocation
  have frames : connection.frames = (session.read count).frames := agrees.frames.trans sameFrames.symm
  rw [← sameBody, ← sameLength] at atHeader
  rw [← agrees.unread] at read
  unfold Session.poll Session.consume
  generalize session.read count = session at read agreed unread cursor frames atHeader ⊢
  by_cases whole : session.Complete
  · rw [if_pos whole] at read
    rw [if_pos whole]
    cases body : session.inBody with
    | true =>
        have done : connection.framer.readFrame ⟨connection.socket.unread, .ready count⟩ =
            (framer.takeBody.1, framer.takeBody.2, socket) := by
          rw [body] at cursor
          simp only [Framer.readFrame, if_neg connected, read, cursor, location, if_true]
        rw [connection.poll_eq count done, if_pos rfl, frames]
        exact ⟨(Framer.takeBody_agrees agreed whole).2, unread, Framer.takeBody_addTo agreed whole⟩
    | false =>
        have done : connection.framer.readFrame ⟨connection.socket.unread, .ready count⟩ =
            (framer.parseFrameLen.fallThrough.1, framer.parseFrameLen.fallThrough.2, socket) := by
          rw [body] at cursor
          simp only [Framer.readFrame, if_neg connected, read, cursor, location,
            Bool.false_eq_true, if_false]
        have header : headerLen ≤ session.tape.ahead.length := by
          rw [← atHeader body]
          exact whole
        obtain ⟨parsed, added, rest⟩ :=
          Framer.fallThrough_agrees (Framer.parseFrameLen_agrees agreed header)
        rw [connection.poll_eq count done, if_neg Bool.false_ne_true, frames]
        exact Agrees.of_framer parsed (unread.trans rest.symm) added
  · rw [if_neg whole] at read
    rw [if_neg whole]
    have done : connection.framer.readFrame ⟨connection.socket.unread, .ready count⟩ =
        (.none, framer, socket) := by
      simp only [Framer.readFrame, if_neg connected, read]
    rw [connection.poll_eq count done]
    exact ⟨agreed, unread, frames⟩

end Xpedite.Transport
