import Xpedite.Transport.FramerExact

/-!
A framer that is handed its messages one after the other as they are written.  What has not been
written yet makes no difference to a read, so the messages come out as if all were there.
-/

namespace Xpedite.Transport

namespace Session

def extend (session : Session) (further : List UInt8) : Session :=
  { session with unread := session.unread ++ further }

theorem extend_read (session : Session) (further : List UInt8) (count : Nat) :
    (session.read count).extend further =
      (session.extend further).read (min count session.unread.length) := by
  have same : ∀ room, (session.unread ++ further).take
      (min (min count session.unread.length) room) = session.unread.take (min count room) := by
    intro room
    rw [List.take_append_of_le_length (by omega)]
    rw [List.take_eq_take_iff]
    omega
  unfold read extend
  dsimp only
  split
  · simp only [same]
    congr 1
    rw [List.drop_append_of_le_length]
    rw [List.length_take]
    omega
  · rfl

theorem extend_consume (session : Session) (further : List UInt8) :
    session.consume.extend further = (session.extend further).consume := by
  unfold consume fallThrough
  have complete : (session.extend further).Complete ↔ session.Complete := Iff.rfl
  by_cases whole : session.Complete
  · rw [if_pos whole, if_pos (complete.mpr whole)]
    cases body : session.inBody with
    | true =>
        rw [if_pos rfl, if_pos (show (session.extend further).inBody = true from body)]
        rfl
    | false =>
        rw [if_neg Bool.false_ne_true,
          if_neg (show ¬(session.extend further).inBody = true by simp [extend, body])]
        by_cases rest : session.parseFrameLen.Complete
        · rw [if_pos rest, if_pos (show (session.extend further).parseFrameLen.Complete from rest)]
          rfl
        · rw [if_neg rest, if_neg (show ¬(session.extend further).parseFrameLen.Complete from rest)]
          rfl
  · rw [if_neg whole, if_neg (fun extended => whole (complete.mp extended))]

theorem extend_poll (session : Session) (further : List UInt8) (count : Nat) :
    (session.poll count).extend further =
      (session.extend further).poll (min count session.unread.length) := by
  rw [poll, poll, extend_consume, extend_read]

end Session

/--
The framer will return the messages that are due, whose bytes it has not taken yet are `toTarget`,
and after them any that are written later.
-/
def Receives (framer : Framer) (toTarget : List UInt8) (due future : List (List UInt8)) : Prop :=
  ∃ session, FramerAgrees framer session ∧ session.unread = toTarget ∧ session.frames = [] ∧
    session.LengthAtHeader ∧ Ready (session.extend (future.flatMap encode)) (due ++ future)

theorem receives_new {messages : List (List UInt8)}
    (aligned : Aligned bufferCapacity [] messages) : Receives Framer.new [] [] messages := by
  refine ⟨Session.start [], ⟨Holds.new _, rfl, rfl⟩, rfl, rfl, fun _ => rfl, ?_⟩
  exact start_ready aligned

theorem FramerAgrees.congr {framer : Framer} {session other : Session}
    (agrees : FramerAgrees framer session) (tape : other.tape = session.tape)
    (inBody : other.inBody = session.inBody) (frameLength : other.frameLength = session.frameLength) :
    FramerAgrees framer other where
  holds := tape ▸ agrees.holds
  cursorLocation := inBody ▸ agrees.cursorLocation
  frameLength := frameLength ▸ agrees.frameLength

theorem Receives.write {framer : Framer} {toTarget : List UInt8} {due future : List (List UInt8)}
    {message : List UInt8} (receives : Receives framer toTarget due (message :: future)) :
    Receives framer (toTarget ++ encode message) (due ++ [message]) future := by
  obtain ⟨session, agrees, rfl, frames, atHeader, ready⟩ := receives
  refine ⟨{ session with unread := session.unread ++ encode message }, agrees.congr rfl rfl rfl, rfl,
    frames, atHeader, ?_⟩
  have same : ({ session with unread := session.unread ++ encode message } : Session).extend
      (future.flatMap encode) = session.extend ((message :: future).flatMap encode) := by
    simp [Session.extend]
  rw [same, List.append_assoc]
  exact ready

theorem Ready.atHeader {session : Session} {extra : List UInt8} {rest : List (List UInt8)}
    (short : Short rest) (ready : Ready session rest)
    (unread : session.unread = extra ++ rest.flatMap encode) :
    AtHeader session rest ∧ session.tape.ahead = [] ∧ extra = [] := by
  cases ready with
  | header header aligned =>
      have stream := header.stream
      rw [unread, ← List.append_assoc] at stream
      have nothing := List.append_left_eq_self.mp stream
      exact ⟨header, (List.append_eq_nil_iff.mp nothing).1, (List.append_eq_nil_iff.mp nothing).2⟩
  | @body message rest body retained aligned =>
      -- the header of the message that is being read has been read already
      have lengths := congrArg List.length body.stream
      have header := header_length (short message List.mem_cons_self)
      rw [unread] at lengths
      simp only [List.flatMap_cons, List.length_append, encode, header, headerLen] at lengths
      omega

theorem FramerAgrees.connected {framer : Framer} {session : Session}
    (agrees : FramerAgrees framer session) : framer.cursorLocation ≠ .disconnected := by
  rw [agrees.cursorLocation, location]
  split <;> simp

theorem fallThrough_ne_disconnected (framer : Framer) : framer.fallThrough.1 ≠ .disconnected := by
  rw [Framer.fallThrough]
  split
  · simp
  · simp [Framer.takeBody]

theorem readFrame_ne_disconnected {framer next : Framer} {session : Session} {count : Nat}
    {result : Framer.Result} {socket : Socket} (agrees : FramerAgrees framer session)
    (done : framer.readFrame ⟨session.unread, .ready count⟩ = (result, next, socket)) :
    result ≠ .disconnected := by
  obtain ⟨read, rest, reads, agreed, _⟩ := Framer.read_agrees agrees count
  have connected := agreed.connected
  generalize (session.read count) = after at reads connected
  by_cases whole : after.Complete
  · rw [if_pos whole] at reads
    cases cursor : read.cursorLocation with
    | pduMeta =>
        simp only [Framer.readFrame, if_neg agrees.connected, reads, cursor, Prod.mk.injEq] at done
        rw [← done.1]
        exact fallThrough_ne_disconnected read.parseFrameLen
    | pduBody =>
        simp only [Framer.readFrame, if_neg agrees.connected, reads, cursor, Prod.mk.injEq] at done
        rw [← done.1, Framer.takeBody]
        simp
    | disconnected => exact absurd cursor connected
  · rw [if_neg whole] at reads
    simp only [Framer.readFrame, if_neg agrees.connected, reads, Prod.mk.injEq] at done
    rw [← done.1]
    simp

theorem Ready.congr {session other : Session} {rest : List (List UInt8)} (ready : Ready session rest)
    (tape : other.tape = session.tape) (inBody : other.inBody = session.inBody)
    (frameLength : other.frameLength = session.frameLength)
    (unread : other.unread = session.unread) : Ready other rest := by
  cases ready with
  | header header aligned =>
      refine .header ⟨tape ▸ header.toRoomy, inBody.trans header.inBody,
        frameLength.trans header.frameLength, ?_⟩ (tape ▸ aligned)
      rw [tape, unread, header.stream]
  | @body message rest body retained aligned =>
      refine .body ⟨tape ▸ body.toRoomy, inBody.trans body.inBody,
        frameLength.trans body.frameLength, ?_⟩ (tape ▸ retained) (tape ▸ aligned)
      rw [tape, unread, body.stream]

theorem Receives.readFrame {framer next : Framer} {toTarget : List UInt8}
    {due future : List (List UInt8)} {count : Nat} {result : Framer.Result} {socket : Socket}
    (short : Short (due ++ future)) (receives : Receives framer toTarget due future)
    (read : framer.readFrame ⟨toTarget, .ready count⟩ = (result, next, socket)) :
    (result = .none ∧ Receives next socket.unread due future) ∨
      ∃ message rest, due = message :: rest ∧ result = .frame message ∧
        Receives next socket.unread rest future := by
  obtain ⟨session, agrees, rfl, frames, atHeader, ready⟩ := receives
  have connected := readFrame_ne_disconnected agrees read
  have polled := @Agrees.poll ⟨framer, ⟨session.unread, .ready count⟩, []⟩ session
    ⟨agrees, rfl, frames.symm⟩ count atHeader
  rw [Connection.poll_eq _ count read] at polled
  obtain ⟨later, readyLater, taken, -, -⟩ := ready.poll short (min count session.unread.length)
  rw [← session.extend_poll] at readyLater taken
  have sameFrames : ((session.poll count).extend (future.flatMap encode)).frames =
      (session.poll count).frames := rfl
  rw [sameFrames, ← polled.frames] at taken
  have none_before : (session.extend (future.flatMap encode)).frames = [] := frames
  rw [none_before, List.nil_append] at taken
  have header := Session.poll_lengthAtHeader atHeader count
  cases result with
  | disconnected => exact absurd rfl connected
  | none =>
      rw [show Framer.Result.addTo [] .none = [] from rfl, List.nil_append] at taken
      subst taken
      exact .inl ⟨rfl, _, polled.framer, polled.unread.symm, polled.frames.symm, header, readyLater⟩
  | frame data =>
      rw [show Framer.Result.addTo [] (.frame data) = [data] from rfl,
        List.singleton_append] at taken
      cases due with
      | nil =>
          -- the header of a message that has not been written is still to come
          rw [List.nil_append] at taken short
          subst taken
          have shortLater : Short later :=
            fun message member => short message (List.mem_cons_of_mem data member)
          have nothing := (@Ready.atHeader _ ((session.poll count).unread ++ encode data) _
            shortLater readyLater (by simp [Session.extend])).2.2
          have header := header_length (short data List.mem_cons_self)
          simp [encode, ← List.length_eq_zero_iff, header, headerLen] at nothing
      | cons message rest =>
          obtain ⟨rfl, rfl⟩ := List.cons_eq_cons.mp taken
          refine .inr ⟨data, rest, rfl, rfl, { session.poll count with frames := [] },
            polled.framer.congr rfl rfl rfl, polled.unread.symm, rfl, header, ?_⟩
          exact readyLater.congr rfl rfl rfl rfl

end Xpedite.Transport
