import Xpedite.Lib.Runs
import Xpedite.Session.AdminCore
import Xpedite.Transport.Datagram
import Xpedite.Transport.FramerStream

/-!
A conversation keeps its order: each command is executed once and its response is read by one
call.  A call that gives up leaves its response to the next.
-/

namespace Xpedite.Transport

open Lib

theorem utf8_eq_map {text : List Char} (ascii : IsAscii text) :
    utf8 text = text.map fun char => UInt8.ofNat char.toNat := by
  induction text with
  | nil => simp [utf8]
  | cons char text ih =>
      have single := Char.utf8Size_eq_one_iff.mpr (ascii char List.mem_cons_self)
      have rest := ih fun other member => ascii other (List.mem_cons_of_mem char member)
      simp only [utf8, List.map_cons] at rest ⊢
      rw [List.flatMap_cons, rest, String.utf8EncodeChar_eq_singleton single]
      rfl

/-- A message that is sent whole is what the framer takes it for. -/
theorem send_eq_encode {msg : List Char} (ascii : IsAscii msg) (short : msg.length < 10 ^ 8)
    {accepted : Nat} (whole : msg.length + 8 ≤ accepted) :
    Datagram.send accepted msg = encode (utf8 msg) := by
  have digits := Datagram.isAscii_of_isDigit (Datagram.lengthDigits_isDigit msg.length)
  have same := (length_utf8_eq_iff msg).mpr ascii
  have bytes := Datagram.length_encode short
  rw [Datagram.send, List.take_of_length_le (by omega), Datagram.encode, utf8_append, encode, header,
    same, utf8_eq_map digits]
  rfl

end Xpedite.Transport

namespace Xpedite.Session

open Framework Lib
open Transport (Receives Short bufferCapacity)
open Transport.Datagram (ReturnCode ReadsBack responseText encodeResponse)

def adminResult : Response → AdminResult
  | .value text => .result text.toList
  | .errors text => .failed text.toList

def responseCode : Response → ReturnCode
  | .value _ => .success
  | .errors _ => .failure

def payload : Response → List Char
  | .value text => text.toList
  | .errors text => text.toList

/-- The response has one byte for each character, and a length that its header has room for. -/
def Plain (response : Response) : Prop :=
  IsAscii (payload response) ∧ (utf8 (payload response)).length + 5 < 10 ^ 8

theorem encode_eq (response : Response) :
    encode response = encodeResponse (responseCode response) (payload response) := by
  cases response <;> rfl

theorem decodeResponse_responseText (response : Response) :
    decodeResponse (responseText (responseCode response) (payload response)) =
      adminResult response := by
  cases response with
  | value text =>
      have five : responseText .success text.toList =
          'r' :: 'c' :: '=' :: '0' :: '|' :: text.toList := rfl
      simp [responseCode, payload, five, decodeResponse, adminResult]
  | errors text =>
      have five : responseText .failure text.toList =
          'r' :: 'c' :: '=' :: '1' :: '|' :: text.toList := rfl
      simp [responseCode, payload, five, decodeResponse, adminResult]

theorem adminResult_ne_timedOut (response : Response) : adminResult response ≠ .timedOut := by
  cases response <;> simp [adminResult]

theorem encode_ne_nil (response : Response) : encode response ≠ [] := by
  intro none_
  have text := congrArg List.length none_
  have positive := length_le_utf8 (responseText (responseCode response) (payload response))
  rw [Transport.Datagram.length_responseText] at positive
  rw [encode_eq, encodeResponse, List.length_append, List.length_nil] at text
  omega

/-- The frames executed one after the other, with these responses. -/
def Replays : State → List (List UInt8 × Response) → State → Prop
  | handler, [], final => handler = final
  | handler, (frame, response) :: rest, final =>
      ∃ environment next, executeFrame environment handler frame = .returns next response ∧
        Replays next rest final

theorem Replays.snoc {handler middle final : State} {executed : List (List UInt8 × Response)}
    {frame : List UInt8} {response : Response} {environment : Environment}
    (replays : Replays handler executed middle)
    (returns : executeFrame environment middle frame = .returns final response) :
    Replays handler (executed ++ [(frame, response)]) final := by
  induction executed generalizing handler with
  | nil =>
      obtain rfl : handler = middle := replays
      exact ⟨environment, final, returns, rfl⟩
  | cons entry executed ih =>
      obtain ⟨earlier, next, executes, rest⟩ := replays
      exact ⟨earlier, next, executes, ih rest⟩

def Fits (cmd : List Char) : Prop := IsAscii cmd ∧ 0 < cmd.length ∧ cmd.length ≤ bufferCapacity

/--
Of the responses some have been returned and the others are still to be read; a command that was
sent is due until it is executed.
-/
structure InOrder (commands : List (List Char)) (handler : State) (conversation : Conversation)
    (returned pending : List (List UInt8 × Response)) (due : List (List UInt8)) : Prop where
  executed : conversation.executed = returned ++ pending
  sent : commands.map utf8 =
    conversation.executed.map Prod.fst ++ (due ++ conversation.commands.map utf8)
  results : conversation.results.filter (· ≠ .timedOut) = returned.map fun entry =>
    adminResult entry.2
  toClient : conversation.toClient = pending.flatMap fun entry => encode entry.2
  receives : Receives conversation.framer conversation.toTarget due
    (conversation.commands.map utf8)
  replays : Replays handler conversation.executed conversation.handler
  -- each call that gave up left one of these behind, and so does one that waits
  outstanding : due.length + pending.length =
    conversation.results.count .timedOut + conversation.waiting.toNat

variable {commands : List (List Char)} {handler : State} {conversation next : Conversation}
variable {returned pending : List (List UInt8 × Response)} {due : List (List UInt8)}

theorem InOrder.mem_commands (inOrder : InOrder commands handler conversation returned pending due)
    {message : List UInt8} (member : message ∈ due ++ conversation.commands.map utf8) :
    ∃ cmd ∈ commands, utf8 cmd = message := by
  have sent : message ∈ commands.map utf8 := by
    rw [inOrder.sent]
    exact List.mem_append_right _ member
  simpa using sent

theorem InOrder.short (fits : ∀ cmd ∈ commands, Fits cmd)
    (inOrder : InOrder commands handler conversation returned pending due) :
    Short (due ++ conversation.commands.map utf8) := by
  intro message member
  obtain ⟨cmd, inside, rfl⟩ := inOrder.mem_commands member
  obtain ⟨ascii, -, most⟩ := fits cmd inside
  rw [(length_utf8_eq_iff cmd).mpr ascii]
  exact Nat.lt_of_le_of_lt most (by decide)

theorem InOrder.send (fits : ∀ cmd ∈ commands, Fits cmd)
    (inOrder : InOrder commands handler conversation returned pending due) {accepted : Nat}
    (whole : ∀ cmd ∈ conversation.commands.head?, cmd.length + 8 ≤ accepted)
    (taken : conversation.send accepted = some next) :
    ∃ message, InOrder commands handler next returned pending (due ++ [message]) := by
  rw [Conversation.send] at taken
  cases left : conversation.commands with
  | nil => simp [left] at taken
  | cons cmd rest =>
      simp only [left] at taken
      split at taken
      · cases taken
      · rename_i idle
        obtain rfl := Option.some_inj.mp taken
        have sent := inOrder.sent
        have receives := inOrder.receives
        have outstanding := inOrder.outstanding
        rw [left, List.map_cons] at sent receives
        obtain ⟨cmd', inside, same⟩ := @InOrder.mem_commands _ _ _ _ _ _ inOrder (utf8 cmd) (by simp [left])
        obtain ⟨ascii, -, most⟩ : Fits cmd := by
          have decoded := congrArg decodeUtf8 same
          rw [decodeUtf8_utf8, decodeUtf8_utf8, Option.some_inj] at decoded
          exact decoded ▸ fits cmd' inside
        have frame := Transport.send_eq_encode ascii (Nat.lt_of_le_of_lt most (by decide))
          (whole cmd (by simp [left]))
        refine ⟨utf8 cmd, inOrder.executed, by simpa using sent, inOrder.results, inOrder.toClient,
          ?_, inOrder.replays, ?_⟩
        · rw [frame]
          exact receives.write
        · simp only [Bool.not_eq_true] at idle
          simp only [idle, Bool.toNat_false, Bool.toNat_true, List.length_append,
            List.length_singleton] at outstanding ⊢
          omega

theorem InOrder.poll (fits : ∀ cmd ∈ commands, Fits cmd)
    (inOrder : InOrder commands handler conversation returned pending due) {count : Nat}
    {environment : Environment} (taken : conversation.poll count environment = some next) :
    InOrder commands handler next returned pending due ∨
      ∃ entry rest, due = entry.1 :: rest ∧
        InOrder commands handler next returned (pending ++ [entry]) rest := by
  rw [Conversation.poll] at taken
  rcases read : conversation.framer.readFrame ⟨conversation.toTarget, .ready count⟩ with
    ⟨result, framer, socket⟩
  rcases inOrder.receives.readFrame (inOrder.short fits) read with
    ⟨rfl, receives⟩ | ⟨message, rest, rfl, rfl, receives⟩
  · simp only [read] at taken
    obtain rfl := Option.some_inj.mp taken
    exact .inl { inOrder with receives := receives }
  · obtain ⟨cmd, inside, same⟩ := @InOrder.mem_commands _ _ _ _ _ _ inOrder message (by simp)
    have full : message ≠ [] := by
      have positive := (fits cmd inside).2.1
      have fewer := length_le_utf8 cmd
      rw [same] at fewer
      exact List.ne_nil_of_length_pos (by omega)
    simp only [read, if_neg full] at taken
    split at taken
    · rename_i handler' response returns
      obtain rfl := Option.some_inj.mp taken
      refine .inr ⟨(message, response), rest, rfl, ?_, ?_, inOrder.results, ?_, receives,
        inOrder.replays.snoc returns, ?_⟩
      · simp [inOrder.executed]
      · simp [inOrder.sent]
      · simp [inOrder.toClient]
      · have outstanding := inOrder.outstanding
        simp only [List.length_append, List.length_cons, List.length_nil] at outstanding ⊢
        omega
    · cases taken

theorem InOrder.receive (inOrder : InOrder commands handler conversation returned pending due)
    (plain : ∀ entry ∈ conversation.executed, Plain entry.2) {chunks : List Nat}
    (taken : conversation.receive chunks = some next) :
    ∃ entry rest, pending = entry :: rest ∧
      InOrder commands handler next (returned ++ [entry]) rest due := by
  rw [Conversation.receive] at taken
  split at taken
  · rename_i waits
    cases pending with
    | nil => exact absurd inOrder.toClient waits.2
    | cons entry rest =>
        have inside : Plain entry.2 := plain entry (by simp [inOrder.executed])
        obtain ⟨left, reads⟩ := (Transport.Datagram.readsBack_iff (responseCode entry.2)
          (payload entry.2) (rest.flatMap fun entry => encode entry.2) chunks).mpr inside
        have toClient := inOrder.toClient
        rw [List.flatMap_cons, encode_eq] at toClient
        rw [toClient, reads] at taken
        obtain rfl := Option.some_inj.mp taken
        refine ⟨entry, rest, rfl, ?_, inOrder.sent, ?_, rfl, inOrder.receives, inOrder.replays, ?_⟩
        · simp [inOrder.executed]
        · have results := inOrder.results
          simp only [List.filter_append, results, decodeResponse_responseText, List.map_append]
          simp [adminResult_ne_timedOut]
        · have outstanding := inOrder.outstanding
          rw [waits.1] at outstanding
          simp only [List.length_cons, Bool.toNat_true, Bool.toNat_false, List.count_append,
            decodeResponse_responseText] at outstanding ⊢
          simp only [List.count_singleton, beq_iff_eq, adminResult_ne_timedOut, if_false]
          omega
  · cases taken

theorem InOrder.timeout (inOrder : InOrder commands handler conversation returned pending due)
    (taken : conversation.timeout = some next) :
    InOrder commands handler next returned pending due := by
  rw [Conversation.timeout] at taken
  split at taken
  · rename_i waits
    obtain rfl := Option.some_inj.mp taken
    have outstanding := inOrder.outstanding
    refine { inOrder with results := ?_, outstanding := ?_ }
    · simpa [List.filter_append] using inOrder.results
    · rw [waits.1] at outstanding
      simpa [List.count_append] using outstanding
  · cases taken

def AcceptsWhole (conversation : Conversation) : AdminAction → Prop
  | .send accepted => ∀ cmd ∈ conversation.commands.head?, cmd.length + 8 ≤ accepted
  | _ => True

theorem step_executed {action : AdminAction} (taken : conversation.step action = some next) :
    conversation.executed <+: next.executed := by
  cases action with
  | send accepted =>
      simp only [Conversation.step, Conversation.send] at taken
      split at taken
      · split at taken
        · cases taken
        · obtain rfl := Option.some_inj.mp taken
          exact List.prefix_rfl
      · cases taken
  | poll count environment =>
      simp only [Conversation.step, Conversation.poll] at taken
      split at taken
      · cases taken
      · obtain rfl := Option.some_inj.mp taken
        exact List.prefix_rfl
      · split at taken
        · obtain rfl := Option.some_inj.mp taken
          exact List.prefix_rfl
        · split at taken
          · obtain rfl := Option.some_inj.mp taken
            exact List.prefix_append _ _
          · cases taken
  | receive chunks =>
      simp only [Conversation.step, Conversation.receive] at taken
      split at taken
      · split at taken <;> obtain rfl := Option.some_inj.mp taken <;> exact List.prefix_rfl
      · cases taken
  | timeout =>
      simp only [Conversation.step, Conversation.timeout] at taken
      split at taken
      · obtain rfl := Option.some_inj.mp taken
        exact List.prefix_rfl
      · cases taken

theorem step_inOrder (fits : ∀ cmd ∈ commands, Fits cmd) {action : AdminAction}
    (whole : AcceptsWhole conversation action) (taken : conversation.step action = some next)
    (plain : ∀ entry ∈ conversation.executed, Plain entry.2)
    (inOrder : InOrder commands handler conversation returned pending due) :
    ∃ returned pending due, InOrder commands handler next returned pending due := by
  cases action with
  | send accepted =>
      obtain ⟨message, sent⟩ := inOrder.send fits whole taken
      exact ⟨_, _, _, sent⟩
  | poll count environment =>
      rcases inOrder.poll fits taken with same | ⟨entry, rest, -, answered⟩
      · exact ⟨_, _, _, same⟩
      · exact ⟨_, _, _, answered⟩
  | receive chunks =>
      obtain ⟨entry, rest, -, ended⟩ := inOrder.receive plain taken
      exact ⟨_, _, _, ended⟩
  | timeout => exact ⟨_, _, _, inOrder.timeout taken⟩

theorem inOrder_start (fits : ∀ cmd ∈ commands, Fits cmd) (handler : State) :
    InOrder commands handler (Conversation.start commands handler) [] [] [] where
  executed := rfl
  sent := rfl
  results := rfl
  toClient := rfl
  receives := by
    refine Transport.receives_new (Transport.aligned_of_fits ?_ [])
    intro message member
    obtain ⟨cmd, inside, rfl⟩ := List.mem_map.mp member
    obtain ⟨ascii, -, most⟩ := fits cmd inside
    rw [(length_utf8_eq_iff cmd).mpr ascii]
    exact most
  replays := rfl
  outstanding := rfl

theorem run_inOrder (fits : ∀ cmd ∈ commands, Fits cmd) {actions : List AdminAction}
    (whole : Along Conversation.step AcceptsWhole (Conversation.start commands handler) actions)
    (reached : run Conversation.step (Conversation.start commands handler) actions =
      some conversation)
    (plain : ∀ entry ∈ conversation.executed, Plain entry.2) :
    ∃ returned pending due, InOrder commands handler conversation returned pending due := by
  refine @run_invariant _ _ Conversation.step AcceptsWhole
    (fun conversation => (∀ entry ∈ conversation.executed, Plain entry.2) →
      ∃ returned pending due, InOrder commands handler conversation returned pending due)
    ?_ actions _ conversation (fun _ => ⟨_, _, _, inOrder_start fits handler⟩) whole reached plain
  intro conversation action next accepts taken ordered plain
  have earlier : ∀ entry ∈ conversation.executed, Plain entry.2 :=
    fun entry member => plain entry ((step_executed taken).subset member)
  obtain ⟨returned, pending, due, inOrder⟩ := ordered earlier
  exact step_inOrder fits accepts taken earlier inOrder

theorem getElem?_filter {results : List AdminResult} {call : Nat} {result : AdminResult}
    (ended : results[call]? = some result) (answered : result ≠ .timedOut) :
    (results.filter (· ≠ .timedOut))[call - (results.take call).count .timedOut]? =
      some result := by
  obtain ⟨within, same⟩ := List.getElem?_eq_some_iff.mp ended
  have split := List.take_append_drop call results
  rw [List.drop_eq_getElem_cons within, same] at split
  have length : (results.take call).length = call := List.length_take_of_le (by omega)
  have place : call - (results.take call).count .timedOut =
      ((results.take call).filter (· ≠ .timedOut)).length := by
    have counted := @List.length_eq_countP_add_countP _ (· == AdminResult.timedOut)
      (results.take call)
    have others : (results.take call).countP (fun result => ¬(result == .timedOut) = true) =
        (results.take call).countP (· ≠ .timedOut) := by simp
    rw [← List.countP_eq_length_filter, ← others, List.count_eq_countP]
    omega
  have filtered := congrArg (List.filter (· ≠ .timedOut)) split
  rw [List.filter_append, List.filter_cons_of_pos (by simpa using answered)] at filtered
  rw [← filtered, place, List.getElem?_append_right (Nat.le_refl _)]
  simp

/--
The target executes the commands in their order, each once, and a call that ends with a response
has the one to its own command unless calls before it gave up: it is as many behind as those were.
-/
theorem calls_in_order (fits : ∀ cmd ∈ commands, Fits cmd) {actions : List AdminAction}
    (whole : Along Conversation.step AcceptsWhole (Conversation.start commands handler) actions)
    (reached : run Conversation.step (Conversation.start commands handler) actions =
      some conversation)
    (plain : ∀ entry ∈ conversation.executed, Plain entry.2) :
    Replays handler conversation.executed conversation.handler ∧
      conversation.executed.map Prod.fst <+: commands.map utf8 ∧
      ∀ call result, conversation.results[call]? = some result → result ≠ .timedOut →
        ∃ cmd response, commands[call - (conversation.results.take call).count .timedOut]? =
            some cmd ∧
          conversation.executed[call - (conversation.results.take call).count .timedOut]? =
            some (utf8 cmd, response) ∧
          result = adminResult response := by
  obtain ⟨returned, pending, due, inOrder⟩ := run_inOrder fits whole reached plain
  refine ⟨inOrder.replays, ⟨_, inOrder.sent.symm⟩, ?_⟩
  intro call result ended answered
  have read := getElem?_filter ended answered
  rw [inOrder.results, List.getElem?_map, Option.map_eq_some_iff] at read
  generalize call - (conversation.results.take call).count .timedOut = place at read ⊢
  obtain ⟨⟨frame, response⟩, at_, rfl⟩ := read
  have executed : conversation.executed[place]? = some (frame, response) := by
    rw [inOrder.executed, List.getElem?_append_left (List.getElem?_eq_some_iff.mp at_).1, at_]
  have sent : (commands.map utf8)[place]? = some frame := by
    have within := (List.getElem?_eq_some_iff.mp executed).1
    rw [inOrder.sent, List.getElem?_append_left (by simpa using within), List.getElem?_map,
      executed]
    rfl
  rw [List.getElem?_map, Option.map_eq_some_iff] at sent
  obtain ⟨cmd, command, rfl⟩ := sent
  exact ⟨cmd, response, command, executed, rfl⟩

def ping : List Char := "Ping".toList

/-- Two calls of which the second reads the response that the first did not wait for. -/
def impatient : List AdminAction :=
  [.send 12, .timeout, .send 12] ++ [.poll 24 willing, .receive [2]]

theorem run_impatient : ∃ framer,
    run Conversation.step (Conversation.start [ping, ping] (State.new [])) impatient =
      some ⟨[], false, [.timedOut, .result "hello".toList], [], [], framer, State.new [],
        [(utf8 ping, .value "hello")]⟩ := by
  let frames := Transport.Datagram.send 12 ping ++ Transport.Datagram.send 12 ping
  have frame : (Transport.Framer.new.readFrame ⟨frames, .ready 24⟩).1 = .frame (utf8 ping) := by
    decide +kernel
  have unread : (Transport.Framer.new.readFrame ⟨frames, .ready 24⟩).2.2.unread = [] := by
    decide +kernel
  let hello : Response := .value "hello"
  have plain : Plain hello := ⟨by simp [IsAscii, payload, hello], by decide⟩
  obtain ⟨left, response⟩ :=
    (Transport.Datagram.readsBack_iff (responseCode hello) (payload hello) [] [2]).mpr plain
  rw [List.append_nil, ← encode_eq] at response
  have executes : executeFrame willing (State.new []) (utf8 ping) =
      .returns (State.new []) hello := by rfl
  have sent : run Conversation.step (Conversation.start [ping, ping] (State.new []))
      [.send 12, .timeout, .send 12] = some ⟨[], true, [.timedOut], frames, [],
        Transport.Framer.new, State.new [], []⟩ := by rfl
  rcases read : Transport.Framer.new.readFrame ⟨frames, .ready 24⟩ with ⟨result, framer, socket⟩
  rw [read] at frame unread
  dsimp only at frame unread
  subst frame
  refine ⟨framer, ?_⟩
  rw [impatient, run_append, sent, Option.bind_some]
  have full : utf8 ping ≠ [] := by decide
  have filled := encode_ne_nil hello
  simp only [run, Conversation.step, Conversation.poll, Conversation.receive, read, unread,
    executes, full, if_false, List.nil_append, Option.bind_some]
  rw [if_pos ⟨trivial, filled⟩, response]
  simp only [decodeResponse_responseText]
  rfl

theorem calls_in_order_impatient : ∃ conversation,
    run Conversation.step (Conversation.start [ping, ping] (State.new [])) impatient =
        some conversation ∧
      conversation.results = [.timedOut, .result "hello".toList] ∧
      Replays (State.new []) conversation.executed conversation.handler ∧
      conversation.executed.map Prod.fst <+: [ping, ping].map utf8 ∧
      ∀ call result, conversation.results[call]? = some result → result ≠ .timedOut →
        ∃ cmd response, [ping, ping][call - (conversation.results.take call).count .timedOut]? =
            some cmd ∧
          conversation.executed[call - (conversation.results.take call).count .timedOut]? =
            some (utf8 cmd, response) ∧
          result = adminResult response := by
  obtain ⟨framer, reached⟩ := run_impatient
  have fits : ∀ cmd ∈ [ping, ping], Fits cmd := by
    intro cmd member
    obtain rfl : cmd = ping := by simpa using member
    exact ⟨by simp [IsAscii, ping], by decide, by decide⟩
  have whole : Along Conversation.step AcceptsWhole (Conversation.start [ping, ping] (State.new []))
      impatient := by
    have enough : ∀ cmd ∈ some ping, cmd.length + 8 ≤ 12 := by
      rintro cmd ⟨⟩
      decide
    refine ⟨enough, fun next taken => ?_⟩
    obtain rfl := Option.some_inj.mp taken
    refine ⟨trivial, fun next taken => ?_⟩
    obtain rfl := Option.some_inj.mp taken
    exact ⟨enough, fun _ _ => ⟨trivial, fun _ _ => ⟨trivial, fun _ _ => trivial⟩⟩⟩
  refine ⟨_, reached, rfl, calls_in_order fits whole reached ?_⟩
  intro entry member
  obtain rfl : entry = (utf8 ping, .value "hello") := by simpa using member
  exact ⟨by simp [IsAscii, payload], by decide⟩

end Xpedite.Session
