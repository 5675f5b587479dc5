import Xpedite.Framework.Parser
import Xpedite.Session.Local
import Xpedite.Session.ManagerCore

/-!
There is one session at a time.  The session type, the flag of the local session and the client
of the remote one agree between the polls; a local session never ends.
-/

namespace Xpedite.Session

open Framework Lib

structure Exclusive (manager : SessionManager) : Prop where
  ofLocal : manager.sessionType = .local ↔ manager.localAlive = true
  ofRemote : manager.sessionType = .remote ↔ manager.client.isSome = true
  enabled : manager.client.isSome = true → manager.remote = true

namespace Exclusive

variable {manager : SessionManager}

theorem apart (exclusive : Exclusive manager) :
    ¬(manager.localAlive = true ∧ manager.client.isSome = true) := by
  rintro ⟨alive, connected⟩
  have owner := exclusive.ofLocal.mpr alive
  rw [exclusive.ofRemote.mpr connected] at owner
  cases owner

theorem canAccept_local (exclusive : Exclusive manager) :
    manager.canAccept .local = !manager.client.isSome := by
  rw [Bool.eq_iff_iff, Bool.not_eq_true', Bool.eq_false_iff, ne_eq, ← exclusive.ofRemote,
    SessionManager.canAccept]
  cases manager.sessionType with
  | dormant => decide
  | remote => decide
  | «local» => decide

theorem canAccept_remote (exclusive : Exclusive manager) :
    manager.canAccept .remote = !manager.localAlive := by
  rw [Bool.eq_iff_iff, Bool.not_eq_true', Bool.eq_false_iff, ne_eq, ← exclusive.ofLocal,
    SessionManager.canAccept]
  cases manager.sessionType with
  | dormant => decide
  | remote => decide
  | «local» => decide

theorem withRequest (exclusive : Exclusive manager) (request : Option Request) :
    Exclusive { manager with request := request } :=
  ⟨exclusive.ofLocal, exclusive.ofRemote, exclusive.enabled⟩

theorem settle_local (exclusive : Exclusive manager) :
    manager.settle .local manager.localAlive = .returns manager [] := by
  rw [SessionManager.settle]
  by_cases alive : manager.localAlive = true
  · have own := exclusive.ofLocal.mpr alive
    rw [if_pos alive, SessionManager.canAccept, own]
    simp only [decide_true, Bool.or_true, if_true, ← own]
  · rw [if_neg alive, if_neg (mt exclusive.ofLocal.mp alive)]

end Exclusive

section Slot

variable {Thread Address : Type} [DecidableEq Thread] [DecidableEq Address]

/-- The local session between two polls, with what its threads have put in the slot. -/
structure Shows (session : LocalSession Thread Address) (manager : SessionManager) : Prop where
  handler : session.handler = manager.handler
  alive : session.isAlive = manager.localAlive
  poller : session.poller = .idle
  request : session.request.map (fun address => (session.memory address).request) = manager.request

/-- The manager polls the local session by its steps. -/
theorem pollLocal_refined {session : LocalSession Thread Address} {manager next : SessionManager}
    {environment : Environment} {canAcceptRequest : Bool} {journal : List Entry} (timeout : Nat)
    (shows_ : Shows session manager)
    (polled : manager.pollLocal environment canAcceptRequest = .returns next journal) :
    ∃ actions final, run (LocalSession.step timeout) session actions = some final ∧
      Shows final next := by
  obtain ⟨handler, alive, poller, request⟩ := shows_
  rw [SessionManager.pollLocal] at polled
  cases stored : session.request with
  | none =>
      rw [← request, stored] at polled
      cases polled
      exact ⟨[], session, rfl, handler, alive, poller, request⟩
  | some address =>
      have loaded : session.load = some { session with poller := .loaded address } := by
        simp only [LocalSession.load, poller, stored]
      rw [← request, stored, ← handler] at polled
      refine ⟨[.load, .handle environment canAcceptRequest, .clear], ?_⟩
      simp only [run, LocalSession.step, loaded, Option.bind_some, LocalSession.handle]
      cases canAcceptRequest with
      | true =>
          simp only [Option.map_some, if_true] at polled ⊢
          cases executed : Framework.execute environment session.handler
              (session.memory address).request with
          | returns handler response =>
              rw [executed] at polled
              cases polled
              exact ⟨_, rfl, rfl, rfl, rfl, rfl⟩
          | throws handler =>
              rw [executed] at polled
              cases polled
          | terminates =>
              rw [executed] at polled
              cases polled
      | false =>
          cases polled
          exact ⟨_, rfl, rfl, alive, rfl, rfl⟩

end Slot

section Turns

variable {manager : SessionManager}

theorem localTurn_eq (exclusive : Exclusive manager) (inputs : PollInputs) :
    manager.localTurn inputs =
      match manager.request with
      | none => .returns manager []
      | some request =>
          if manager.client.isSome then
            .returns { manager with request := none } [.abortedLocal request activeSession]
          else
            match Framework.execute inputs.executing manager.handler request with
            | .returns handler response =>
                .returns { manager with
                  handler := handler
                  request := none
                  localAlive := true
                  sessionType := .local } [.executedLocal request (some response)]
            | .throws _ => .throws [.executedLocal request none]
            | .terminates => .terminates [.executedLocal request none] := by
  rw [SessionManager.localTurn, exclusive.canAccept_local, SessionManager.pollLocal]
  cases manager.request with
  | none =>
      simp only [PollOutcome.andThen, exclusive.settle_local]
      rfl
  | some request =>
      by_cases connected : manager.client.isSome = true
      · have settled := (exclusive.withRequest none).settle_local
        simp only [connected, Bool.not_true, Bool.false_eq_true, if_false, if_true,
          PollOutcome.andThen]
        rw [settled]
        rfl
      · simp only [connected, Bool.not_false, Bool.false_eq_true, if_true, if_false]
        cases Framework.execute inputs.executing manager.handler request with
        | returns handler response =>
            have free : manager.canAccept .local = true := by
              rw [exclusive.canAccept_local, Bool.eq_false_iff.mpr connected]
              rfl
            simp only [PollOutcome.andThen, SessionManager.settle, if_true]
            rw [if_pos (by exact free)]
            rfl
        | throws handler => rfl
        | terminates => rfl

theorem journal_after (earlier : List Entry) (outcome : PollOutcome) :
    (outcome.after earlier).journal = earlier ++ outcome.journal := by
  cases outcome with
  | returns manager journal => rfl
  | assertionFailed journal => rfl
  | throws journal => rfl
  | terminates journal => rfl

theorem after_eq_returns {earlier journal : List Entry} {outcome : PollOutcome}
    {next : SessionManager} (returned : outcome.after earlier = .returns next journal) :
    ∃ rest, outcome = .returns next rest ∧ journal = earlier ++ rest := by
  cases outcome with
  | returns manager rest =>
      cases returned
      exact ⟨rest, rfl, rfl⟩
  | assertionFailed rest => cases returned
  | throws rest => cases returned
  | terminates rest => cases returned

theorem after_ne_assertionFailed {earlier : List Entry} {outcome : PollOutcome}
    (asserted : ∀ journal, outcome ≠ .assertionFailed journal) (journal : List Entry) :
    outcome.after earlier ≠ .assertionFailed journal := by
  cases outcome with
  | returns manager rest => exact nofun
  | assertionFailed rest => exact absurd rfl (asserted rest)
  | throws rest => exact nofun
  | terminates rest => exact nofun

def Entry.Concerns (socket : Nat) : Entry → Prop
  | .executedRemote other _ => other = socket
  | .replied other _ => other = socket
  | .closed other => other = socket
  | _ => False

/-- Only the handler changes while a client is polled, and the client may go. -/
structure ClientTurn (manager : SessionManager) (socket : Nat) (outcome : PollOutcome) :
    Prop where
  asserted : ∀ journal, outcome ≠ .assertionFailed journal
  entries : ∀ entry ∈ outcome.journal, entry.Concerns socket
  kept : ∀ next journal, outcome = .returns next journal → ∃ handler client,
    next = { manager with handler := handler, client := client } ∧
      (client = manager.client ∨ client = none)

theorem ClientTurn.after {socket : Nat} {outcome : PollOutcome} {earlier : List Entry}
    (turn : ClientTurn manager socket outcome) (own : ∀ entry ∈ earlier, entry.Concerns socket) :
    ClientTurn manager socket (outcome.after earlier) := by
  refine ⟨after_ne_assertionFailed turn.asserted, ?_, ?_⟩
  · rw [journal_after]
    intro entry listed
    exact (List.mem_append.mp listed).elim (own entry) (turn.entries entry)
  · intro next journal returned
    obtain ⟨rest, done, -⟩ := after_eq_returns returned
    exact turn.kept next rest done

theorem ClientTurn.withHandler {socket : Nat} {outcome : PollOutcome} {handler : State}
    (turn : ClientTurn { manager with handler := handler } socket outcome) :
    ClientTurn manager socket outcome := by
  refine ⟨turn.asserted, turn.entries, ?_⟩
  intro next journal returned
  obtain ⟨handler, client, rfl, kept⟩ := turn.kept next journal returned
  exact ⟨handler, client, rfl, kept⟩

theorem clientTurn_terminates (manager : SessionManager) (socket : Nat) {journal : List Entry}
    (own : ∀ entry ∈ journal, entry.Concerns socket) :
    ClientTurn manager socket (.terminates journal) := by
  refine ⟨?_, own, ?_⟩
  · intro journal failed
    cases failed
  · intro next journal returned
    cases returned

theorem clientTurn_closed (manager : SessionManager) (socket : Nat) (handler : State) :
    ClientTurn manager socket
      (.returns { manager with handler := handler, client := none } [.closed socket]) := by
  refine ⟨nofun, ?_, ?_⟩
  · intro entry listed
    obtain rfl := List.mem_singleton.mp listed
    rfl
  · intro next journal returned
    cases returned
    exact ⟨handler, none, rfl, .inr rfl⟩

theorem clientTurn_dropClient (environment : Environment) (socket : Nat)
    (manager : SessionManager) : ClientTurn manager socket (manager.dropClient environment socket) := by
  rw [SessionManager.dropClient]
  cases Framework.resetClient environment manager.handler with
  | returns handler done => exact clientTurn_closed manager socket handler
  | throws handler => exact clientTurn_terminates manager socket (by simp)
  | terminates => exact clientTurn_terminates manager socket (by simp)

theorem clientTurn_resetClient (closing retrying : Environment) (socket : Nat)
    (manager : SessionManager) :
    ClientTurn manager socket (manager.resetClient closing retrying socket) := by
  rw [SessionManager.resetClient]
  cases Framework.resetClient closing manager.handler with
  | returns handler done => exact clientTurn_closed manager socket handler
  | throws handler => exact (clientTurn_dropClient retrying socket _).withHandler
  | terminates => exact clientTurn_terminates manager socket (by simp)

theorem concerns_executed (socket : Nat) (data : List UInt8) :
    ∀ entry ∈ [Entry.executedRemote socket data], entry.Concerns socket := by
  intro entry listed
  obtain rfl := List.mem_singleton.mp listed
  rfl

theorem concerns_replied (socket : Nat) (data pdu : List UInt8) :
    ∀ entry ∈ [Entry.executedRemote socket data, .replied socket pdu], entry.Concerns socket := by
  intro entry listed
  rcases List.mem_cons.mp listed with rfl | last
  · rfl
  · obtain rfl := List.mem_singleton.mp last
    rfl

theorem clientTurn_pollClient (closing retrying : Environment) (socket : Nat) (reads : List Read)
    (manager : SessionManager) :
    ClientTurn manager socket (manager.pollClient closing retrying socket reads) := by
  induction reads generalizing manager with
  | nil =>
      refine ⟨nofun, nofun, ?_⟩
      intro next journal returned
      cases returned
      exact ⟨_, _, rfl, .inl rfl⟩
  | cons read rest ih =>
      cases read with
      | disconnected => exact clientTurn_dropClient closing socket manager
      | frame data environment written =>
          rw [SessionManager.pollClient]
          cases executeFrame environment manager.handler data with
          | terminates => exact clientTurn_terminates manager socket (concerns_executed socket data)
          | throws handler =>
              exact (clientTurn_dropClient closing socket _).withHandler.after
                (concerns_executed socket data)
          | returns handler response =>
              cases written with
              | true => exact (ih _).withHandler.after (concerns_replied socket data _)
              | false =>
                  exact (clientTurn_resetClient closing retrying socket _).withHandler.after
                    (concerns_executed socket data)

/-- What the remote session has its turn with, while no local session is alive. -/
structure RemoteTurn (manager : SessionManager) (inputs : PollInputs) (outcome : PollOutcome) :
    Prop where
  asserted : ∀ journal, outcome ≠ .assertionFailed journal
  settled : ∀ next journal, outcome = .returns next journal →
    Exclusive next ∧ next.localAlive = manager.localAlive
  noLocal : ∀ request response, .executedLocal request response ∉ outcome.journal
  owned : ∀ socket data, .executedRemote socket data ∈ outcome.journal →
    manager.localAlive = false ∧ (manager.client = some socket ∨
      manager.client = none ∧ .accepted socket ∈ outcome.journal)
  refused : ∀ socket, inputs.incoming = .socket socket →
    manager.client.isSome = true ∨ manager.localAlive = true →
      .accepted socket ∉ outcome.journal ∧ ∀ next journal, outcome = .returns next journal →
        manager.remote = true → .rejected socket refusal ∈ journal ∧ .closed socket ∈ journal

theorem Exclusive.settle_remote_false (exclusive : Exclusive manager)
    (none_ : manager.client.isSome = false) :
    manager.settle .remote false = .returns manager [] := by
  have other : manager.sessionType ≠ .remote := by
    rw [ne_eq, exclusive.ofRemote, none_]
    exact Bool.false_ne_true
  rw [SessionManager.settle, if_neg Bool.false_ne_true, if_neg other]

theorem settle_remote (manager : SessionManager) (notLocal : manager.sessionType ≠ .local) :
    manager.settle .remote manager.client.isSome = .returns { manager with
      sessionType := if manager.client.isSome then .remote else .dormant } [] := by
  rw [SessionManager.settle]
  by_cases connected : manager.client.isSome = true
  · have free : manager.canAccept .remote = true := by
      rw [SessionManager.canAccept]
      cases type : manager.sessionType with
      | dormant => rfl
      | remote => rfl
      | «local» => exact absurd type notLocal
    rw [if_pos connected, if_pos free, if_pos connected]
  · rw [if_neg connected, if_neg connected]
    by_cases own : manager.sessionType = .remote
    · rw [if_pos own]
    · have dormant : manager.sessionType = .dormant := by
        cases type : manager.sessionType with
        | dormant => rfl
        | remote => exact absurd type own
        | «local» => exact absurd type notLocal
      rw [if_neg own, ← dormant]

structure Turned (manager : SessionManager) (socket : Nat) (earlier : List Entry)
    (outcome : PollOutcome) : Prop where
  asserted : ∀ journal, outcome ≠ .assertionFailed journal
  entries : ∃ entries, outcome.journal = earlier ++ entries ∧
    ∀ entry ∈ entries, entry.Concerns socket
  settled : ∀ next journal, outcome = .returns next journal →
    Exclusive next ∧ next.localAlive = manager.localAlive

theorem ClientTurn.settle {socket : Nat} {turn : PollOutcome} (earlier : List Entry)
    (served : ClientTurn manager socket turn) (notLocal : manager.sessionType ≠ .local)
    (idle : manager.localAlive = false) (remote : manager.remote = true) :
    Turned manager socket earlier ((turn.after earlier).andThen fun manager =>
      manager.settle .remote manager.client.isSome) := by
  cases turn with
  | assertionFailed journal => exact absurd rfl (served.asserted journal)
  | throws journal =>
      refine ⟨fun _ failed => ?_, ⟨journal, rfl, served.entries⟩, fun _ _ returned => ?_⟩
      · cases failed
      · cases returned
  | terminates journal =>
      refine ⟨fun _ failed => ?_, ⟨journal, rfl, served.entries⟩, fun _ _ returned => ?_⟩
      · cases failed
      · cases returned
  | returns next journal =>
      obtain ⟨handler, client, same, -⟩ := served.kept next journal rfl
      have other : next.sessionType ≠ .local := by
        rw [same]
        exact notLocal
      simp only [PollOutcome.after, PollOutcome.andThen, settle_remote next other, List.append_nil]
      refine ⟨nofun, ⟨journal, rfl, served.entries⟩, ?_⟩
      intro final whole returned
      cases returned
      refine ⟨⟨?_, ?_, fun _ => ?_⟩, by rw [same]⟩
      · have asleep : next.localAlive = false := by rw [same, idle]
        simp only [asleep, Bool.false_eq_true, iff_false]
        split
        · exact nofun
        · exact nofun
      · dsimp only
        split
        · rename_i connected
          exact iff_of_true rfl connected
        · rename_i gone
          exact iff_of_false nofun gone
      · rw [same]
        exact remote

theorem Turned.remoteTurn {inputs : PollInputs} {socket : Nat} {earlier : List Entry}
    {outcome : PollOutcome} {before : SessionManager} (turned : Turned manager socket earlier outcome)
    (idle : before.localAlive = false) (same : manager.localAlive = before.localAlive)
    (noLocal : ∀ request response, .executedLocal request response ∉ earlier)
    (noRemote : ∀ socket data, .executedRemote socket data ∉ earlier)
    (owner : before.client = some socket ∨ before.client = none ∧ .accepted socket ∈ earlier)
    (refused : ∀ incoming, inputs.incoming = .socket incoming → before.client.isSome = true →
      .accepted incoming ∉ earlier ∧ .rejected incoming refusal ∈ earlier ∧
        .closed incoming ∈ earlier) :
    RemoteTurn before inputs outcome := by
  obtain ⟨entries, whole, own⟩ := turned.entries
  refine ⟨turned.asserted, ?_, ?_, ?_, ?_⟩
  · intro next journal returned
    obtain ⟨exclusive, alive⟩ := turned.settled next journal returned
    exact ⟨exclusive, alive.trans same⟩
  · rw [whole]
    intro request response listed
    exact (List.mem_append.mp listed).elim (noLocal request response) (own _)
  · rw [whole]
    intro other data listed
    rcases List.mem_append.mp listed with first | last
    · exact absurd first (noRemote other data)
    · obtain rfl : other = socket := own _ last
      exact ⟨idle, owner.imp_right fun ⟨none_, listed⟩ =>
        ⟨none_, List.mem_append_left entries listed⟩⟩
  · intro incoming arrives taken
    have connected : before.client.isSome = true := by
      rcases taken with connected | alive
      · exact connected
      · exact absurd alive (by rw [idle]; decide)
    obtain ⟨unaccepted, rejected, closed⟩ := refused incoming arrives connected
    refine ⟨?_, ?_⟩
    · rw [whole]
      exact fun listed => (List.mem_append.mp listed).elim unaccepted (own _)
    · intro next journal returned _
      have same : journal = earlier ++ entries := by
        rw [← whole, returned]
        rfl
      rw [same]
      exact ⟨List.mem_append_left entries rejected, List.mem_append_left entries closed⟩

theorem remoteTurn_throws (inputs : PollInputs) (failure : inputs.incoming = .failure) :
    RemoteTurn manager inputs (.throws []) := by
  refine ⟨?_, ?_, by simp [PollOutcome.journal], by simp [PollOutcome.journal], ?_⟩
  · intro journal failed
    cases failed
  · intro next journal returned
    cases returned
  · intro socket arrives
    rw [failure] at arrives
    cases arrives

theorem remoteTurn_nothing {next : SessionManager} {inputs : PollInputs} (exclusive : Exclusive next)
    (alive : next.localAlive = manager.localAlive)
    (none_ : ∀ socket, inputs.incoming = .socket socket → manager.remote = false) :
    RemoteTurn manager inputs (.returns next []) := by
  refine ⟨?_, ?_, by simp [PollOutcome.journal], by simp [PollOutcome.journal], ?_⟩
  · intro journal failed
    cases failed
  · intro other journal returned
    cases returned
    exact ⟨exclusive, alive⟩
  · intro socket arrives _
    refine ⟨by simp [PollOutcome.journal], ?_⟩
    intro other journal _ enabled
    rw [none_ socket arrives] at enabled
    cases enabled

theorem remoteTurn_disabled (exclusive : Exclusive manager) (inputs : PollInputs)
    (disabled : manager.remote = false) : RemoteTurn manager inputs (manager.remoteTurn inputs) := by
  have none_ : manager.client.isSome = false := by
    refine Bool.eq_false_iff.mpr (mt exclusive.enabled ?_)
    rw [disabled]
    decide
  rw [SessionManager.remoteTurn, disabled, if_neg Bool.false_ne_true,
    exclusive.settle_remote_false none_]
  exact remoteTurn_nothing exclusive rfl fun _ _ => disabled

theorem remoteTurn_localAlive (exclusive : Exclusive manager) (inputs : PollInputs)
    (enabled : manager.remote = true) (alive : manager.localAlive = true) :
    RemoteTurn manager inputs (manager.remoteTurn inputs) := by
  have none_ : manager.client = none := by
    by_contra connected
    exact exclusive.apart ⟨alive, Option.isSome_iff_ne_none.mpr connected⟩
  have settled : manager.settle .remote manager.client.isSome = .returns manager [] := by
    rw [none_]
    exact exclusive.settle_remote_false (by rw [none_]; rfl)
  rw [SessionManager.remoteTurn, enabled, if_pos rfl, exclusive.canAccept_remote, alive,
    SessionManager.pollRemote]
  cases arrives : inputs.incoming with
  | nothing =>
      simp only [SessionManager.accept, PollOutcome.andThen, none_, PollOutcome.after]
      rw [← none_, settled]
      exact remoteTurn_nothing exclusive rfl fun socket same => by cases arrives.symm.trans same
  | failure => exact remoteTurn_throws inputs arrives
  | socket socket =>
      simp only [SessionManager.accept, Bool.not_true, Bool.not_false, Bool.true_or, if_true,
        PollOutcome.andThen, none_, PollOutcome.after, List.append_nil]
      rw [← none_, settled]
      refine ⟨?_, ?_, ?_, ?_, ?_⟩
      · intro journal failed
        cases failed
      · intro next journal returned
        cases returned
        exact ⟨exclusive, rfl⟩
      · simp [PollOutcome.journal]
      · simp [PollOutcome.journal]
      · intro other same _
        rw [arrives] at same
        cases same
        refine ⟨by simp [PollOutcome.journal], ?_⟩
        intro next journal returned _
        cases returned
        simp

theorem remoteTurn_idle (exclusive : Exclusive manager) (inputs : PollInputs)
    (enabled : manager.remote = true) (idle : manager.localAlive = false) :
    RemoteTurn manager inputs (manager.remoteTurn inputs) := by
  have notLocal : manager.sessionType ≠ .local := by
    rw [ne_eq, exclusive.ofLocal, idle]
    decide
  rw [SessionManager.remoteTurn, enabled, if_pos rfl, exclusive.canAccept_remote, idle,
    SessionManager.pollRemote]
  cases connected : manager.client with
  | some client =>
      have served := clientTurn_pollClient inputs.closing inputs.retrying client inputs.reads manager
      cases arrives : inputs.incoming with
      | nothing =>
          simp only [SessionManager.accept, PollOutcome.andThen, connected, Bool.not_false, if_true]
          refine (served.settle [] notLocal idle enabled).remoteTurn idle rfl (by simp) (by simp)
            (.inl connected) ?_
          intro incoming same
          rw [arrives] at same
          cases same
      | failure => exact remoteTurn_throws inputs arrives
      | socket socket =>
          simp only [SessionManager.accept, PollOutcome.andThen, connected, Bool.not_false,
            Option.isSome_some, Bool.or_true, if_true]
          refine (served.settle [.rejected socket refusal, .closed socket] notLocal idle
            enabled).remoteTurn idle rfl (by simp) (by simp) (.inl connected) ?_
          intro incoming same _
          rw [arrives] at same
          cases same
          simp
  | none =>
      cases arrives : inputs.incoming with
      | nothing =>
          simp only [SessionManager.accept, PollOutcome.andThen, connected, PollOutcome.after]
          rw [← connected, settle_remote manager notLocal, connected]
          refine remoteTurn_nothing ⟨?_, ?_, fun _ => enabled⟩ rfl fun socket same => by
            cases arrives.symm.trans same
          · simp [idle]
          · simp
      | failure => exact remoteTurn_throws inputs arrives
      | socket socket =>
          have served := clientTurn_pollClient inputs.closing inputs.retrying socket inputs.reads
            { manager with client := some socket }
          simp only [SessionManager.accept, PollOutcome.andThen, connected, Bool.not_false,
            Bool.not_true, Option.isSome_none, Bool.or_false, Bool.false_eq_true, if_false, if_true]
          refine (served.settle [.accepted socket] notLocal idle enabled).remoteTurn idle rfl
            (by simp) (by simp) (.inr ⟨connected, List.mem_singleton_self _⟩) ?_
          intro incoming _ some_
          rw [connected] at some_
          cases some_

theorem remoteTurn_spec (exclusive : Exclusive manager) (inputs : PollInputs) :
    RemoteTurn manager inputs (manager.remoteTurn inputs) := by
  cases enabled : manager.remote with
  | false => exact remoteTurn_disabled exclusive inputs enabled
  | true =>
      cases alive : manager.localAlive with
      | true => exact remoteTurn_localAlive exclusive inputs enabled alive
      | false => exact remoteTurn_idle exclusive inputs enabled alive

end Turns

section Polls

variable {manager : SessionManager}

/--
A poll keeps the sessions apart: the requests of the process are executed while no client is
connected, those of a client while no local session is alive, and the party that comes second
is told so.
-/
structure OneSession (manager : SessionManager) (inputs : PollInputs) (outcome : PollOutcome) :
    Prop where
  asserted : ∀ journal, outcome ≠ .assertionFailed journal
  apart : ∀ next journal, outcome = .returns next journal →
    ¬(next.localAlive = true ∧ next.client.isSome = true)
  localOwner : ∀ request response, .executedLocal request response ∈ outcome.journal →
    manager.client = none ∧ ∀ socket data, .executedRemote socket data ∉ outcome.journal
  aborted : ∀ request, manager.request = some request → manager.client.isSome = true →
    .abortedLocal request activeSession ∈ outcome.journal
  remoteOwner : ∀ socket data, .executedRemote socket data ∈ outcome.journal →
    manager.localAlive = false ∧
      (∀ request response, .executedLocal request response ∉ outcome.journal) ∧
      (manager.client = some socket ∨
        manager.client = none ∧ .accepted socket ∈ outcome.journal)
  refused : ∀ socket, inputs.incoming = .socket socket →
    manager.client.isSome = true ∨ manager.localAlive = true ∨
      (∃ request response, .executedLocal request response ∈ outcome.journal) →
    .accepted socket ∉ outcome.journal ∧ ∀ next journal, outcome = .returns next journal →
      manager.remote = true → .rejected socket refusal ∈ journal ∧ .closed socket ∈ journal

/-- What the turn of the local session leaves to that of the remote one. -/
structure LocalTurn (manager middle : SessionManager) (earlier : List Entry) : Prop where
  exclusive : Exclusive middle
  client : middle.client = manager.client
  remote : middle.remote = manager.remote
  alive : manager.localAlive = true → middle.localAlive = true
  executed : ∀ request response, .executedLocal request response ∈ earlier →
    manager.client = none ∧ middle.localAlive = true
  aborted : ∀ request, manager.request = some request → manager.client.isSome = true →
    .abortedLocal request activeSession ∈ earlier
  noRemote : ∀ socket data, .executedRemote socket data ∉ earlier
  noAccept : ∀ socket, .accepted socket ∉ earlier

theorem andThen_pollHandler_cases (outcome : PollOutcome) (environment : Environment) :
    outcome.andThen (fun manager => manager.pollHandler environment) = outcome ∨
      outcome.andThen (fun manager => manager.pollHandler environment) = .throws outcome.journal := by
  cases outcome with
  | returns manager journal =>
      simp only [PollOutcome.andThen, SessionManager.pollHandler]
      split
      · exact .inr (by rw [PollOutcome.after, List.append_nil, PollOutcome.journal])
      · exact .inl (by rw [PollOutcome.after, List.append_nil])
  | assertionFailed journal => exact .inl rfl
  | throws journal => exact .inl rfl
  | terminates journal => exact .inl rfl

theorem OneSession.throws {inputs : PollInputs} {outcome : PollOutcome}
    (holds : OneSession manager inputs outcome) :
    OneSession manager inputs (.throws outcome.journal) := by
  refine ⟨?_, ?_, holds.localOwner, holds.aborted, holds.remoteOwner, ?_⟩
  · intro journal failed
    cases failed
  · intro next journal returned
    cases returned
  · intro socket arrives taken
    refine ⟨(holds.refused socket arrives taken).1, ?_⟩
    intro next journal returned
    cases returned

theorem oneSession_remoteTurn {middle : SessionManager} {earlier : List Entry}
    (turn : LocalTurn manager middle earlier) (inputs : PollInputs) :
    OneSession manager inputs ((middle.remoteTurn inputs).after earlier) := by
  have served := remoteTurn_spec turn.exclusive inputs
  have executed : ∀ request response,
      Entry.executedLocal request response ∈ ((middle.remoteTurn inputs).after earlier).journal →
        manager.client = none ∧ middle.localAlive = true := by
    intro request response listed
    rw [journal_after] at listed
    rcases List.mem_append.mp listed with first | last
    · exact turn.executed request response first
    · exact absurd last (served.noLocal request response)
  have owned : ∀ socket data,
      Entry.executedRemote socket data ∈ ((middle.remoteTurn inputs).after earlier).journal →
        Entry.executedRemote socket data ∈ (middle.remoteTurn inputs).journal := by
    intro socket data listed
    rw [journal_after] at listed
    exact (List.mem_append.mp listed).resolve_left (turn.noRemote socket data)
  refine ⟨after_ne_assertionFailed served.asserted, ?_, ?_, ?_, ?_, ?_⟩
  · intro next journal returned
    obtain ⟨rest, done, -⟩ := after_eq_returns returned
    exact (served.settled next rest done).1.apart
  · intro request response listed
    obtain ⟨none_, alive⟩ := executed request response listed
    refine ⟨none_, fun socket data other => ?_⟩
    have idle := (served.owned socket data (owned socket data other)).1
    exact absurd (alive.symm.trans idle) (by decide)
  · intro request waiting connected
    rw [journal_after]
    exact List.mem_append_left _ (turn.aborted request waiting connected)
  · intro socket data listed
    obtain ⟨idle, owner⟩ := served.owned socket data (owned socket data listed)
    refine ⟨?_, ?_, ?_⟩
    · exact Bool.eq_false_iff.mpr fun alive =>
        absurd ((turn.alive alive).symm.trans idle) (by decide)
    · intro request response other
      exact absurd ((executed request response other).2.symm.trans idle) (by decide)
    · rw [journal_after, ← turn.client]
      exact owner.imp_right fun ⟨none_, accepted⟩ => ⟨none_, List.mem_append_right _ accepted⟩
  · intro socket arrives taken
    have busy : middle.client.isSome = true ∨ middle.localAlive = true := by
      rw [turn.client]
      rcases taken with connected | alive | ⟨request, response, listed⟩
      · exact .inl connected
      · exact .inr (turn.alive alive)
      · exact .inr (executed request response listed).2
    obtain ⟨unaccepted, told⟩ := served.refused socket arrives busy
    refine ⟨?_, ?_⟩
    · rw [journal_after]
      exact fun listed => (List.mem_append.mp listed).elim (turn.noAccept socket) unaccepted
    · intro next journal returned enabled
      obtain ⟨rest, done, rfl⟩ := after_eq_returns returned
      obtain ⟨rejected, closed⟩ := told next rest done (turn.remote.trans enabled)
      exact ⟨List.mem_append_right _ rejected, List.mem_append_right _ closed⟩

theorem localTurn_cases (exclusive : Exclusive manager) (inputs : PollInputs) :
    (∃ request, manager.client = none ∧
      (manager.localTurn inputs = .throws [.executedLocal request none] ∨
        manager.localTurn inputs = .terminates [.executedLocal request none])) ∨
    ∃ middle earlier, manager.localTurn inputs = .returns middle earlier ∧
      LocalTurn manager middle earlier := by
  rw [localTurn_eq exclusive]
  cases waiting : manager.request with
  | none =>
      refine .inr ⟨manager, [], rfl, exclusive, rfl, rfl, id, by simp, ?_, by simp, by simp⟩
      intro request other
      cases waiting.symm.trans other
  | some request =>
      dsimp only
      by_cases connected : manager.client.isSome = true
      · rw [if_pos connected]
        refine .inr ⟨_, _, rfl, exclusive.withRequest none, rfl, rfl, id, by simp, ?_, by simp,
          by simp⟩
        intro other same _
        cases waiting.symm.trans same
        exact List.mem_singleton_self _
      · have none_ : manager.client = none := by simpa using connected
        rw [if_neg connected]
        cases Framework.execute inputs.executing manager.handler request with
        | throws handler => exact .inl ⟨request, none_, .inl rfl⟩
        | terminates => exact .inl ⟨request, none_, .inr rfl⟩
        | returns handler response =>
            refine .inr ⟨_, _, rfl, ⟨⟨fun _ => rfl, fun _ => rfl⟩, ?_, exclusive.enabled⟩, rfl, rfl,
              fun _ => rfl, fun _ _ _ => ⟨none_, rfl⟩, fun _ _ some_ => absurd some_ connected,
              by simp, by simp⟩
            exact iff_of_false (fun same => by cases same) connected

theorem oneSession_ended {inputs : PollInputs} {request : Request} (none_ : manager.client = none)
    {outcome : PollOutcome}
    (ended : outcome = .throws [.executedLocal request none] ∨
      outcome = .terminates [.executedLocal request none]) :
    OneSession manager inputs outcome := by
  have journal : outcome.journal = [.executedLocal request none] := by
    rcases ended with rfl | rfl
    · rfl
    · rfl
  have unreturned : ∀ next rest, outcome ≠ .returns next rest := by
    rintro next rest rfl
    rcases ended with same | same
    · cases same
    · cases same
  refine ⟨?_, fun next rest returned => absurd returned (unreturned next rest), ?_, ?_, ?_, ?_⟩
  · rintro rest rfl
    rcases ended with same | same
    · cases same
    · cases same
  · rw [journal]
    exact fun _ _ _ => ⟨none_, by simp⟩
  · intro other _ connected
    rw [none_] at connected
    cases connected
  · rw [journal]
    intro socket data listed
    simp at listed
  · rw [journal]
    intro socket _ _
    exact ⟨by simp, fun next rest returned => absurd returned (unreturned next rest)⟩

theorem oneSession_poll (exclusive : Exclusive manager) (inputs : PollInputs) :
    OneSession manager inputs (manager.poll inputs) := by
  have turns : OneSession manager inputs ((manager.localTurn inputs).andThen fun manager =>
      manager.remoteTurn inputs) := by
    obtain ⟨request, none_, ended⟩ | ⟨middle, earlier, returned, turn⟩ :=
      localTurn_cases exclusive inputs
    · refine @oneSession_ended manager inputs request none_ _ ?_
      rcases ended with thrown | gone
      · exact .inl (by rw [thrown, PollOutcome.andThen])
      · exact .inr (by rw [gone, PollOutcome.andThen])
    · rw [returned]
      exact oneSession_remoteTurn turn inputs
  rw [SessionManager.poll]
  rcases andThen_pollHandler_cases _ inputs.collecting with same | thrown
  · rw [same]
    exact turns
  · rw [thrown]
    exact turns.throws

theorem poll_returns (exclusive : Exclusive manager) {inputs : PollInputs} {next : SessionManager}
    {journal : List Entry} (polled : manager.poll inputs = .returns next journal) :
    ∃ middle earlier rest, LocalTurn manager middle earlier ∧
      middle.remoteTurn inputs = .returns next rest ∧ journal = earlier ++ rest := by
  have turns : ((manager.localTurn inputs).andThen fun manager =>
      manager.remoteTurn inputs) = .returns next journal := by
    rw [SessionManager.poll] at polled
    rcases andThen_pollHandler_cases ((manager.localTurn inputs).andThen fun manager =>
      manager.remoteTurn inputs) inputs.collecting with same | thrown
    · exact same ▸ polled
    · cases thrown.symm.trans polled
  obtain ⟨request, -, thrown | gone⟩ | ⟨middle, earlier, returned, turn⟩ :=
    localTurn_cases exclusive inputs
  · rw [thrown] at turns
    cases turns
  · rw [gone] at turns
    cases turns
  · rw [returned] at turns
    obtain ⟨rest, done, whole⟩ := after_eq_returns turns
    exact ⟨middle, earlier, rest, turn, done, whole⟩

theorem exclusive_poll (exclusive : Exclusive manager) {inputs : PollInputs}
    {next : SessionManager} {journal : List Entry}
    (polled : manager.poll inputs = .returns next journal) : Exclusive next := by
  obtain ⟨middle, earlier, rest, turn, done, -⟩ := poll_returns exclusive polled
  exact ((remoteTurn_spec turn.exclusive inputs).settled next rest done).1

end Polls

section Runs

theorem exclusive_new (handler : State) : Exclusive (SessionManager.new handler) :=
  ⟨iff_of_false nofun nofun, iff_of_false nofun nofun, nofun⟩

theorem step_poll_eq_some {service next : Service} {inputs : PollInputs}
    (taken : service.step (.poll inputs) = some next) :
    ∃ journal, service.manager.poll inputs = .returns next.manager journal ∧
      next.journal = service.journal ++ journal := by
  rw [Service.step] at taken
  split at taken
  · rename_i manager journal polled
    cases taken
    exact ⟨journal, polled, rfl⟩
  · cases taken

theorem step_exclusive {service next : Service} {action : ServiceAction}
    (exclusive : Exclusive service.manager) (taken : service.step action = some next) :
    Exclusive next.manager := by
  cases action with
  | submit request =>
      rw [Service.step] at taken
      split at taken
      · cases taken
        exact exclusive.withRequest (some request)
      · cases taken
  | enableRemoteSession =>
      rw [Service.step] at taken
      split at taken
      · cases taken
      · cases taken
        exact ⟨exclusive.ofLocal, exclusive.ofRemote, fun _ => rfl⟩
  | poll inputs =>
      obtain ⟨journal, polled, -⟩ := step_poll_eq_some taken
      exact exclusive_poll exclusive polled

theorem run_exclusive {actions : List ServiceAction} {service final : Service}
    (exclusive : Exclusive service.manager)
    (reached : run Service.step service actions = some final) : Exclusive final.manager :=
  @run_keeps _ _ Service.step (fun service => Exclusive service.manager)
    (fun _ _ _ holds taken => step_exclusive holds taken) _ _ _ exclusive reached

/-- Whatever has happened before, a poll keeps the sessions of the two parties apart. -/
theorem sessions_exclusive {handler : State} {actions : List ServiceAction} {service : Service}
    (reached : run Service.step (Service.new handler) actions = some service)
    (inputs : PollInputs) :
    OneSession service.manager inputs (service.manager.poll inputs) :=
  oneSession_poll (run_exclusive (exclusive_new handler) reached) inputs

/-- A client sends frames while a request of the process waits and another connection comes in. -/
def bothParties : List ServiceAction :=
  [.enableRemoteSession,
    .poll ⟨willing, .socket 1, [.frame (frameOf "Ping") willing true], willing, willing, willing⟩,
    .submit .ping]

def secondConnection : PollInputs :=
  ⟨willing, .socket 2, [.frame (frameOf "Ping") willing true, .disconnected], willing, willing,
    willing⟩

theorem sessions_exclusive_bothParties :
    ∃ service, run Service.step (Service.new (State.new [])) bothParties = some service ∧
      (service.manager.poll secondConnection).journal =
        [.abortedLocal .ping activeSession, .rejected 2 refusal, .closed 2,
          .executedRemote 1 (frameOf "Ping"), .replied 1 (encode (.value "hello")), .closed 1] ∧
      OneSession service.manager secondConnection (service.manager.poll secondConnection) :=
  ⟨_, rfl, rfl, @sessions_exclusive (State.new []) bothParties _ rfl secondConnection⟩

end Runs

section Ending

def Entry.ofLocal : Entry → Option (Request × Option Response)
  | .executedLocal request response => some (request, response)
  | _ => none

def lastLocal (journal : List Entry) : Option (Request × Option Response) :=
  (journal.filterMap Entry.ofLocal).getLast?

theorem mem_of_lastLocal {journal : List Entry} {request : Request} {response : Option Response}
    (last : lastLocal journal = some (request, response)) :
    .executedLocal request response ∈ journal := by
  obtain ⟨entry, listed, same⟩ := List.mem_filterMap.mp (List.mem_of_getLast? last)
  cases entry with
  | executedLocal other answer =>
      cases same
      exact listed
  | _ => cases same

/-- The local session is alive if it has ever executed a request. -/
def StaysAlive (service : Service) : Prop :=
  Exclusive service.manager ∧ ∀ request response,
    .executedLocal request response ∈ service.journal → service.manager.localAlive = true

theorem poll_alive {manager next : SessionManager} {inputs : PollInputs} {journal : List Entry}
    (exclusive : Exclusive manager) (polled : manager.poll inputs = .returns next journal) :
    (manager.localAlive = true → next.localAlive = true) ∧ ∀ request response,
      .executedLocal request response ∈ journal → next.localAlive = true := by
  obtain ⟨middle, earlier, rest, turn, done, rfl⟩ := poll_returns exclusive polled
  have served := remoteTurn_spec turn.exclusive inputs
  have same := (served.settled next rest done).2
  refine ⟨fun alive => same.trans (turn.alive alive), ?_⟩
  intro request response listed
  have first := (List.mem_append.mp listed).resolve_right (by
    have none_ := served.noLocal request response
    rwa [done] at none_)
  exact same.trans (turn.executed request response first).2

theorem step_staysAlive {service next : Service} {action : ServiceAction}
    (stays : StaysAlive service) (taken : service.step action = some next) :
    StaysAlive next ∧ (service.manager.localAlive = true → next.manager.localAlive = true) := by
  have exclusive := step_exclusive stays.1 taken
  cases action with
  | submit request =>
      rw [Service.step] at taken
      split at taken
      · cases taken
        exact ⟨⟨exclusive, stays.2⟩, id⟩
      · cases taken
  | enableRemoteSession =>
      rw [Service.step] at taken
      split at taken
      · cases taken
      · cases taken
        exact ⟨⟨exclusive, stays.2⟩, id⟩
  | poll inputs =>
      obtain ⟨journal, polled, whole⟩ := step_poll_eq_some taken
      obtain ⟨kept, executed⟩ := poll_alive stays.1 polled
      refine ⟨⟨exclusive, ?_⟩, kept⟩
      rw [whole]
      intro request response listed
      rcases List.mem_append.mp listed with old | new
      · exact kept (stays.2 request response old)
      · exact executed request response new

theorem run_staysAlive {actions : List ServiceAction} {service final : Service}
    (stays : StaysAlive service) (reached : run Service.step service actions = some final) :
    StaysAlive final ∧ (service.manager.localAlive = true → final.manager.localAlive = true) := by
  induction actions generalizing service with
  | nil =>
      cases reached
      exact ⟨stays, id⟩
  | cons action rest ih =>
      obtain ⟨next, taken, reached⟩ := run_cons_eq_some reached
      obtain ⟨holds, kept⟩ := step_staysAlive stays taken
      obtain ⟨last, later⟩ := ih holds reached
      exact ⟨last, fun alive => later (kept alive)⟩

/--
The end of its profile does not end a local session: after the next poll, and after all that
may follow, the session is a local one, and a connection that comes in is not accepted.
-/
theorem localSession_never_ends {handler : State} {actions : List ServiceAction}
    {service : Service} (reached : run Service.step (Service.new handler) actions = some service)
    (deactivated : lastLocal service.journal = some (.profileDeactivation, some (.value "")))
    {inputs : PollInputs} {next : SessionManager} {journal : List Entry}
    (polled : service.manager.poll inputs = .returns next journal) :
    next.sessionType ≠ .dormant ∧ ∀ later final,
      run Service.step ⟨next, service.journal ++ journal⟩ later = some final →
        final.manager.sessionType = .local ∧
          ∀ others socket, others.incoming = .socket socket →
            .accepted socket ∉ (final.manager.poll others).journal := by
  have start : StaysAlive (Service.new handler) := ⟨exclusive_new handler, nofun⟩
  have stays := (run_staysAlive start reached).1
  have alive := stays.2 _ _ (mem_of_lastLocal deactivated)
  have taken : service.step (.poll inputs) = some ⟨next, service.journal ++ journal⟩ := by
    rw [Service.step, polled]
  obtain ⟨staysNext, kept⟩ := step_staysAlive stays taken
  have ownNext := staysNext.1.ofLocal.mpr (kept alive)
  refine ⟨?_, ?_⟩
  · intro dormant
    cases ownNext.symm.trans dormant
  · intro later final reachedFinal
    obtain ⟨staysFinal, keptFinal⟩ := run_staysAlive staysNext reachedFinal
    have aliveFinal := keptFinal (kept alive)
    refine ⟨staysFinal.1.ofLocal.mpr aliveFinal, ?_⟩
    intro others socket arrives
    exact ((oneSession_poll staysFinal.1 others).refused socket arrives (.inr (.inl aliveFinal))).1

def quiet : PollInputs := ⟨willing, .nothing, [], willing, willing, willing⟩

def profileOfProcess : List ServiceAction :=
  [.enableRemoteSession,
    .submit (.profileActivation "/dev/shm/xpedite-*.data".toList 1 0 none none), .poll quiet,
    .submit .profileDeactivation, .poll quiet]

theorem localSession_never_ends_profileOfProcess :
    ∃ service next, run Service.step (Service.new (State.new [])) profileOfProcess = some service ∧
      service.manager.request = none ∧
      service.manager.poll quiet = .returns next [] ∧
      next.sessionType ≠ .dormant ∧ ∀ later final,
        run Service.step ⟨next, service.journal ++ []⟩ later = some final →
          final.manager.sessionType = .local ∧
            ∀ others socket, others.incoming = .socket socket →
              .accepted socket ∉ (final.manager.poll others).journal :=
  ⟨_, _, rfl, rfl, rfl, @localSession_never_ends (State.new []) profileOfProcess _ rfl rfl quiet _ []
    rfl⟩

def profilerConnects : PollInputs := { quiet with incoming := .socket 3 }

theorem profiler_refused_after_profileOfProcess :
    ∃ service next last,
      run Service.step (Service.new (State.new [])) profileOfProcess = some service ∧
      service.manager.request = none ∧
      lastLocal service.journal = some (.profileDeactivation, some (.value "")) ∧
      Handler.isProfileActive service.manager.handler = false ∧
      service.manager.poll quiet = .returns next [] ∧ next.sessionType = .local ∧
      next.poll profilerConnects = .returns last [.rejected 3 refusal, .closed 3] :=
  ⟨_, _, _, rfl, rfl, rfl, rfl, rfl, rfl, rfl⟩

end Ending

end Xpedite.Session
