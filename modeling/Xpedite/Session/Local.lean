import Xpedite.Session.LocalCore

/-!
Every call of `execute` is answered once before it returns.  The journal of a run shows the
lives that one address has: it is called, handled, and returned, and then free again.
-/

namespace Xpedite.Session

open Framework Lib

variable {Thread Address : Type} [DecidableEq Thread] [DecidableEq Address]

section Lives

inductive Life (Thread : Type) where
  | absent
  | waiting (thread : Thread)
  | answered (thread : Thread) (response : Option Response)

def Event.address : Event Thread Address → Address
  | .called _ address => address
  | .handled address _ _ => address
  | .returned _ address _ => address
  | .timedOut _ address => address

/-- A call is handled once, and then returns what the response says. -/
def Life.follow : Life Thread → Event Thread Address → Option (Life Thread)
  | .absent, .called thread _ => some (.waiting thread)
  | .waiting thread, .handled _ _ response => some (.answered thread response)
  | .answered thread response, .returned other _ value =>
      if other = thread ∧ value = succeeded response then some .absent else none
  | _, _ => none

def Life.advance (address : Address) (life : Life Thread) (event : Event Thread Address) :
    Option (Life Thread) :=
  if event.address = address then life.follow event else some life

def concerning (address : Address) (journal : List (Event Thread Address)) :
    List (Event Thread Address) :=
  journal.filter fun event => event.address = address

def Told (address : Address) (journal : List (Event Thread Address)) : Life Thread → Prop
  | .absent => True
  | .waiting thread => ∃ before between, journal = before ++ .called thread address :: between ∧
      concerning address between = []
  | .answered thread response => ∃ before between executed,
      journal = before ++ .called thread address :: between ∧
        concerning address between = [.handled address executed response]

omit [DecidableEq Thread] in
theorem concerning_snoc_other {address : Address} {event : Event Thread Address}
    (other : event.address ≠ address) (journal : List (Event Thread Address)) :
    concerning address (journal ++ [event]) = concerning address journal := by
  simp [concerning, other]

theorem Told.snoc {address : Address} {journal : List (Event Thread Address)}
    {event : Event Thread Address} {life next : Life Thread} (told : Told address journal life)
    (advanced : life.advance address event = some next) : Told address (journal ++ [event]) next := by
  rw [Life.advance] at advanced
  split at advanced
  · rename_i own
    cases life with
    | absent =>
        cases event with
        | called thread called =>
            cases advanced
            obtain rfl : called = address := own
            exact ⟨journal, [], rfl, rfl⟩
        | _ => cases advanced
    | waiting thread =>
        cases event with
        | handled handled executed response =>
            cases advanced
            obtain rfl : handled = address := own
            obtain ⟨before, between, rfl, silent⟩ := told
            refine ⟨before, between ++ [.handled handled executed response], executed, ?_, ?_⟩
            · rw [List.append_assoc, List.cons_append]
            · rw [concerning, List.filter_append, ← concerning, silent]
              simp [Event.address]
        | _ => cases advanced
    | answered thread response =>
        cases event with
        | returned other returned value =>
            rw [Life.follow] at advanced
            split at advanced
            · cases advanced
              trivial
            · cases advanced
        | _ => cases advanced
  · rename_i other
    cases advanced
    cases life with
    | absent => trivial
    | waiting thread =>
        obtain ⟨before, between, rfl, silent⟩ := told
        refine ⟨before, between ++ [event], by rw [List.append_assoc, List.cons_append], ?_⟩
        rw [concerning_snoc_other other, silent]
    | answered thread response =>
        obtain ⟨before, between, executed, rfl, once⟩ := told
        refine ⟨before, between ++ [event], executed, ?_, ?_⟩
        · rw [List.append_assoc, List.cons_append]
        · rw [concerning_snoc_other other, once]

theorem told_of_run {address : Address} {journal : List (Event Thread Address)}
    {life : Life Thread}
    (lives : run (Life.advance address) .absent journal = some life) :
    Told address journal life := by
  induction journal using List.reverseRecOn generalizing life with
  | nil =>
      cases lives
      trivial
  | append_singleton journal event ih =>
      rw [run_snoc] at lives
      obtain ⟨middle, earlier, advanced⟩ := Option.bind_eq_some_iff.mp lives
      exact (ih earlier).snoc advanced

/-- Each handling belongs to a call that has neither been handled nor returned. -/
structure HandledOnce (journal : List (Event Thread Address)) : Prop where
  returned : ∀ earlier later thread address value,
    journal = earlier ++ .returned thread address value :: later →
      ∃ before between executed response,
        earlier = before ++ .called thread address :: between ∧
          concerning address between = [.handled address executed response] ∧
          value = succeeded response
  handled : ∀ earlier later address executed response,
    journal = earlier ++ .handled address executed response :: later →
      ∃ before between thread, earlier = before ++ .called thread address :: between ∧
        concerning address between = []

theorem handledOnce_of_lives {journal : List (Event Thread Address)}
    (lives : ∀ address, (run (Life.advance address) .absent journal).isSome = true) :
    HandledOnce journal := by
  have reached : ∀ earlier event later, journal = earlier ++ event :: later →
      ∃ life next, Told event.address earlier life ∧ Life.follow life event = some next := by
    rintro earlier event later rfl
    obtain ⟨final, complete⟩ := Option.isSome_iff_exists.mp (lives event.address)
    rw [run_append] at complete
    obtain ⟨life, before, rest⟩ := Option.bind_eq_some_iff.mp complete
    obtain ⟨next, advanced, -⟩ := run_cons_eq_some rest
    rw [Life.advance, if_pos rfl] at advanced
    exact ⟨life, next, told_of_run before, advanced⟩
  constructor
  · intro earlier later thread address value split
    obtain ⟨life, next, told, followed⟩ := reached earlier _ later split
    cases life with
    | answered caller response =>
        rw [Life.follow] at followed
        split at followed
        · rename_i same
          obtain ⟨rfl, value⟩ := same
          obtain ⟨before, between, executed, split, once⟩ := told
          exact ⟨before, between, executed, response, split, once, value⟩
        · cases followed
    | _ => cases followed
  · intro earlier later address executed response split
    obtain ⟨life, next, told, followed⟩ := reached earlier _ later split
    cases life with
    | waiting thread =>
        obtain ⟨before, between, split, silent⟩ := told
        exact ⟨before, between, thread, split, silent⟩
    | _ => cases followed

end Lives

section Placing

def Caller.address : Caller Address → Option Address
  | .idle => none
  | .enqueuing address _ => some address
  | .awaiting address _ => some address

def Poller.held : Poller Address → Option Address
  | .idle => none
  | .loaded address => some address
  | .handled address => some address
  | .ended address => some address

def Poller.passed : Poller Address → Option Address
  | .handled address => some address
  | .ended address => some address
  | _ => none

structure Owned (session : LocalSession Thread Address) (address : Address) (thread : Thread) :
    Prop where
  live : session.live address = true
  only : ∀ other, (session.callers other).address = some address → other = thread

def Placed (session : LocalSession Thread Address) (address : Address) : Life Thread → Prop
  | .absent => session.live address = false ∧ session.request ≠ some address ∧
      ∀ thread, (session.callers thread).address ≠ some address
  | .waiting thread => Owned session address thread ∧
      ((∃ elapsed, session.callers thread = .enqueuing address elapsed) ∧
          session.request ≠ some address ∨
        (∃ elapsed, session.callers thread = .awaiting address elapsed) ∧
          session.request = some address ∧ session.poller.passed ≠ some address)
  | .answered thread response => Owned session address thread ∧
      (∃ elapsed, session.callers thread = .awaiting address elapsed) ∧
      (session.memory address).response = response ∧ session.poller ≠ .loaded address ∧
      (session.request = some address → session.poller.passed = some address)

structure Sound (session : LocalSession Thread Address) : Prop where
  held : ∀ address, session.poller.held = some address → session.request = some address
  lives : ∀ address, ∃ life,
    run (Life.advance address) .absent session.journal = some life ∧ Placed session address life

omit [DecidableEq Thread] [DecidableEq Address] in
theorem Placed.frame {session next : LocalSession Thread Address} {address : Address}
    {life : Life Thread} (placed : Placed session address life)
    (live : next.live address = session.live address)
    (response : (next.memory address).response = (session.memory address).response)
    (slot : next.request = some address ↔ session.request = some address)
    (loaded : next.poller = .loaded address ↔ session.poller = .loaded address)
    (passed : next.poller.passed = some address ↔ session.poller.passed = some address)
    (callers : ∀ thread, next.callers thread = session.callers thread ∨
      (next.callers thread).address ≠ some address ∧
        (session.callers thread).address ≠ some address) :
    Placed next address life := by
  have same : ∀ thread, (next.callers thread).address = some address ↔
      (session.callers thread).address = some address := by
    intro thread
    rcases callers thread with same | apart
    · rw [same]
    · exact iff_of_false apart.1 apart.2
  have owned : ∀ thread, Owned session address thread → Owned next address thread := by
    intro thread own
    exact ⟨live.trans own.live, fun other holds => own.only other ((same other).mp holds)⟩
  have kept : ∀ thread caller, caller.address = some address →
      session.callers thread = caller → next.callers thread = caller := by
    rintro thread caller holds rfl
    rcases callers thread with same | apart
    · exact same
    · exact absurd holds apart.2
  cases life with
  | absent =>
      obtain ⟨free, empty, none_⟩ := placed
      exact ⟨live.trans free, mt slot.mp empty, fun thread => mt (same thread).mp (none_ thread)⟩
  | waiting thread =>
      obtain ⟨own, ⟨⟨elapsed, caller⟩, empty⟩ | ⟨⟨elapsed, caller⟩, stored, fresh⟩⟩ := placed
      · exact ⟨owned thread own, .inl ⟨⟨elapsed, kept thread _ rfl caller⟩, mt slot.mp empty⟩⟩
      · exact ⟨owned thread own, .inr ⟨⟨elapsed, kept thread _ rfl caller⟩, slot.mpr stored,
          mt passed.mp fresh⟩⟩
  | answered thread answer =>
      obtain ⟨own, ⟨elapsed, caller⟩, known, done, rest⟩ := placed
      exact ⟨owned thread own, ⟨elapsed, kept thread _ rfl caller⟩, response.trans known,
        mt loaded.mp done, fun stored => passed.mpr (rest (slot.mp stored))⟩

omit [DecidableEq Address] in
theorem callers_update {session : LocalSession Thread Address} {thread : Thread}
    {caller : Caller Address} {address : Address} (before : (session.callers thread).address ≠ some address)
    (after : caller.address ≠ some address) (other : Thread) :
    Function.update session.callers thread caller other = session.callers other ∨
      (Function.update session.callers thread caller other).address ≠ some address ∧
        (session.callers other).address ≠ some address := by
  by_cases same : other = thread
  · subst same
    rw [Function.update_self]
    exact .inr ⟨after, before⟩
  · exact .inl (Function.update_of_ne same caller session.callers)

theorem lives_silent {session next : LocalSession Thread Address}
    (lives : ∀ address, ∃ life, run (Life.advance address) .absent session.journal = some life ∧
      Placed session address life)
    (journal : next.journal = session.journal)
    (each : ∀ address life, Placed session address life → Placed next address life)
    (address : Address) :
    ∃ life, run (Life.advance address) .absent next.journal = some life ∧
      Placed next address life := by
  obtain ⟨life, told, placed⟩ := lives address
  exact ⟨life, journal ▸ told, each address life placed⟩

theorem lives_snoc {session next : LocalSession Thread Address} {event : Event Thread Address}
    (lives : ∀ address, ∃ life, run (Life.advance address) .absent session.journal = some life ∧
      Placed session address life)
    (journal : next.journal = session.journal ++ [event])
    (others : ∀ address life, address ≠ event.address → Placed session address life →
      Placed next address life)
    (own : ∀ life, Placed session event.address life →
      ∃ after, life.follow event = some after ∧ Placed next event.address after)
    (address : Address) :
    ∃ life, run (Life.advance address) .absent next.journal = some life ∧
      Placed next address life := by
  obtain ⟨life, told, placed⟩ := lives address
  rw [journal, run_snoc, told, Option.bind_some, Life.advance]
  by_cases same : event.address = address
  · subst same
    rw [if_pos rfl]
    exact own life placed
  · rw [if_neg same]
    exact ⟨life, rfl, others address life (Ne.symm same) placed⟩

end Placing

section Steps

variable {session next : LocalSession Thread Address}

theorem sound_new (handler : State) (memory : Address → RequestObject) :
    Sound (LocalSession.new handler memory : LocalSession Thread Address) := by
  refine ⟨nofun, ?_⟩
  intro address
  exact ⟨.absent, rfl, rfl, nofun, nofun⟩

theorem Sound.call {thread : Thread} {address : Address} {request : Request}
    (sound : Sound session) (taken : session.call thread address request = some next) :
    Sound next := by
  rw [LocalSession.call] at taken
  split at taken
  · rename_i idle
    split at taken
    · cases taken
    · rename_i free
      cases taken
      have before : ∀ other, (session.callers thread).address ≠ some other := by
        rw [idle]
        exact nofun
      refine ⟨sound.held, lives_snoc sound.lives rfl ?_ ?_⟩
      · intro other life apart placed
        refine placed.frame (Function.update_of_ne apart _ _) ?_ Iff.rfl Iff.rfl Iff.rfl ?_
        · exact congrArg RequestObject.response (Function.update_of_ne apart _ _)
        · exact callers_update (before other) fun same => apart (Option.some.inj same).symm
      · intro life placed
        cases life with
        | absent =>
            obtain ⟨-, empty, none_⟩ := placed
            refine ⟨.waiting thread, rfl, ⟨Function.update_self _ _ _, ?_⟩, .inl ⟨⟨0, ?_⟩, empty⟩⟩
            · intro other holds
              by_contra apart
              have same : Function.update session.callers thread (.enqueuing address 0) other =
                  session.callers other := Function.update_of_ne apart _ _
              exact none_ other (same ▸ holds)
            · exact Function.update_self _ _ _
        | waiting caller => exact absurd placed.1.live free
        | answered caller response => exact absurd placed.1.live free
  · cases taken

omit [DecidableEq Thread] [DecidableEq Address] in
theorem Placed.enqueuing {thread : Thread} {address : Address} {elapsed : Nat} {life : Life Thread}
    (placed : Placed session address life)
    (caller : session.callers thread = .enqueuing address elapsed) :
    life = .waiting thread ∧ Owned session address thread ∧ session.request ≠ some address := by
  have holds : (session.callers thread).address = some address := by
    rw [caller]
    rfl
  cases life with
  | absent => exact absurd holds (placed.2.2 thread)
  | waiting owner =>
      obtain ⟨own, ⟨-, empty⟩ | ⟨⟨other, awaiting⟩, -⟩⟩ := placed
      · obtain rfl := own.only thread holds
        exact ⟨rfl, own, empty⟩
      · obtain rfl := own.only thread holds
        cases caller.symm.trans awaiting
  | answered owner response =>
      obtain ⟨own, ⟨other, awaiting⟩, -⟩ := placed
      obtain rfl := own.only thread holds
      cases caller.symm.trans awaiting

omit [DecidableEq Thread] [DecidableEq Address] in
theorem Placed.awaiting {thread : Thread} {address : Address} {elapsed : Nat} {life : Life Thread}
    (placed : Placed session address life)
    (caller : session.callers thread = .awaiting address elapsed)
    (gone : session.request ≠ some address) :
    life = .answered thread (session.memory address).response ∧ Owned session address thread := by
  have holds : (session.callers thread).address = some address := by
    rw [caller]
    rfl
  cases life with
  | absent => exact absurd holds (placed.2.2 thread)
  | waiting owner =>
      obtain ⟨own, ⟨⟨other, enqueuing⟩, -⟩ | ⟨-, stored, -⟩⟩ := placed
      · obtain rfl := own.only thread holds
        cases caller.symm.trans enqueuing
      · exact absurd stored gone
  | answered owner response =>
      obtain ⟨own, -, known, -⟩ := placed
      obtain rfl := own.only thread holds
      exact ⟨by rw [known], own⟩

theorem Placed.loaded {address : Address} {life : Life Thread} (sound : Sound session)
    (placed : Placed session address life) (poller : session.poller = .loaded address) :
    ∃ thread elapsed, life = .waiting thread ∧ Owned session address thread ∧
      session.callers thread = .awaiting address elapsed := by
  have stored := sound.held address (by rw [poller]; rfl)
  cases life with
  | absent => exact absurd stored placed.2.1
  | waiting thread =>
      obtain ⟨own, ⟨-, empty⟩ | ⟨⟨elapsed, caller⟩, -⟩⟩ := placed
      · exact absurd stored empty
      · exact ⟨thread, elapsed, rfl, own, caller⟩
  | answered thread response => exact absurd poller placed.2.2.2.1

theorem Sound.sleep {thread : Thread} {caller : Caller Address} (sound : Sound session)
    (same : caller.address = (session.callers thread).address)
    (enqueuing : ∀ address, (∃ elapsed, session.callers thread = .enqueuing address elapsed) →
      ∃ elapsed, caller = .enqueuing address elapsed)
    (awaiting : ∀ address, (∃ elapsed, session.callers thread = .awaiting address elapsed) →
      ∃ elapsed, caller = .awaiting address elapsed) :
    Sound (session.setCaller thread caller) := by
  have holds : ∀ other, (Function.update session.callers thread caller other).address =
      (session.callers other).address := by
    intro other
    by_cases own : other = thread
    · subst own
      rw [Function.update_self, same]
    · rw [Function.update_of_ne own]
  have kept : ∀ (stage : Nat → Caller Address) (other : Thread),
      ((∃ elapsed, session.callers thread = stage elapsed) → ∃ elapsed, caller = stage elapsed) →
      (∃ elapsed, session.callers other = stage elapsed) →
        ∃ elapsed, Function.update session.callers thread caller other = stage elapsed := by
    rintro stage other moves ⟨elapsed, stands⟩
    by_cases own : other = thread
    · subst own
      rw [Function.update_self]
      exact moves ⟨elapsed, stands⟩
    · rw [Function.update_of_ne own]
      exact ⟨elapsed, stands⟩
  refine ⟨sound.held, lives_silent sound.lives rfl ?_⟩
  intro address life placed
  have owned : ∀ owner, Owned session address owner →
      Owned (session.setCaller thread caller) address owner :=
    fun owner own => ⟨own.live, fun other stands => own.only other (holds other ▸ stands)⟩
  cases life with
  | absent => exact ⟨placed.1, placed.2.1, fun other => holds other ▸ placed.2.2 other⟩
  | waiting owner =>
      obtain ⟨own, ⟨stands, empty⟩ | ⟨stands, stored, fresh⟩⟩ := placed
      · exact ⟨owned owner own, .inl ⟨kept _ owner (enqueuing address) stands, empty⟩⟩
      · exact ⟨owned owner own, .inr ⟨kept _ owner (awaiting address) stands, stored, fresh⟩⟩
  | answered owner response =>
      obtain ⟨own, stands, rest⟩ := placed
      exact ⟨owned owner own, kept _ owner (awaiting address) stands, rest⟩

theorem Sound.exchange {thread : Thread} {spurious : Bool} (sound : Sound session)
    (taken : session.exchange 0 thread spurious = some next) : Sound next := by
  rw [LocalSession.exchange] at taken
  split at taken
  · rename_i address elapsed caller
    split at taken
    · rename_i late
      cases late
    · split at taken
      · rename_i free
        cases taken
        have empty : session.request = none := by
          simp only [Bool.and_eq_true, Option.isNone_iff_eq_none] at free
          exact free.1
        have unheld : ∀ other, session.poller.held ≠ some other := by
          intro other holds
          cases empty.symm.trans (sound.held other holds)
        have idle : session.poller = .idle := by
          cases poller : session.poller with
          | idle => rfl
          | _ => exact absurd (by rw [poller]; rfl) (unheld _)
        refine ⟨fun other holds => absurd holds (unheld other), lives_silent sound.lives rfl ?_⟩
        intro other life placed
        by_cases own : other = address
        · subst own
          obtain ⟨rfl, owned, -⟩ := placed.enqueuing caller
          refine ⟨⟨owned.live, ?_⟩, .inr ⟨⟨elapsed, Function.update_self _ _ _⟩, rfl, ?_⟩⟩
          · intro third holds
            by_contra apart
            refine apart (owned.only third ?_)
            have same : Function.update session.callers thread (.awaiting other elapsed) third =
                session.callers third := Function.update_of_ne apart _ _
            exact same ▸ holds
          · have unpassed : session.poller.passed ≠ some other := by
              rw [idle]
              exact nofun
            exact unpassed
        · refine placed.frame rfl rfl ?_ Iff.rfl Iff.rfl ?_
          · refine iff_of_false (fun same => own (Option.some.inj same).symm) ?_
            have unstored : session.request ≠ some other := by
              rw [empty]
              exact nofun
            exact unstored
          · refine callers_update ?_ fun same => own (Option.some.inj same).symm
            rw [caller]
            exact fun same => own (Option.some.inj same).symm
      · cases taken
        refine sound.sleep (by rw [caller]; rfl) ?_ ?_
        · rintro other ⟨before, stands⟩
          cases caller.symm.trans stands
          exact ⟨_, rfl⟩
        · rintro other ⟨before, stands⟩
          cases caller.symm.trans stands
  · cases taken

theorem Sound.await {thread : Thread} (sound : Sound session)
    (taken : session.await 0 thread = some next) : Sound next := by
  rw [LocalSession.await] at taken
  split at taken
  · rename_i address elapsed caller
    split at taken
    · rename_i late
      cases late
    · split at taken
      · cases taken
        refine sound.sleep (by rw [caller]; rfl) ?_ ?_
        · rintro other ⟨before, stands⟩
          cases caller.symm.trans stands
        · rintro other ⟨before, stands⟩
          cases caller.symm.trans stands
          exact ⟨_, rfl⟩
      · rename_i gone
        cases taken
        refine ⟨sound.held, lives_snoc sound.lives rfl ?_ ?_⟩
        · intro other life apart placed
          refine placed.frame (Function.update_of_ne apart _ _) rfl Iff.rfl Iff.rfl Iff.rfl ?_
          refine callers_update ?_ nofun
          rw [caller]
          exact fun same => apart (Option.some.inj same).symm
        · intro life placed
          obtain ⟨rfl, owned⟩ := placed.awaiting caller gone
          refine ⟨.absent, ?_, Function.update_self _ _ _, gone, ?_⟩
          · exact if_pos ⟨rfl, rfl⟩
          · intro other holds
            by_cases own : other = thread
            · subst own
              have idle : Function.update session.callers other .idle other = .idle :=
                Function.update_self _ _ _
              cases (congrArg Caller.address idle).symm.trans holds
            · have same : Function.update session.callers thread .idle other =
                  session.callers other := Function.update_of_ne own _ _
              exact own (owned.only other (same ▸ holds))
  · cases taken

theorem Sound.load (sound : Sound session) (taken : session.load = some next) : Sound next := by
  rw [LocalSession.load] at taken
  split at taken
  · cases taken
    exact sound
  · rename_i address idle stored
    cases taken
    refine ⟨?_, lives_silent sound.lives rfl ?_⟩
    · intro other holds
      cases holds
      exact stored
    · intro other life placed
      by_cases own : other = address
      · subst own
        cases life with
        | absent => exact absurd stored placed.2.1
        | waiting thread =>
            obtain ⟨owned, ⟨-, empty⟩ | ⟨caller, -, -⟩⟩ := placed
            · exact absurd stored empty
            · exact ⟨⟨owned.live, owned.only⟩, .inr ⟨caller, stored, nofun⟩⟩
        | answered thread response =>
            have passed := placed.2.2.2.2 stored
            rw [idle] at passed
            cases passed
      · refine placed.frame rfl rfl Iff.rfl ?_ ?_ fun _ => .inl rfl
        · rw [idle]
          refine iff_of_false ?_ nofun
          intro same
          cases same
          exact own rfl
        · rw [idle]
          exact Iff.rfl
  · cases taken

theorem Sound.pass {address : Address} (executed : Bool) (sound : Sound session)
    (poller : session.poller = .loaded address)
    (passed : next.poller.passed = some address) (held : next.poller.held = some address)
    (unloaded : ∀ other, next.poller ≠ .loaded other)
    (request : next.request = session.request) (live : next.live = session.live)
    (callers : next.callers = session.callers)
    (memory : ∀ other, other ≠ address → next.memory other = session.memory other)
    (journal : next.journal =
      session.journal ++ [.handled address executed (next.memory address).response]) :
    Sound next := by
  have stored := sound.held address (by rw [poller]; rfl)
  refine ⟨?_, lives_snoc sound.lives journal ?_ ?_⟩
  · intro other holds
    cases held.symm.trans holds
    rw [request, stored]
  · intro other life apart placed
    refine placed.frame (by rw [live]) (by rw [memory other apart]) (by rw [request]) ?_ ?_
      fun thread => .inl (by rw [callers])
    · refine iff_of_false (unloaded other) ?_
      rw [poller]
      intro same
      cases same
      exact apart rfl
    · refine iff_of_false ?_ ?_
      · intro same
        cases passed.symm.trans same
        exact apart rfl
      · rw [poller]
        exact nofun
  · intro life placed
    obtain ⟨thread, elapsed, rfl, owned, caller⟩ := placed.loaded sound poller
    refine ⟨_, rfl, ⟨by rw [live]; exact owned.live, by rw [callers]; exact owned.only⟩,
      ⟨elapsed, by rw [callers]; exact caller⟩, rfl, unloaded address, fun _ => passed⟩

theorem Sound.handle {environment : Environment} {canAcceptRequest : Bool} (sound : Sound session)
    (taken : session.handle environment canAcceptRequest = some next) : Sound next := by
  rw [LocalSession.handle] at taken
  split at taken
  · rename_i address poller
    split at taken
    · split at taken
      · cases taken
        refine sound.pass true poller rfl rfl (fun _ => nofun) rfl rfl rfl
          (fun other apart => Function.update_of_ne apart _ _) ?_
        simp [LocalSession.record]
      · cases taken
        exact sound.pass true poller rfl rfl (fun _ => nofun) rfl rfl rfl
          (fun _ _ => rfl) rfl
      · cases taken
    · cases taken
      refine sound.pass false poller rfl rfl (fun _ => nofun) rfl rfl rfl
        (fun other apart => Function.update_of_ne apart _ _) ?_
      simp [LocalSession.record]
  · cases taken

theorem Sound.clear (sound : Sound session) (taken : session.clear = some next) : Sound next := by
  rw [LocalSession.clear] at taken
  split at taken
  · rename_i address poller
    cases taken
    have stored := sound.held address (by rw [poller]; rfl)
    refine ⟨nofun, lives_silent sound.lives rfl ?_⟩
    intro other life placed
    cases life with
    | absent => exact ⟨placed.1, nofun, placed.2.2⟩
    | waiting thread =>
        obtain ⟨owned, ⟨caller, -⟩ | ⟨-, waits, fresh⟩⟩ := placed
        · exact ⟨⟨owned.live, owned.only⟩, .inl ⟨caller, nofun⟩⟩
        · cases stored.symm.trans waits
          rw [poller] at fresh
          exact absurd rfl fresh
    | answered thread response =>
        obtain ⟨owned, caller, known, -, -⟩ := placed
        exact ⟨⟨owned.live, owned.only⟩, caller, known, nofun, nofun⟩
  · cases taken

theorem Sound.step {action : Action Thread Address} (sound : Sound session)
    (taken : session.step 0 action = some next) : Sound next := by
  cases action with
  | call thread address request => exact sound.call taken
  | exchange thread spurious => exact sound.exchange taken
  | await thread => exact sound.await taken
  | load => exact sound.load taken
  | handle environment canAcceptRequest => exact sound.handle taken
  | clear => exact sound.clear taken

end Steps

/--
Whatever the threads and the background thread do, every call that has returned was handled
once while it lasted, no request is handled outside of its call, and the slot holds no other
request than the one that is being handled.
-/
theorem requests_handledOnce {handler : State} {memory : Address → RequestObject}
    {actions : List (Action Thread Address)} {final : LocalSession Thread Address}
    (reached : run (LocalSession.step 0) (LocalSession.new handler memory) actions = some final) :
    HandledOnce final.journal ∧
      ∀ stored handled, final.request = some stored → final.poller.held = some handled →
        stored = handled := by
  have sound : Sound final :=
    run_keeps (fun _ _ _ holds taken => Sound.step holds taken) (sound_new handler memory) reached
  constructor
  · apply handledOnce_of_lives
    intro address
    obtain ⟨life, told, -⟩ := sound.lives address
    exact Option.isSome_of_eq_some told
  · intro stored handled inSlot held
    exact Option.some.inj (inSlot.symm.trans (sound.held handled held))

/-- The second thread takes the slot while the first one still waits for it to change. -/
def twoCallers : List (Action Nat Nat) :=
  [.call 1 10 .ping, .call 2 20 .ping, .exchange 1 false, .exchange 2 false, .load,
    .handle willing true, .clear, .exchange 2 true, .exchange 2 false, .load, .await 1,
    .handle willing false, .await 2, .clear, .await 2]

theorem requests_handledOnce_twoCallers :
    ∃ final, run (LocalSession.step 0)
        (LocalSession.new (State.new []) fun _ => ⟨.profileDeactivation, none⟩) twoCallers =
          some final ∧
      final.journal =
        [.called 1 10, .called 2 20, .handled 10 true (some (.value Handler.ping)),
          .returned 1 10 true,
          .handled 20 false (some (.errors
            "xpedite dectected active session - multiple sessions not supported")),
          .returned 2 20 false] ∧
      HandledOnce final.journal ∧
      ∀ stored handled, final.request = some stored → final.poller.held = some handled →
        stored = handled :=
  ⟨_, rfl, rfl, @requests_handledOnce Nat Nat _ _ (State.new []) (fun _ =>
    ⟨.profileDeactivation, none⟩) twoCallers _ rfl⟩

end Xpedite.Session
