import Xpedite.Intercept.TlScoped

/-!
Runs of any number of threads over the data: a datum is private to the thread whose pointers
refer to it, the array is large enough exactly when it has a datum for every thread, and a build
with assertions gives out no pointer at all.
-/

namespace Xpedite.Intercept

open Xpedite.Lib
open TlScopedData

variable {Data : Type} {maxSize : Nat} {assertions : Bool}

theorem sound_of_run {state final : TlScopedData Data} {actions : List (Action Data)}
    (sound : Sound maxSize state)
    (reached : run (step maxSize assertions) state actions = some final) : Sound maxSize final :=
  run_keeps (fun _ _ _ sound taken => Sound.step sound taken) sound reached

theorem unchanged_of_run {state final : TlScopedData Data} {tid : Tid} {pointer : Nat}
    {actions : List (Action Data)} (sound : Sound maxSize state)
    (member : pointer ∈ (state.threads tid).pointers)
    (others : ∀ action ∈ actions, action.tid ≠ tid)
    (reached : run (step maxSize assertions) state actions = some final) :
    final.threads tid = state.threads tid ∧
      final.tlScopedData pointer = state.tlScopedData pointer := by
  induction actions generalizing state with
  | nil =>
      cases reached
      exact ⟨rfl, rfl⟩
  | cons action rest ih =>
      obtain ⟨next, taken, continued⟩ := run_cons_eq_some reached
      have differ : tid ≠ action.tid := (others action List.mem_cons_self).symm
      have once : next.threads tid = state.threads tid ∧
          next.tlScopedData pointer = state.tlScopedData pointer := by
        rcases step_cases taken with ⟨slots, thread, effect, rfl⟩ | ⟨ending, _, rfl⟩
        · have held := (sound.keeps tid).same pointer member
          refine ⟨Function.update_of_ne differ _ _, ?_⟩
          exact effect.datum_other (sound.keeps action.tid) differ
            (((sound.keeps tid).owns pointer).mpr held)
        · exact ⟨rfl, rfl⟩
      obtain ⟨sameThread, sameDatum⟩ := ih (Sound.step sound taken) (by rwa [once.1])
        (fun other later => others other (List.mem_cons_of_mem action later)) continued
      exact ⟨sameThread.trans once.1, sameDatum.trans once.2⟩

theorem useCount_eq_length {state : TlScopedData Data} (sound : Sound maxSize state) {tid : Tid}
    {pointer : Nat} (member : pointer ∈ (state.threads tid).pointers)
    (atRest : (state.threads tid).pc = .idle) :
    (state.tlScopedData pointer).useCount = (state.threads tid).pointers.length := by
  have keeps := sound.keeps tid
  rw [keeps.counted pointer (keeps.same pointer member), Thread.uses, atRest]

theorem free_iff_of_rest {state : TlScopedData Data} (sound : Sound maxSize state)
    (atRest : ∀ tid, (state.threads tid).pc = .idle) (index : Nat) :
    (state.tlScopedData index).tid = 0 ↔ ∀ tid, index ∉ (state.threads tid).pointers := by
  constructor
  · intro unheld tid member
    have keeps := sound.keeps tid
    have mine := (keeps.owns index).mpr (keeps.same index member)
    have positive := tid.property
    omega
  · intro unheld
    by_contra taken
    let owner : Tid := ⟨(state.tlScopedData index).tid, Nat.pos_of_ne_zero taken⟩
    have held := ((sound.keeps owner).owns index).mp rfl
    rcases thread : state.threads owner with ⟨pc, pointers⟩
    have isIdle : pc = .idle := by simpa only [thread] using atRest owner
    have noPointer := unheld owner
    rw [thread] at held noPointer
    subst isIdle
    cases pointers with
    | nil => cases held
    | cons pointer rest =>
        cases held
        exact noPointer List.mem_cons_self

/--
In every run a datum that a thread has a pointer to is that thread's alone: its pointers all
refer to it and are as many as its use count, no other thread has a pointer to it, and nothing
the other threads do from then on changes it.
-/
theorem datum_private_of_run {data : Data} {state : TlScopedData Data}
    {actions : List (Action Data)}
    (reached : run (step maxSize assertions) (TlScopedData.new data) actions = some state) :
    (∀ tid, ∀ pointer ∈ (state.threads tid).pointers,
      pointer < maxSize ∧ (state.tlScopedData pointer).tid = tid ∧
      (∀ second ∈ (state.threads tid).pointers, second = pointer) ∧
      (∀ other, pointer ∈ (state.threads other).pointers → other = tid) ∧
      ((state.threads tid).pc = .idle →
        (state.tlScopedData pointer).useCount = (state.threads tid).pointers.length) ∧
      ∀ later final, (∀ action ∈ later, action.tid ≠ tid) →
        run (step maxSize assertions) state later = some final →
        final.threads tid = state.threads tid ∧
          final.tlScopedData pointer = state.tlScopedData pointer) ∧
    ((∀ tid, (state.threads tid).pc = .idle) →
      ∀ index, (state.tlScopedData index).tid = 0 ↔
        ∀ tid, index ∉ (state.threads tid).pointers) := by
  have sound := sound_of_run (sound_new maxSize data) reached
  refine ⟨?_, free_iff_of_rest sound⟩
  intro tid pointer member
  have keeps := sound.keeps tid
  have held := keeps.same pointer member
  have mine := (keeps.owns pointer).mpr held
  refine ⟨keeps.within pointer held, mine, ?_, ?_, useCount_eq_length sound member, ?_⟩
  · intro second also
    exact place_eq_of_mem keeps also member
  · intro other also
    have theirs := ((sound.keeps other).owns pointer).mpr ((sound.keeps other).same pointer also)
    exact Subtype.ext (theirs.symm.trans mine)
  · intro later final others continued
    exact unchanged_of_run sound member others continued

def firstTid : Tid := ⟨7, by decide⟩

def secondTid : Tid := ⟨9, by decide⟩

def getAndTurn (tid : Tid) (turns : Nat) : List (Action Nat) :=
  .get tid :: List.replicate turns (.turn tid)

/-- One thread gets its datum twice and stores 5 in it, and another one gets a datum. -/
def shared : List (Action Nat) :=
  getAndTurn firstTid 6 ++ getAndTurn firstTid 3 ++ [.write firstTid 0 5] ++ getAndTurn secondTid 7

def sharedState : TlScopedData Nat := (run (step 2 false) (TlScopedData.new 0) shared).get rfl

theorem datum_private_of_run_shared :
    (sharedState.threads secondTid).pointers = [1] ∧
      (sharedState.tlScopedData 0).useCount = 2 ∧ (sharedState.tlScopedData 0).data = 5 := by
  have reached : run (step 2 false) (TlScopedData.new 0) shared = some sharedState :=
    (Option.some_get rfl).symm
  have first := (datum_private_of_run reached).1 firstTid 0 (by decide)
  exact ⟨by decide, (first.2.2.2.2.1 (by decide)).trans (by decide), by decide⟩

section Full

def places (state : TlScopedData Data) (tid : Tid) : Place := (state.threads tid).place

theorem places_update (state : TlScopedData Data) (slots : Nat → TlScopedDatum Data) (tid : Tid)
    (thread : Thread) :
    places ⟨slots, Function.update state.threads tid thread, state.ended⟩ =
      Function.update (places state) tid thread.place := by
  funext other
  by_cases own : other = tid
  · subst own
    simp [places]
  · simp [places, Function.update_of_ne own]

variable {participants : Finset Tid}

theorem orderly_step {state next : TlScopedData Data} {action : Action Data}
    (member : action.tid ∈ participants) (sound : Sound maxSize state)
    (orderly : Orderly participants (places state))
    (taken : state.step maxSize assertions action = some next) :
    Orderly participants (places next) := by
  rcases step_cases taken with ⟨slots, thread, effect, rfl⟩ | ⟨ending, _, rfl⟩
  · rw [places_update]
    rcases effect.place (sound.keeps action.tid) rfl sound.keeps with stays | moves
    · rwa [stays, show (state.threads action.tid).place = places state action.tid from rfl,
        Function.update_eq_self]
    · exact orderly.move member moves
  · exact orderly

theorem not_nullDatum_of_step {state next : TlScopedData Data} {action : Action Data}
    (few : participants.card ≤ maxSize) (orderly : Orderly participants (places state))
    (lasts : state.ended ≠ some .nullDatum)
    (taken : state.step maxSize assertions action = some next) :
    next.ended ≠ some .nullDatum := by
  rcases step_cases taken with ⟨slots, thread, effect, rfl⟩ | ⟨ending, ends, rfl⟩
  · exact lasts
  · rcases thread : state.threads action.tid with ⟨pc, pointers⟩
    rw [thread] at ends
    cases ends with
    | acquire | release => exact fun isNull => by cases isNull
    | @runOut index _ past =>
        have reached : (places state action.tid).reaches index = true := by
          rw [places, thread]
          exact (Place.reaches_trying index index).mpr (Nat.le_refl index)
        have within := orderly.lt_card reached
        omega

theorem not_nullDatum_of_run {data : Data} {state : TlScopedData Data}
    {actions : List (Action Data)} (few : participants.card ≤ maxSize)
    (members : ∀ action ∈ actions, action.tid ∈ participants)
    (reached : run (step maxSize assertions) (TlScopedData.new data) actions = some state) :
    state.ended ≠ some .nullDatum := by
  have kept := @run_invariant _ _ (step maxSize assertions)
    (fun _ action => action.tid ∈ participants)
    (fun state : TlScopedData Data => Sound maxSize state ∧
      Orderly participants (places state) ∧ state.ended ≠ some .nullDatum)
    (fun _ _ _ member taken holds => ⟨holds.1.step taken,
      orderly_step member holds.1 holds.2.1 taken,
      not_nullDatum_of_step few holds.2.1 holds.2.2 taken⟩)
    actions (TlScopedData.new data) state
    ⟨sound_new maxSize data, orderly_outside participants, fun isNull => by cases isNull⟩
    (along_of_forall_mem _ members _) reached
  exact kept.2.2

def Leads (maxSize : Nat) (assertions : Bool) (tid : Tid) (state next : TlScopedData Data) : Prop :=
  ∃ actions, (∀ action ∈ actions, action.tid = tid) ∧
    run (step maxSize assertions) state actions = some next

theorem Leads.refl (tid : Tid) (state : TlScopedData Data) :
    Leads maxSize assertions tid state state :=
  ⟨[], by simp, rfl⟩

theorem Leads.cons {tid : Tid} {state middle next : TlScopedData Data} {action : Action Data}
    (own : action.tid = tid) (taken : state.step maxSize assertions action = some middle)
    (leads : Leads maxSize assertions tid middle next) :
    Leads maxSize assertions tid state next := by
  obtain ⟨actions, members, reached⟩ := leads
  refine ⟨action :: actions, ?_, ?_⟩
  · intro other member
    rcases List.mem_cons.mp member with rfl | later
    · exact own
    · exact members other later
  · rw [run, taken, Option.bind_some, reached]

/-- As many threads as there are in the list have a datum and the others have done nothing. -/
structure Taken (state : TlScopedData Data) (tids : List Tid) : Prop where
  running : state.ended = none
  first : ∀ index, (state.tlScopedData index).tid ≠ 0 ↔ index < tids.length
  owners : ∀ index, ∀ tid : Tid, (state.tlScopedData index).tid = tid → tid ∈ tids
  fresh : ∀ tid, tid ∉ tids → state.threads tid = Thread.new

variable {state : TlScopedData Data} {tids : List Tid} {tid : Tid}

theorem Taken.leads_isUsed (taken : Taken state tids) (absent : tid ∉ tids) {index : Nat}
    (within : index ≤ maxSize) :
    Leads maxSize assertions tid (state.setPc tid (.isUsed index))
      (state.setPc tid (.tryUse 0)) := by
  induction remaining : maxSize - index generalizing index with
  | zero =>
      refine .cons (show (Action.turn tid : Action Data).tid = tid from rfl) ?_ (.refl tid _)
      have past : ¬index < maxSize := by omega
      simp [step, turn, setPc, setThread, taken.running, past]
  | succ remaining ih =>
      refine .cons (show (Action.turn tid : Action Data).tid = tid from rfl) ?_
        (@ih (index + 1) (by omega) (by omega))
      have inside : index < maxSize := by omega
      have other : (state.tlScopedData index).tid ≠ tid := fun mine =>
        absent (taken.owners index tid mine)
      simp [step, turn, setPc, setThread, taken.running, inside, other]

theorem Taken.leads_tryUse (taken : Taken state tids) (few : tids.length ≤ maxSize) {index : Nat}
    (within : index ≤ tids.length) :
    Leads maxSize assertions tid (state.setPc tid (.tryUse index))
      (state.setPc tid (.tryUse tids.length)) := by
  induction remaining : tids.length - index generalizing index with
  | zero =>
      obtain rfl : index = tids.length := by omega
      exact .refl tid _
  | succ remaining ih =>
      refine .cons (show (Action.turn tid : Action Data).tid = tid from rfl) ?_
        (@ih (index + 1) (by omega) (by omega))
      have inside : index < maxSize := by omega
      have other := (taken.first index).mpr (by omega)
      simp [step, turn, setPc, setThread, taken.running, inside, other]

theorem Leads.trans {middle next : TlScopedData Data}
    (first : Leads maxSize assertions tid state middle)
    (second : Leads maxSize assertions tid middle next) :
    Leads maxSize assertions tid state next := by
  obtain ⟨earlier, firstOwn, firstReached⟩ := first
  obtain ⟨later, secondOwn, secondReached⟩ := second
  refine ⟨earlier ++ later, ?_, ?_⟩
  · intro action member
    rcases List.mem_append.mp member with before | after
    · exact firstOwn action before
    · exact secondOwn action after
  · rw [run_append, firstReached, Option.bind_some, secondReached]

theorem Taken.leads (taken : Taken state tids) (few : tids.length ≤ maxSize)
    (absent : tid ∉ tids) :
    Leads maxSize assertions tid state (state.setPc tid (.tryUse tids.length)) := by
  have started : step maxSize assertions state (.get tid) = some (state.setPc tid (.isUsed 0)) := by
    simp [step, taken.running, taken.fresh tid absent, Thread.new]
  exact .cons rfl started ((taken.leads_isUsed absent (Nat.zero_le _)).trans
    (taken.leads_tryUse few (Nat.zero_le _)))

theorem Taken.take (taken : Taken state tids) (room : tids.length < maxSize) (absent : tid ∉ tids) :
    ∃ next, Leads maxSize assertions tid state next ∧ Taken next (tids ++ [tid]) := by
  have free : (state.tlScopedData tids.length).tid = 0 := by
    by_contra held
    exact absurd ((taken.first _).mp held) (Nat.lt_irrefl _)
  refine ⟨((state.setPc tid (.tryUse tids.length)).setDatum tids.length
      { state.tlScopedData tids.length with tid := tid }).setPc tid (.acquire tids.length), ?_, ?_⟩
  · refine (taken.leads (Nat.le_of_lt room) absent).trans
      (.cons (show (Action.turn tid : Action Data).tid = tid from rfl) ?_ (.refl tid _))
    simp [step, turn, setPc, setThread, setDatum, taken.running, room, free]
  · have positive := tid.property
    refine ⟨taken.running, ?_, ?_, ?_⟩
    · intro index
      rw [List.length_append, List.length_singleton]
      simp only [setPc, setThread, setDatum]
      by_cases changed : index = tids.length
      · subst changed
        rw [Function.update_self]
        exact iff_of_true (by simp only; omega) (by omega)
      · rw [Function.update_of_ne changed, taken.first]
        omega
    · intro index owner owned
      simp only [setPc, setThread, setDatum] at owned
      by_cases changed : index = tids.length
      · subst changed
        rw [Function.update_self] at owned
        rw [Subtype.ext owned]
        exact List.mem_append_right _ List.mem_cons_self
      · rw [Function.update_of_ne changed] at owned
        exact List.mem_append_left _ (taken.owners index owner owned)
    · intro other isFresh
      rw [List.mem_append, List.mem_singleton, not_or] at isFresh
      simp only [setPc, setThread, setDatum, Function.update_of_ne isFresh.2]
      exact taken.fresh other isFresh.1

theorem taken_of_run (data : Data) (tids : List Tid) (few : tids.length ≤ maxSize)
    (distinct : tids.Nodup) :
    ∃ actions state, (∀ action ∈ actions, action.tid ∈ tids) ∧
      run (step maxSize assertions) (TlScopedData.new data) actions = some state ∧
      Taken state tids := by
  induction tids using List.reverseRecOn with
  | nil =>
      refine ⟨[], TlScopedData.new data, by simp, rfl, rfl, ?_, ?_, ?_⟩
      · intro index
        simp [TlScopedData.new, TlScopedDatum.new]
      · intro index tid owned
        have positive := tid.property
        simp only [TlScopedData.new, TlScopedDatum.new] at owned
        omega
      · intro tid _
        rfl
  | append_singleton tids tid ih =>
      rw [List.length_append, List.length_singleton] at few
      obtain ⟨distinctTids, _, apart⟩ := List.nodup_append.mp distinct
      obtain ⟨actions, state, members, reached, taken⟩ := ih (by omega) distinctTids
      have absent : tid ∉ tids := fun inside => apart tid inside tid List.mem_cons_self rfl
      have room : tids.length < maxSize := by omega
      obtain ⟨next, ⟨more, own, continued⟩, takenNext⟩ :
          ∃ next, Leads maxSize assertions tid state next ∧ Taken next (tids ++ [tid]) :=
        taken.take room absent
      refine ⟨actions ++ more, next, ?_, ?_, takenNext⟩
      · intro action member
        rcases List.mem_append.mp member with before | after
        · exact List.mem_append_left _ (members action before)
        · rw [own action after]
          exact List.mem_append_right _ List.mem_cons_self
      · rw [run_append, reached, Option.bind_some, continued]

theorem exists_nullDatum (data : Data) (crowded : maxSize < participants.card) :
    ∃ actions, ∃ state : TlScopedData Data, (∀ action ∈ actions, action.tid ∈ participants) ∧
      run (step maxSize assertions) (TlScopedData.new data) actions = some state ∧
      state.ended = some .nullDatum := by
  obtain ⟨tids, isSubset, card⟩ := Finset.exists_subset_card_eq crowded.le
  obtain ⟨tid, member, absent⟩ := Finset.exists_mem_notMem_of_card_lt_card (card ▸ crowded)
  have length : tids.toList.length = maxSize := by rw [Finset.length_toList, card]
  obtain ⟨actions, state, members, reached, taken⟩ :=
    @taken_of_run _ _ assertions data tids.toList (Nat.le_of_eq length) tids.nodup_toList
  obtain ⟨more, own, continued⟩ :
      Leads maxSize assertions tid state (state.setPc tid (.tryUse tids.toList.length)) :=
    taken.leads (Nat.le_of_eq length) fun inside => absent (Finset.mem_toList.mp inside)
  refine ⟨actions ++ more ++ [.turn tid],
    { state.setPc tid (.tryUse tids.toList.length) with ended := some .nullDatum }, ?_, ?_, rfl⟩
  · intro action inside
    rw [List.append_assoc] at inside
    rcases List.mem_append.mp inside with before | after
    · exact isSubset (Finset.mem_toList.mp (members action before))
    · rcases List.mem_append.mp after with scanning | last
      · rwa [own action scanning]
      · rwa [List.mem_singleton.mp last]
  · rw [run_snoc, run_append, reached, Option.bind_some, continued, Option.bind_some]
    simp [step, turn, setPc, setThread, taken.running, length]

/--
Threads of a given set can run `get` out of data, in some order of their steps, exactly when
they are more than the data.
-/
theorem get_runs_out_iff (data : Data) (participants : Finset Tid) :
    (∃ actions, ∃ state : TlScopedData Data, (∀ action ∈ actions, action.tid ∈ participants) ∧
      run (step maxSize assertions) (TlScopedData.new data) actions = some state ∧
      state.ended = some .nullDatum) ↔ maxSize < participants.card := by
  constructor
  · rintro ⟨actions, state, members, reached, isNull⟩
    by_contra few
    exact not_nullDatum_of_run (Nat.le_of_not_lt few) members reached isNull
  · exact exists_nullDatum data

end Full

section Assertions

def Pc.BeforePointers : Pc → Prop
  | .idle | .isUsed _ | .tryUse _ | .acquire _ => True
  | _ => False

def Unacquired (state : TlScopedData Data) : Prop :=
  ∀ tid, (state.threads tid).pointers = [] ∧ (state.threads tid).pc.BeforePointers

theorem unacquired_step {state next : TlScopedData Data} {action : Action Data}
    (sound : Sound maxSize state) (unacquired : Unacquired state)
    (taken : state.step maxSize true action = some next) : Unacquired next := by
  rcases step_cases taken with ⟨slots, thread, effect, rfl⟩ | ⟨ending, _, rfl⟩
  · intro other
    by_cases own : other = action.tid
    · subst own
      simp only [Function.update_self]
      obtain ⟨noPointers, before⟩ := unacquired action.tid
      have keeps := sound.keeps action.tid
      rcases position : state.threads action.tid with ⟨pc, pointers⟩
      rw [position] at effect keeps noPointers before
      simp only at noPointers
      subst noPointers
      cases effect with
      | get | found | missed | unused | taken | occupied => exact ⟨rfl, trivial⟩
      | @acquire index _ passes =>
          refine absurd ⟨rfl, fun asserted => ?_⟩ passes
          exact asserted.2 ((keeps.owns index).mpr rfl)
      | acquireStore | release | kept | last | clear => exact before.elim
      | write member | destroy member => cases member
    · simp only [Function.update_of_ne own]
      exact unacquired other
  · exact unacquired

/--
With assertions the one in `acquire` fails for every thread: `get` has put the thread's own id
into the datum, and the assertion is that the datum has another one.
-/
theorem no_pointer_of_assertions {data : Data} {state : TlScopedData Data}
    {actions : List (Action Data)}
    (reached : run (step maxSize true) (TlScopedData.new data) actions = some state) :
    (∀ tid, (state.threads tid).pointers = []) ∧
    ∀ tid index, (state.threads tid).pc = .acquire index → state.ended = none →
      step maxSize true state (.turn tid) = some { state with ended := some .assertionFailed } := by
  have holds : Sound maxSize state ∧ Unacquired state :=
    @run_keeps _ _ (step maxSize true) (fun state => Sound maxSize state ∧ Unacquired state)
      (fun _ _ _ holds taken => ⟨holds.1.step taken, unacquired_step holds.1 holds.2 taken⟩)
      actions _ state ⟨sound_new maxSize data, fun _ => ⟨rfl, trivial⟩⟩ reached
  refine ⟨fun tid => (holds.2 tid).1, ?_⟩
  intro tid index atAcquire running
  have held : (state.threads tid).place = .holding index := by
    simp only [Thread.place, atAcquire]
  have mine := ((holds.1.keeps tid).owns index).mpr held
  simp [step, turn, running, atAcquire, mine]

def acquiringState : TlScopedData Nat :=
  (run (step 2 true) (TlScopedData.new 0) (getAndTurn firstTid 4)).get rfl

theorem no_pointer_of_assertions_acquiring :
    step 2 true acquiringState (.turn firstTid) =
      some { acquiringState with ended := some .assertionFailed } := by
  have reached : run (step 2 true) (TlScopedData.new 0) (getAndTurn firstTid 4) =
      some acquiringState := (Option.some_get rfl).symm
  exact (no_pointer_of_assertions reached).2 firstTid 0 (by decide) rfl

end Assertions

end Xpedite.Intercept
