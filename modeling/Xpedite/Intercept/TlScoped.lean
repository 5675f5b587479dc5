import Xpedite.Intercept.TlScopedCore
import Xpedite.Lib.SlotScan

/-!
What the steps of the threads keep of each other.  A datum belongs to the one thread whose id it
has from the exchange in `tryUse` to the store of 0 in `release`; a thread has one datum at most.
-/

namespace Xpedite.Intercept

open Xpedite.Lib
open Xpedite.Lib.Place
open TlScopedData

variable {Data : Type} {maxSize : Nat} {assertions : Bool}

inductive Effect (maxSize : Nat) (assertions : Bool) (slots : Nat → TlScopedDatum Data)
    (tid : Tid) : Thread → (Nat → TlScopedDatum Data) → Thread → Prop
  | get {pointers : List Nat} :
      Effect maxSize assertions slots tid ⟨.idle, pointers⟩ slots ⟨.isUsed 0, pointers⟩
  | found {index : Nat} {pointers : List Nat} : index < maxSize → (slots index).tid = tid →
      Effect maxSize assertions slots tid ⟨.isUsed index, pointers⟩ slots ⟨.acquire index, pointers⟩
  | missed {index : Nat} {pointers : List Nat} : (slots index).tid ≠ tid →
      Effect maxSize assertions slots tid ⟨.isUsed index, pointers⟩ slots
        ⟨.isUsed (index + 1), pointers⟩
  | unused {index : Nat} {pointers : List Nat} : ¬index < maxSize →
      Effect maxSize assertions slots tid ⟨.isUsed index, pointers⟩ slots ⟨.tryUse 0, pointers⟩
  | taken {index : Nat} {pointers : List Nat} : index < maxSize → (slots index).tid = 0 →
      Effect maxSize assertions slots tid ⟨.tryUse index, pointers⟩
        (Function.update slots index { slots index with tid := tid }) ⟨.acquire index, pointers⟩
  | occupied {index : Nat} {pointers : List Nat} : (slots index).tid ≠ 0 →
      Effect maxSize assertions slots tid ⟨.tryUse index, pointers⟩ slots
        ⟨.tryUse (index + 1), pointers⟩
  | acquire {index : Nat} {pointers : List Nat} :
      ¬(assertions = true ∧ ¬(0 ≤ (slots index).useCount ∧ (slots index).tid ≠ tid)) →
      Effect maxSize assertions slots tid ⟨.acquire index, pointers⟩ slots
        ⟨.acquireStore index (slots index).useCount, pointers⟩
  | acquireStore {index : Nat} {useCount : Int} {pointers : List Nat} :
      Effect maxSize assertions slots tid ⟨.acquireStore index useCount, pointers⟩
        (Function.update slots index { slots index with useCount := useCount + 1 })
        ⟨.idle, index :: pointers⟩
  | release {index : Nat} {pointers : List Nat} :
      Effect maxSize assertions slots tid ⟨.release index, pointers⟩ slots
        ⟨.releaseStore index (slots index).useCount, pointers⟩
  | kept {index : Nat} {useCount : Int} {pointers : List Nat} : useCount - 1 ≠ 0 →
      Effect maxSize assertions slots tid ⟨.releaseStore index useCount, pointers⟩
        (Function.update slots index { slots index with useCount := useCount - 1 })
        ⟨.idle, pointers⟩
  | last {index : Nat} {useCount : Int} {pointers : List Nat} : useCount - 1 = 0 →
      Effect maxSize assertions slots tid ⟨.releaseStore index useCount, pointers⟩
        (Function.update slots index { slots index with useCount := useCount - 1 })
        ⟨.clear index, pointers⟩
  | clear {index : Nat} {pointers : List Nat} :
      Effect maxSize assertions slots tid ⟨.clear index, pointers⟩
        (Function.update slots index { slots index with tid := 0 }) ⟨.idle, pointers⟩
  | write {pointer : Nat} {value : Data} {pointers : List Nat} : pointer ∈ pointers →
      Effect maxSize assertions slots tid ⟨.idle, pointers⟩
        (Function.update slots pointer { slots pointer with data := value }) ⟨.idle, pointers⟩
  | destroy {pointer : Nat} {pointers : List Nat} : pointer ∈ pointers →
      Effect maxSize assertions slots tid ⟨.idle, pointers⟩ slots
        ⟨.release pointer, pointers.erase pointer⟩

inductive Ends (maxSize : Nat) (assertions : Bool) (slots : Nat → TlScopedDatum Data)
    (tid : Tid) : Thread → Ending → Prop
  | acquire {index : Nat} {pointers : List Nat} : assertions = true →
      ¬(0 ≤ (slots index).useCount ∧ (slots index).tid ≠ tid) →
      Ends maxSize assertions slots tid ⟨.acquire index, pointers⟩ .assertionFailed
  | release {index : Nat} {pointers : List Nat} : assertions = true →
      ¬0 < (slots index).useCount →
      Ends maxSize assertions slots tid ⟨.release index, pointers⟩ .assertionFailed
  | runOut {index : Nat} {pointers : List Nat} : ¬index < maxSize →
      Ends maxSize assertions slots tid ⟨.tryUse index, pointers⟩ .nullDatum

theorem turn_cases {state next : TlScopedData Data} {tid : Tid}
    (taken : state.turn maxSize assertions tid = some next) :
    (∃ slots thread,
      Effect maxSize assertions state.tlScopedData tid (state.threads tid) slots thread ∧
      next = ⟨slots, Function.update state.threads tid thread, state.ended⟩) ∨
    ∃ ending, Ends maxSize assertions state.tlScopedData tid (state.threads tid) ending ∧
      next = { state with ended := some ending } := by
  unfold turn at taken
  rcases thread : state.threads tid with ⟨pc, pointers⟩
  simp only [thread] at taken
  cases pc with
  | idle => cases taken
  | isUsed index =>
      simp only at taken
      split at taken
      · split at taken <;> cases taken
        · exact .inl ⟨_, _, .found ‹_› ‹_›, by simp [setPc, setThread, thread]⟩
        · exact .inl ⟨_, _, .missed ‹_›, by simp [setPc, setThread, thread]⟩
      · cases taken
        exact .inl ⟨_, _, .unused ‹_›, by simp [setPc, setThread, thread]⟩
  | tryUse index =>
      simp only at taken
      split at taken
      · split at taken <;> cases taken
        · exact .inl ⟨_, _, .taken ‹_› ‹_›, by simp [setPc, setThread, setDatum, thread]⟩
        · exact .inl ⟨_, _, .occupied ‹_›, by simp [setPc, setThread, thread]⟩
      · cases taken
        exact .inr ⟨_, .runOut ‹_›, rfl⟩
  | acquire index =>
      simp only at taken
      split at taken <;> cases taken
      · rename_i failed
        exact .inr ⟨_, .acquire failed.1 failed.2, rfl⟩
      · exact .inl ⟨_, _, .acquire ‹_›, by simp [setPc, setThread, thread]⟩
  | acquireStore index useCount =>
      cases taken
      exact .inl ⟨_, _, .acquireStore, by simp [setThread, setDatum]⟩
  | release index =>
      simp only at taken
      split at taken <;> cases taken
      · rename_i failed
        exact .inr ⟨_, .release failed.1 failed.2, rfl⟩
      · exact .inl ⟨_, _, .release, by simp [setPc, setThread, thread]⟩
  | releaseStore index useCount =>
      simp only at taken
      cases taken
      by_cases last : useCount - 1 = 0
      · exact .inl ⟨_, _, .last last, by simp [setPc, setThread, setDatum, thread, last]⟩
      · exact .inl ⟨_, _, .kept last, by simp [setPc, setThread, setDatum, thread, last]⟩
  | clear index =>
      cases taken
      exact .inl ⟨_, _, .clear, by simp [setPc, setThread, setDatum, thread]⟩

theorem step_cases {state next : TlScopedData Data} {action : Action Data}
    (taken : state.step maxSize assertions action = some next) :
    (∃ slots thread,
      Effect maxSize assertions state.tlScopedData action.tid (state.threads action.tid) slots
        thread ∧
      next = ⟨slots, Function.update state.threads action.tid thread, state.ended⟩) ∨
    ∃ ending, Ends maxSize assertions state.tlScopedData action.tid (state.threads action.tid)
        ending ∧
      next = { state with ended := some ending } := by
  unfold step at taken
  split at taken
  · cases taken
  · cases action with
    | turn tid => exact turn_cases taken
    | get tid =>
        rcases thread : state.threads tid with ⟨pc, pointers⟩
        simp only [thread] at taken
        split at taken <;> cases taken
        rename_i isIdle
        subst isIdle
        refine .inl ⟨state.tlScopedData, ⟨.isUsed 0, pointers⟩, ?_, ?_⟩
        · simp only [Action.tid, thread]
          exact .get
        · simp [setPc, setThread, thread, Action.tid]
    | write tid pointer value =>
        rcases thread : state.threads tid with ⟨pc, pointers⟩
        simp only [thread] at taken
        split at taken <;> cases taken
        rename_i enabled
        obtain ⟨isIdle, member⟩ := enabled
        subst isIdle
        refine .inl ⟨Function.update state.tlScopedData pointer
          { state.tlScopedData pointer with data := value }, ⟨.idle, pointers⟩, ?_, ?_⟩
        · simp only [Action.tid, thread]
          exact .write member
        · simp [setDatum, Action.tid, ← thread]
    | destroy tid pointer =>
        rcases thread : state.threads tid with ⟨pc, pointers⟩
        simp only [thread] at taken
        split at taken <;> cases taken
        rename_i enabled
        obtain ⟨isIdle, member⟩ := enabled
        subst isIdle
        refine .inl ⟨state.tlScopedData, ⟨.release pointer, pointers.erase pointer⟩, ?_, ?_⟩
        · simp only [Action.tid, thread]
          exact .destroy member
        · simp [setThread, Action.tid]

def Thread.place (thread : Thread) : Place :=
  match thread.pc with
  | .idle | .isUsed _ =>
      match thread.pointers with
      | [] => outside
      | pointer :: _ => holding pointer
  | .tryUse index => trying index
  | .acquire index | .acquireStore index _ => holding index
  | .release index | .releaseStore index _ | .clear index => holding index

def Thread.uses (thread : Thread) : Int :=
  match thread.pc with
  | .release _ | .releaseStore _ _ => thread.pointers.length + 1
  | _ => thread.pointers.length

def Pc.Loaded (uses : Int) : Pc → Prop
  | .acquireStore _ useCount => useCount = uses
  | .releaseStore _ useCount => useCount = uses
  | .clear _ => uses = 0
  | _ => True

structure Keeps (maxSize : Nat) (slots : Nat → TlScopedDatum Data) (tid : Tid) (thread : Thread) :
    Prop where
  owns : ∀ index, (slots index).tid = tid ↔ thread.place = holding index
  same : ∀ pointer ∈ thread.pointers, thread.place = holding pointer
  within : ∀ index, thread.place = holding index → index < maxSize
  counted : ∀ index, thread.place = holding index → (slots index).useCount = thread.uses
  loaded : thread.pc.Loaded thread.uses
  searched : ∀ index, thread.pc = .isUsed index → ∀ earlier < index, thread.place ≠ holding earlier

def Free (slots : Nat → TlScopedDatum Data) : Prop :=
  ∀ index, (slots index).tid = 0 → (slots index).useCount = 0

theorem place_eq_of_mem {slots : Nat → TlScopedDatum Data} {tid : Tid} {thread : Thread}
    (keeps : Keeps maxSize slots tid thread) {first second : Nat}
    (firstMember : first ∈ thread.pointers) (secondMember : second ∈ thread.pointers) :
    first = second := by
  have same := (keeps.same first firstMember).symm.trans (keeps.same second secondMember)
  cases same
  rfl

theorem Effect.frame {slots after : Nat → TlScopedDatum Data} {tid : Tid} {thread next : Thread}
    (effect : Effect maxSize assertions slots tid thread after next)
    (keeps : Keeps maxSize slots tid thread)
    (index : Nat) :
    after index = slots index ∨
      ((slots index).tid = 0 ∨ (slots index).tid = tid) ∧
        ((after index).tid = 0 ∨ (after index).tid = tid) := by
  have owned : ∀ {place : Nat}, thread.place = holding place → (slots place).tid = tid :=
    fun held => (keeps.owns _).mpr held
  cases effect with
  | get | found | missed | unused | occupied | acquire | release | destroy => exact .inl rfl
  | @taken place _ _ free =>
      by_cases changed : index = place
      · subst changed
        exact .inr ⟨.inl free, .inr (by rw [Function.update_self])⟩
      · exact .inl (Function.update_of_ne changed _ _)
  | @acquireStore place useCount _ | @kept place useCount _ | @last place useCount _ =>
      by_cases changed : index = place
      · subst changed
        have mine := owned rfl
        exact .inr ⟨.inr mine, .inr (by rw [Function.update_self]; exact mine)⟩
      · exact .inl (Function.update_of_ne changed _ _)
  | @clear place _ =>
      by_cases changed : index = place
      · subst changed
        exact .inr ⟨.inr (owned rfl), .inl (by rw [Function.update_self])⟩
      · exact .inl (Function.update_of_ne changed _ _)
  | @write pointer value pointers member =>
      by_cases changed : index = pointer
      · subst changed
        have mine := owned (keeps.same index member)
        exact .inr ⟨.inr mine, .inr (by rw [Function.update_self]; exact mine)⟩
      · exact .inl (Function.update_of_ne changed _ _)

section Frame

variable {slots after : Nat → TlScopedDatum Data} {tid other : Tid} {thread next : Thread}

theorem Effect.tid_other (effect : Effect maxSize assertions slots tid thread after next)
    (keeps : Keeps maxSize slots tid thread) (differ : other ≠ tid) (index : Nat) :
    (after index).tid = other ↔ (slots index).tid = other := by
  have positive := other.property
  have apart : (other : Nat) ≠ tid := fun same => differ (Subtype.ext same)
  rcases effect.frame keeps index with same | ⟨before, later⟩
  · rw [same]
  · omega

theorem Effect.datum_other (effect : Effect maxSize assertions slots tid thread after next)
    (keeps : Keeps maxSize slots tid thread) (differ : other ≠ tid) {index : Nat}
    (owned : (slots index).tid = other) : after index = slots index := by
  have positive := other.property
  have apart : (other : Nat) ≠ tid := fun same => differ (Subtype.ext same)
  rcases effect.frame keeps index with same | ⟨before, later⟩
  · exact same
  · omega

theorem Keeps.undisturbed {bystander : Thread} (bystands : Keeps maxSize slots other bystander)
    (effect : Effect maxSize assertions slots tid thread after next)
    (keeps : Keeps maxSize slots tid thread)
    (differ : other ≠ tid) : Keeps maxSize after other bystander where
  owns := fun index => (effect.tid_other keeps differ index).trans (bystands.owns index)
  same := bystands.same
  within := bystands.within
  counted := by
    intro index held
    rw [effect.datum_other keeps differ ((bystands.owns index).mpr held)]
    exact bystands.counted index held
  loaded := bystands.loaded
  searched := bystands.searched

end Frame

section Own

variable {slots after : Nat → TlScopedDatum Data} {tid : Tid} {thread next : Thread}

theorem Keeps.stay (keeps : Keeps maxSize slots tid thread)
    (sameTids : ∀ index, (after index).tid = (slots index).tid)
    (samePlace : next.place = thread.place)
    (counted : ∀ index, thread.place = holding index → (after index).useCount = next.uses)
    (fewer : ∀ pointer ∈ next.pointers, thread.place = holding pointer)
    (loaded : next.pc.Loaded next.uses)
    (searched : ∀ index, next.pc = .isUsed index → ∀ earlier < index,
      thread.place ≠ holding earlier) :
    Keeps maxSize after tid next where
  owns := fun index => by rw [sameTids, samePlace]; exact keeps.owns index
  same := fun pointer member => samePlace.trans (fewer pointer member)
  within := fun index held => keeps.within index (samePlace.symm.trans held)
  counted := fun index held => counted index (samePlace.symm.trans held)
  loaded := loaded
  searched := fun index atIndex earlier before =>
    samePlace ▸ searched index atIndex earlier before

theorem tid_update_useCount (slots : Nat → TlScopedDatum Data) (place : Nat) (useCount : Int)
    (index : Nat) :
    (Function.update slots place { slots place with useCount := useCount } index).tid =
      (slots index).tid := by
  by_cases changed : index = place
  · rw [changed, Function.update_self]
  · rw [Function.update_of_ne changed]

theorem tid_update_data (slots : Nat → TlScopedDatum Data) (place : Nat) (data : Data)
    (index : Nat) :
    (Function.update slots place { slots place with data := data } index).tid =
      (slots index).tid ∧
    (Function.update slots place { slots place with data := data } index).useCount =
      (slots index).useCount := by
  by_cases changed : index = place
  · rw [changed, Function.update_self]
    exact ⟨rfl, rfl⟩
  · rw [Function.update_of_ne changed]
    exact ⟨rfl, rfl⟩

theorem place_idle {pointers : List Nat} {index : Nat} (nonempty : pointers ≠ [])
    (same : ∀ pointer ∈ pointers, holding index = holding pointer) :
    (⟨.idle, pointers⟩ : Thread).place = holding index := by
  cases pointers with
  | nil => exact absurd rfl nonempty
  | cons pointer rest => exact (same pointer List.mem_cons_self).symm

theorem place_missed (keeps : Keeps maxSize slots tid thread) {index : Nat}
    (atIndex : thread.pc = .isUsed index) (past : ¬index < maxSize) (place : Nat) :
    thread.place ≠ holding place := by
  intro held
  have inside := keeps.within place held
  exact keeps.searched index atIndex place (by omega) held

section Turns

variable {index : Nat} {useCount : Int} {pointers : List Nat}

theorem Keeps.get (keeps : Keeps maxSize slots tid ⟨.idle, pointers⟩) :
    Keeps maxSize slots tid ⟨.isUsed 0, pointers⟩ := by
  refine keeps.stay (fun _ => rfl) rfl keeps.counted keeps.same trivial ?_
  rintro index atIndex earlier before
  cases atIndex
  omega

theorem Keeps.found (keeps : Keeps maxSize slots tid ⟨.isUsed index, pointers⟩)
    (mine : (slots index).tid = tid) : Keeps maxSize slots tid ⟨.acquire index, pointers⟩ := by
  have held := (keeps.owns _).mp mine
  exact keeps.stay (fun _ => rfl) held.symm keeps.counted keeps.same trivial
    (by rintro place atPlace; cases atPlace)

theorem Keeps.missed (keeps : Keeps maxSize slots tid ⟨.isUsed index, pointers⟩)
    (other : (slots index).tid ≠ tid) :
    Keeps maxSize slots tid ⟨.isUsed (index + 1), pointers⟩ := by
  refine keeps.stay (fun _ => rfl) rfl keeps.counted keeps.same trivial ?_
  rintro place atPlace earlier before held
  cases atPlace
  rcases Nat.lt_or_ge earlier index with below | above
  · exact keeps.searched index rfl earlier below held
  · obtain rfl : earlier = index := by omega
    exact other ((keeps.owns earlier).mpr held)

theorem Keeps.unused (keeps : Keeps maxSize slots tid ⟨.isUsed index, pointers⟩)
    (past : ¬index < maxSize) : Keeps maxSize slots tid ⟨.tryUse 0, pointers⟩ := by
  have missed := place_missed keeps rfl past
  refine ⟨?_, ?_, ?_, ?_, trivial, ?_⟩
  · intro place
    exact iff_of_false (fun mine => missed place ((keeps.owns place).mp mine)) Place.noConfusion
  · intro pointer member
    exact absurd (keeps.same pointer member) (missed pointer)
  · rintro place held
    cases held
  · rintro place held
    cases held
  · rintro place atPlace
    cases atPlace

theorem Keeps.taken (keeps : Keeps maxSize slots tid ⟨.tryUse index, pointers⟩)
    (free : Free slots) (inside : index < maxSize) (unheld : (slots index).tid = 0) :
    Keeps maxSize (Function.update slots index { slots index with tid := tid }) tid
      ⟨.acquire index, pointers⟩ := by
  have noPointers : ∀ pointer, pointer ∉ pointers := by
    intro pointer member
    cases keeps.same pointer member
  obtain rfl : pointers = [] := List.eq_nil_iff_forall_not_mem.mpr noPointers
  refine ⟨?_, ?_, ?_, ?_, trivial, ?_⟩
  · intro place
    by_cases changed : place = index
    · subst changed
      rw [Function.update_self]
      exact iff_of_true rfl rfl
    · rw [Function.update_of_ne changed]
      refine iff_of_false (fun mine => ?_) (fun held => ?_)
      · cases (keeps.owns place).mp mine
      · cases held
        exact changed rfl
  · intro pointer member
    cases member
  · rintro place held
    cases held
    exact inside
  · rintro place held
    cases held
    rw [Function.update_self]
    exact free index unheld
  · rintro place atPlace
    cases atPlace

theorem Keeps.occupied (keeps : Keeps maxSize slots tid ⟨.tryUse index, pointers⟩) :
    Keeps maxSize slots tid ⟨.tryUse (index + 1), pointers⟩ := by
  refine ⟨?_, ?_, ?_, ?_, trivial, ?_⟩
  · intro place
    refine iff_of_false (fun mine => ?_) Place.noConfusion
    cases (keeps.owns place).mp mine
  · intro pointer member
    cases keeps.same pointer member
  · rintro place held
    cases held
  · rintro place held
    cases held
  · rintro place atPlace
    cases atPlace

theorem Keeps.acquire (keeps : Keeps maxSize slots tid ⟨.acquire index, pointers⟩) :
    Keeps maxSize slots tid ⟨.acquireStore index (slots index).useCount, pointers⟩ := by
  refine keeps.stay (fun _ => rfl) rfl keeps.counted keeps.same (keeps.counted index rfl) ?_
  rintro place atPlace
  cases atPlace

theorem Keeps.acquireStore (keeps : Keeps maxSize slots tid ⟨.acquireStore index useCount, pointers⟩) :
    Keeps maxSize (Function.update slots index { slots index with useCount := useCount + 1 }) tid
      ⟨.idle, index :: pointers⟩ := by
  refine keeps.stay (tid_update_useCount slots index _) rfl ?_ ?_ trivial ?_
  · rintro place held
    cases held
    have stored : useCount = pointers.length := keeps.loaded
    rw [Function.update_self]
    simp [Thread.uses, stored]
  · intro pointer member
    rcases List.mem_cons.mp member with rfl | earlier
    · rfl
    · exact keeps.same pointer earlier
  · rintro place atPlace
    cases atPlace

theorem Keeps.release (keeps : Keeps maxSize slots tid ⟨.release index, pointers⟩) :
    Keeps maxSize slots tid ⟨.releaseStore index (slots index).useCount, pointers⟩ := by
  refine keeps.stay (fun _ => rfl) rfl keeps.counted keeps.same (keeps.counted index rfl) ?_
  rintro place atPlace
  cases atPlace

theorem Keeps.kept (keeps : Keeps maxSize slots tid ⟨.releaseStore index useCount, pointers⟩)
    (more : useCount - 1 ≠ 0) :
    Keeps maxSize (Function.update slots index { slots index with useCount := useCount - 1 }) tid
      ⟨.idle, pointers⟩ := by
  have stored : useCount = pointers.length + 1 := keeps.loaded
  have nonempty : pointers ≠ [] := by
    rintro rfl
    exact more (by rw [stored]; rfl)
  refine keeps.stay (tid_update_useCount slots index _) (place_idle nonempty keeps.same) ?_
    keeps.same trivial ?_
  · rintro place held
    cases held
    rw [Function.update_self]
    simp [Thread.uses, stored]
  · rintro place atPlace
    cases atPlace

theorem Keeps.last (keeps : Keeps maxSize slots tid ⟨.releaseStore index useCount, pointers⟩)
    (none : useCount - 1 = 0) :
    Keeps maxSize (Function.update slots index { slots index with useCount := useCount - 1 }) tid
      ⟨.clear index, pointers⟩ := by
  have stored : useCount = pointers.length + 1 := keeps.loaded
  refine keeps.stay (tid_update_useCount slots index _) rfl ?_ keeps.same ?_ ?_
  · rintro place held
    cases held
    rw [Function.update_self]
    simp [Thread.uses, stored]
  · show (pointers.length : Int) = 0
    omega
  · rintro place atPlace
    cases atPlace

theorem Keeps.clear (keeps : Keeps maxSize slots tid ⟨.clear index, pointers⟩) :
    Keeps maxSize (Function.update slots index { slots index with tid := 0 }) tid
      ⟨.idle, pointers⟩ := by
  have positive := tid.property
  have empty : (pointers.length : Int) = 0 := keeps.loaded
  obtain rfl : pointers = [] := List.length_eq_zero_iff.mp (by omega)
  refine ⟨?_, ?_, ?_, ?_, trivial, ?_⟩
  · intro place
    by_cases changed : place = index
    · subst changed
      rw [Function.update_self]
      exact iff_of_false (by simp only; omega) Place.noConfusion
    · rw [Function.update_of_ne changed]
      refine iff_of_false (fun mine => changed ?_) Place.noConfusion
      cases (keeps.owns place).mp mine
      rfl
  · intro pointer member
    cases member
  · rintro place held
    cases held
  · rintro place held
    cases held
  · rintro place atPlace
    cases atPlace

theorem Keeps.write (keeps : Keeps maxSize slots tid ⟨.idle, pointers⟩) (pointer : Nat)
    (value : Data) :
    Keeps maxSize (Function.update slots pointer { slots pointer with data := value }) tid
      ⟨.idle, pointers⟩ := by
  refine keeps.stay (fun index => (tid_update_data slots pointer value index).1) rfl ?_ keeps.same
    trivial ?_
  · intro index held
    rw [(tid_update_data slots pointer value index).2]
    exact keeps.counted index held
  · rintro place atPlace
    cases atPlace

theorem Keeps.destroy (keeps : Keeps maxSize slots tid ⟨.idle, pointers⟩) {pointer : Nat}
    (member : pointer ∈ pointers) :
    Keeps maxSize slots tid ⟨.release pointer, pointers.erase pointer⟩ := by
  have held := keeps.same pointer member
  refine keeps.stay (fun _ => rfl) held.symm ?_ ?_ trivial ?_
  · intro index owned
    rw [keeps.counted index owned]
    simp only [Thread.uses]
    have shorter := List.length_erase_of_mem member
    have positiveLength := List.length_pos_of_mem member
    omega
  · intro other remains
    exact keeps.same other (List.mem_of_mem_erase remains)
  · rintro place atPlace
    cases atPlace

end Turns

/-- The thread's own step: which datum it has changes in `tryUse` and in the last `release` only. -/
theorem Keeps.effect (keeps : Keeps maxSize slots tid thread)
    (effect : Effect maxSize assertions slots tid thread after next) (free : Free slots) :
    Keeps maxSize after tid next := by
  cases effect with
  | get => exact keeps.get
  | found _ mine => exact keeps.found mine
  | missed other => exact keeps.missed other
  | unused past => exact keeps.unused past
  | taken inside unheld => exact keeps.taken free inside unheld
  | occupied _ => exact keeps.occupied
  | acquire _ => exact keeps.acquire
  | acquireStore => exact keeps.acquireStore
  | release => exact keeps.release
  | kept more => exact keeps.kept more
  | last none => exact keeps.last none
  | clear => exact keeps.clear
  | @write pointer value _ _ => exact keeps.write pointer value
  | destroy member => exact keeps.destroy member

theorem Free.update (free : Free slots) {place : Nat} {datum : TlScopedDatum Data}
    (settled : datum.tid = 0 → datum.useCount = 0) : Free (Function.update slots place datum) := by
  intro index unheld
  by_cases changed : index = place
  · rw [changed, Function.update_self] at unheld ⊢
    exact settled unheld
  · rw [Function.update_of_ne changed] at unheld ⊢
    exact free index unheld

theorem Free.effect (free : Free slots) (keeps : Keeps maxSize slots tid thread)
    (effect : Effect maxSize assertions slots tid thread after next) : Free after := by
  have positive := tid.property
  have owned : ∀ {place : Nat}, thread.place = holding place → (slots place).tid ≠ 0 := by
    intro place held
    rw [(keeps.owns place).mpr held]
    omega
  cases effect with
  | get | found | missed | unused | occupied | acquire | release | destroy => exact free
  | taken => exact free.update fun unheld => absurd unheld (by simp only; omega)
  | acquireStore => exact free.update fun unheld => absurd unheld (owned rfl)
  | kept => exact free.update fun unheld => absurd unheld (owned rfl)
  | last => exact free.update fun unheld => absurd unheld (owned rfl)
  | write member => exact free.update fun unheld => absurd unheld (owned (keeps.same _ member))
  | clear =>
      refine free.update fun _ => ?_
      have uses := keeps.counted _ rfl
      have empty := keeps.loaded
      exact uses.trans empty

/-- Seen from the array, a step of a thread is a move of its search for a datum, or no move. -/
theorem Effect.place (effect : Effect maxSize assertions slots tid thread after next)
    (keeps : Keeps maxSize slots tid thread) {threads : Tid → Thread} (own : threads tid = thread)
    (all : ∀ other, Keeps maxSize slots other (threads other)) :
    next.place = thread.place ∨ Move (fun other => (threads other).place) tid next.place := by
  cases effect with
  | get | missed | acquire | acquireStore | release | last | write => exact .inl rfl
  | found inside mine => exact .inl ((keeps.owns _).mp mine).symm
  | @unused index pointers past =>
      refine .inr (.enter ?_)
      show (threads tid).place = outside
      rw [own]
      have missed := place_missed keeps rfl past
      cases pointers with
      | nil => rfl
      | cons pointer rest => exact absurd rfl (missed pointer)
  | @taken index pointers inside unheld =>
      refine .inr (.take (by rw [own]; rfl) ?_)
      intro other held
      have positive := other.property
      have mine := ((all other).owns index).mpr held
      omega
  | @occupied index pointers taken =>
      let other : Tid := ⟨(slots index).tid, Nat.pos_of_ne_zero taken⟩
      have held := ((all other).owns index).mp rfl
      exact .inr (.pass (by rw [own]; rfl) held)
  | @kept index useCount pointers more =>
      have stored : useCount = pointers.length + 1 := keeps.loaded
      have nonempty : pointers ≠ [] := by
        rintro rfl
        exact more (by rw [stored]; rfl)
      exact .inl (place_idle nonempty keeps.same)
  | @clear index pointers =>
      have empty : (pointers.length : Int) = 0 := keeps.loaded
      obtain rfl : pointers = [] := List.length_eq_zero_iff.mp (by omega)
      have held : (threads tid).place = .holding index := by rw [own]; rfl
      exact .inr (.leave held)
  | destroy member => exact .inl (keeps.same _ member).symm

end Own

structure Sound (maxSize : Nat) (state : TlScopedData Data) : Prop where
  keeps : ∀ tid, Keeps maxSize state.tlScopedData tid (state.threads tid)
  free : Free state.tlScopedData

theorem sound_new (maxSize : Nat) (data : Data) : Sound maxSize (TlScopedData.new data) where
  keeps := fun tid =>
    { owns := fun index => by
        have positive := tid.property
        exact iff_of_false (by simp only [TlScopedData.new, TlScopedDatum.new]; omega)
          Place.noConfusion
      same := fun _ member => by cases member
      within := fun _ held => by cases held
      counted := fun _ held => by cases held
      loaded := trivial
      searched := fun _ atIndex => by cases atIndex }
  free := fun _ _ => rfl

theorem Sound.step {state next : TlScopedData Data} {action : Action Data}
    (sound : Sound maxSize state)
    (taken : state.step maxSize assertions action = some next) : Sound maxSize next := by
  rcases step_cases taken with ⟨slots, thread, effect, rfl⟩ | ⟨ending, _, rfl⟩
  · have keeps := sound.keeps action.tid
    refine ⟨?_, sound.free.effect keeps effect⟩
    intro other
    by_cases own : other = action.tid
    · subst own
      simp only [Function.update_self]
      exact keeps.effect effect sound.free
    · simp only [Function.update_of_ne own]
      exact (sound.keeps other).undisturbed effect keeps own
  · exact ⟨sound.keeps, sound.free⟩

end Xpedite.Intercept
