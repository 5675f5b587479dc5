import Mathlib.Logic.Function.Basic
import Xpedite.Lib.Runs

/-!
`TlScopedDatum.H`: data of threads in an array of a fixed size.  Every load, store and exchange
of a member of a datum is one step of a thread; a thread is known by its kernel thread id.
-/

namespace Xpedite.Intercept

abbrev Tid : Type := { tid : Nat // 0 < tid }

structure TlScopedDatum (Data : Type) where
  tid : Nat
  data : Data
  useCount : Int

def TlScopedDatum.new {Data : Type} (data : Data) : TlScopedDatum Data := ⟨0, data, 0⟩

inductive Pc where
  | idle
  | isUsed (index : Nat)
  | tryUse (index : Nat)
  | acquire (index : Nat)
  | acquireStore (index : Nat) (useCount : Int)
  | release (index : Nat)
  | releaseStore (index : Nat) (useCount : Int)
  | clear (index : Nat)
  deriving DecidableEq

/-- `pointers` has the places of the data that the pointers of the thread refer to; one that is
moved from or null is not among them. -/
structure Thread where
  pc : Pc
  pointers : List Nat
  deriving DecidableEq

def Thread.new : Thread := ⟨.idle, []⟩

inductive Ending where
  | assertionFailed
  | nullDatum
  deriving DecidableEq

structure TlScopedData (Data : Type) where
  tlScopedData : Nat → TlScopedDatum Data
  threads : Tid → Thread
  ended : Option Ending

/--
`get` and `destroy` enter `TlScopedData::get` and the destructor of a pointer, `write` stores
through `operator->`, and `turn` is the next step of a thread that has entered one of them.
-/
inductive Action (Data : Type) where
  | get (tid : Tid)
  | turn (tid : Tid)
  | write (tid : Tid) (pointer : Nat) (value : Data)
  | destroy (tid : Tid) (pointer : Nat)

def Action.tid {Data : Type} : Action Data → Tid
  | get tid => tid
  | turn tid => tid
  | write tid _ _ => tid
  | destroy tid _ => tid

namespace TlScopedData

variable {Data : Type}

def new (data : Data) : TlScopedData Data := ⟨fun _ => .new data, fun _ => .new, none⟩

def setThread (state : TlScopedData Data) (tid : Tid) (thread : Thread) : TlScopedData Data :=
  { state with threads := Function.update state.threads tid thread }

def setPc (state : TlScopedData Data) (tid : Tid) (pc : Pc) : TlScopedData Data :=
  state.setThread tid { state.threads tid with pc := pc }

def setDatum (state : TlScopedData Data) (index : Nat) (datum : TlScopedDatum Data) :
    TlScopedData Data :=
  { state with tlScopedData := Function.update state.tlScopedData index datum }

section Step

variable (maxSize : Nat) (assertions : Bool)

def turn (state : TlScopedData Data) (tid : Tid) : Option (TlScopedData Data) :=
  let thread := state.threads tid
  match thread.pc with
  | .idle => none
  | .isUsed index =>
      if index < maxSize then
        if (state.tlScopedData index).tid = tid then some (state.setPc tid (.acquire index))
        else some (state.setPc tid (.isUsed (index + 1)))
      else some (state.setPc tid (.tryUse 0))
  | .tryUse index =>
      if index < maxSize then
        if (state.tlScopedData index).tid = 0 then
          some ((state.setDatum index { state.tlScopedData index with tid := tid }).setPc tid
            (.acquire index))
        else some (state.setPc tid (.tryUse (index + 1)))
      else some { state with ended := some .nullDatum }
  | .acquire index =>
      let datum := state.tlScopedData index
      if assertions ∧ ¬(0 ≤ datum.useCount ∧ datum.tid ≠ tid) then
        some { state with ended := some .assertionFailed }
      else some (state.setPc tid (.acquireStore index datum.useCount))
  | .acquireStore index useCount =>
      let datum := { state.tlScopedData index with useCount := useCount + 1 }
      some ((state.setDatum index datum).setThread tid ⟨.idle, index :: thread.pointers⟩)
  | .release index =>
      let datum := state.tlScopedData index
      if assertions ∧ ¬0 < datum.useCount then some { state with ended := some .assertionFailed }
      else some (state.setPc tid (.releaseStore index datum.useCount))
  | .releaseStore index useCount =>
      some ((state.setDatum index { state.tlScopedData index with useCount := useCount - 1 }).setPc
        tid (if useCount - 1 = 0 then .clear index else .idle))
  | .clear index =>
      some ((state.setDatum index { state.tlScopedData index with tid := 0 }).setPc tid .idle)

def step (state : TlScopedData Data) : Action Data → Option (TlScopedData Data)
  | action =>
      if state.ended.isSome then none
      else
        match action with
        | .turn tid => state.turn maxSize assertions tid
        | .get tid =>
            if (state.threads tid).pc = .idle then some (state.setPc tid (.isUsed 0)) else none
        | .write tid pointer value =>
            if (state.threads tid).pc = .idle ∧ pointer ∈ (state.threads tid).pointers then
              some (state.setDatum pointer { state.tlScopedData pointer with data := value })
            else none
        | .destroy tid pointer =>
            if (state.threads tid).pc = .idle ∧ pointer ∈ (state.threads tid).pointers then
              some (state.setThread tid
                ⟨.release pointer, (state.threads tid).pointers.erase pointer⟩)
            else none

end Step

end TlScopedData

end Xpedite.Intercept
