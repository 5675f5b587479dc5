import Mathlib.Data.List.Sort
import Xpedite.Lib.Arena

/-!
Transactions and the fragment store of the transaction loader
(`xpedite/txn/__init__.py` and `xpedite/txn/fragments.py`).  Python objects that
are shared and mutated live in an arena and are named by their reference; `str`
is a list of characters.
-/

namespace Xpedite.Txn

open Xpedite.Lib

abbrev Str := List Char

/-- The transaction flags of a probe.  Attributes of a probe call site may set
several of them at once. -/
structure Probe where
  canBeginTxn : Bool
  canSuspendTxn : Bool
  canResumeTxn : Bool
  canEndTxn : Bool
  deriving DecidableEq, Repr

namespace Probe

def probe : Probe := ⟨false, false, false, false⟩

def txnBeginProbe : Probe := { probe with canBeginTxn := true }

def txnSuspendProbe : Probe := { probe with canSuspendTxn := true }

def txnResumeProbe : Probe := { probe with canResumeTxn := true }

def txnEndProbe : Probe := { probe with canEndTxn := true }

end Probe

/-- A recorded sample.  `id` tells counter objects apart; a deep copy of a counter
keeps the `id` of the counter it was copied from. -/
structure Counter where
  id : Nat
  probe : Probe
  data : Str
  tsc : Nat
  deriving DecidableEq, Repr

/-- Transactions are numbered by the loader, resumed ones carry a link id until
they are joined. -/
inductive TxnId where
  | int (value : Nat)
  | str (linkId : Str)
  deriving DecidableEq, Repr

structure Transaction where
  txnId : TxnId
  counters : List Counter
  hasEndProbe : Bool
  deriving DecidableEq, Repr

namespace Transaction

def new (counter : Counter) (txnId : TxnId) : Transaction :=
  ⟨txnId, [counter], false⟩

def addCounter (counter : Counter) (isEndProbe : Bool) (txn : Transaction) : Transaction :=
  { txn with counters := txn.counters ++ [counter], hasEndProbe := txn.hasEndProbe || isEndProbe }

/-- `sorted` by tsc is stable, and so is insertion sort. -/
def sortByTsc (counters : List Counter) : List Counter :=
  counters.insertionSort (fun left right => left.tsc ≤ right.tsc)

def join (other : Transaction) (txn : Transaction) : Transaction :=
  { txn with counters := sortByTsc (txn.counters ++ other.counters) }

end Transaction

/-- `next` refers to the list object stored under `ResumeKey(linkId)`; there is one
such object for each link id, so the link id names it. -/
structure TxnFragment where
  txn : Nat
  resumeId : Option Str
  suspendId : Option Str
  next : Option Str
  deriving DecidableEq, Repr

/-- The `fragments` dictionary, split by the `resuming` flag of its keys.  An absent
list of resuming fragments and an empty one are treated alike by the source. -/
structure TxnFragments where
  fragment : Arena TxnFragment
  suspending : Str → Option Nat
  resuming : Str → List Nat
  rootFragments : List Nat

namespace TxnFragments

def new : TxnFragments :=
  ⟨Arena.empty ⟨0, none, none, none⟩, fun _ => none, fun _ => [], []⟩

def setNext (fragments : TxnFragments) (ref : Nat) (linkId : Str) : TxnFragments :=
  { fragments with
    fragment := fragments.fragment.modify ref fun fragment => { fragment with next := some linkId } }

def addResumeFragment (fragments : TxnFragments) (linkId : Str) (txn : Nat) : TxnFragments × Nat :=
  let resumeFragment := fragments.fragment.size
  let created := { fragments with
    fragment := fragments.fragment.alloc ⟨txn, some linkId, none, none⟩ }
  let linked :=
    if created.resuming linkId = [] then
      match created.suspending linkId with
      | some suspendFragment => created.setNext suspendFragment linkId
      | none => created
    else created
  ({ linked with
    resuming := Function.update linked.resuming linkId (linked.resuming linkId ++ [resumeFragment]) },
    resumeFragment)

def addSuspendFragment (fragments : TxnFragments) (linkId : Str) (txn : Nat)
    (fragment : Option Nat) : TxnFragments :=
  let (created, suspendFragment) :=
    match fragment with
    | some resumeFragment => (fragments, resumeFragment)
    | none =>
        ({ fragments with
          fragment := fragments.fragment.alloc ⟨txn, none, some linkId, none⟩
          rootFragments := fragments.rootFragments ++ [fragments.fragment.size] },
          fragments.fragment.size)
  let registered := { created with
    suspending := Function.update created.suspending linkId (some suspendFragment) }
  if registered.resuming linkId = [] then registered
  else registered.setNext suspendFragment linkId

def follow (fragments : TxnFragments) : Option Str → List Nat
  | none => []
  | some linkId => fragments.resuming linkId

def children (fragments : TxnFragments) (ref : Nat) : List Nat :=
  fragments.follow (fragments.fragment.cell ref).next

def txnOf (fragments : TxnFragments) (ref : Nat) : Nat :=
  (fragments.fragment.cell ref).txn

end TxnFragments

structure JoinState where
  heap : Arena Transaction
  nextTxnId : Nat
  txns : List Nat

namespace JoinState

def append (state : JoinState) (txn : Nat) : JoinState where
  heap := state.heap.modify txn fun t => { t with txnId := .int (state.nextTxnId + 1) }
  nextTxnId := state.nextTxnId + 1
  txns := state.txns ++ [txn]

def join (state : JoinState) (txn other : Nat) : JoinState :=
  { state with heap := state.heap.modify txn (Transaction.join (state.heap.cell other)) }

/-- `copy.deepcopy`: the copy is the object at the old `heap.size`. -/
def deepcopy (state : JoinState) (txn : Nat) : JoinState :=
  { state with heap := state.heap.alloc (state.heap.cell txn) }

end JoinState

/-- The loop of `joinFragments` over two or more fragments; `recur` stands for the
recursive call.  After the next to last fragment the clone itself is used. -/
def joinEach (fragments : TxnFragments) (recur : JoinState → Nat → List Nat → Option JoinState)
    (txnClone : Nat) : JoinState → Nat → List Nat → Option JoinState
  | state, _, [] => some state
  | state, txn, ref :: rest =>
      match recur (state.join txn (fragments.txnOf ref)) txn (fragments.children ref) with
      | none => none
      | some joined =>
          match rest with
          | _ :: _ :: _ =>
              joinEach fragments recur txnClone (joined.deepcopy txnClone) joined.heap.size rest
          | _ => joinEach fragments recur txnClone joined txnClone rest

/-- `fuel` bounds the depth of the recursion; `none` means it was not enough. -/
def joinFragments (fragments : TxnFragments) : Nat → JoinState → Nat → List Nat → Option JoinState
  | 0, _, _, _ => none
  | _ + 1, state, txn, [] => some (state.append txn)
  | fuel + 1, state, txn, [ref] =>
      joinFragments fragments fuel (state.join txn (fragments.txnOf ref)) txn (fragments.children ref)
  | fuel + 1, state, txn, first :: second :: rest =>
      joinEach fragments (joinFragments fragments fuel) state.heap.size (state.deepcopy txn) txn
        (first :: second :: rest)

def joinRoots (fragments : TxnFragments) (fuel : Nat) : JoinState → List Nat → Option JoinState
  | state, [] => some state
  | state, root :: rest =>
      match joinFragments fragments fuel state (fragments.txnOf root) (fragments.children root) with
      | none => none
      | some joined => joinRoots fragments fuel joined rest

def TxnFragments.join (fragments : TxnFragments) (fuel : Nat) (heap : Arena Transaction)
    (nextTxnId : Nat) : Option JoinState :=
  joinRoots fragments fuel ⟨heap, nextTxnId, []⟩ fragments.rootFragments

end Xpedite.Txn
