import Xpedite.Txn.TxnCore

/-!
The bounded transaction loader (`xpedite/txn/loader.py`).  The fields of the
loader object become the fields of `Loader`; transaction objects live in `heap`.
`joinedTxns` is a ghost: it counts how often `AbstractTxnLoader.appendTxn` took
the branch that joins a transaction into an existing one.
-/

namespace Xpedite.Txn

open Xpedite.Lib

structure Loader where
  processedCounterCount : Nat
  heap : Arena Transaction
  txns : List (TxnId × Nat)
  compromisedTxns : List Nat
  nonTxnCounters : List Counter
  ephemeralCounters : List Counter
  currentTxn : Option Nat
  tlsAddr : Str
  nextTxnId : Nat
  nextFragmentId : Nat
  fragments : TxnFragments
  resumeFragment : Option Nat
  suspendingTxn : Bool
  joinedTxns : Nat

namespace Loader

def new : Loader where
  processedCounterCount := 0
  heap := Arena.empty ⟨.int 0, [], false⟩
  txns := []
  compromisedTxns := []
  nonTxnCounters := []
  ephemeralCounters := []
  currentTxn := none
  tlsAddr := []
  nextTxnId := 0
  nextFragmentId := 0
  fragments := TxnFragments.new
  resumeFragment := none
  suspendingTxn := false
  joinedTxns := 0

/-- `AbstractTxnLoader.appendTxn`. -/
def insertTxn (loader : Loader) (txn : Nat) : Loader :=
  match loader.txns.find? fun entry => entry.1 == (loader.heap.cell txn).txnId with
  | some entry => { loader with
      heap := loader.heap.modify entry.2 (Transaction.join (loader.heap.cell txn))
      joinedTxns := loader.joinedTxns + 1 }
  | none => { loader with txns := loader.txns ++ [((loader.heap.cell txn).txnId, txn)] }

/-- `BoundedTxnLoader.appendTxn`. -/
def appendTxn (loader : Loader) (txn : Nat) : Loader :=
  if !(loader.resumeFragment.isSome || loader.suspendingTxn) then
    insertTxn { loader with
      nextTxnId := loader.nextTxnId + 1
      heap := loader.heap.modify txn fun t => { t with txnId := .int (loader.nextTxnId + 1) } } txn
  else loader

def buildTxn (loader : Loader) (counter : Counter) (resumeTxn : Bool) : Loader × Nat :=
  let txn := loader.heap.size
  if resumeTxn then
    let (fragments, resumeFragment) := loader.fragments.addResumeFragment counter.data txn
    ({ loader with
      suspendingTxn := false
      heap := loader.heap.alloc (Transaction.new counter (.str counter.data))
      fragments := fragments
      resumeFragment := some resumeFragment }, txn)
  else
    ({ loader with
      suspendingTxn := false
      resumeFragment := none
      nextFragmentId := loader.nextFragmentId + 1
      heap := loader.heap.alloc (Transaction.new counter (.int (loader.nextFragmentId + 1))) }, txn)

def addCounter (loader : Loader) (txn : Nat) (counter : Counter) (isEndProbe : Bool) : Loader :=
  { loader with heap := loader.heap.modify txn (Transaction.addCounter counter isEndProbe) }

def linkId (tsc : Nat) (tlsAddr : Str) : Str :=
  Nat.toDigits 16 tsc ++ tlsAddr

def discardEphemeral (loader : Loader) : Loader :=
  { loader with
    nonTxnCounters := loader.nonTxnCounters ++ loader.ephemeralCounters
    ephemeralCounters := [] }

def adoptEphemeral (loader : Loader) (txn : Nat) : Loader :=
  { loader.ephemeralCounters.foldl (fun l counter => l.addCounter txn counter false) loader with
    ephemeralCounters := [] }

def loadCurrent (loader : Loader) (txn : Nat) (userProbe : Probe) (counter : Counter) : Loader :=
  if userProbe.canBeginTxn || userProbe.canResumeTxn then
    if (loader.heap.cell txn).hasEndProbe || userProbe.canResumeTxn then
      let (built, next) := (loader.discardEphemeral.appendTxn txn).buildTxn counter userProbe.canResumeTxn
      { built with currentTxn := some next }
    else loader.addCounter txn counter false
  else if userProbe.canEndTxn || userProbe.canSuspendTxn then
    let ended := (loader.adoptEphemeral txn).addCounter txn counter true
    if userProbe.canSuspendTxn then
      { ended with
        suspendingTxn := true
        fragments := ended.fragments.addSuspendFragment (linkId counter.tsc ended.tlsAddr) txn
          ended.resumeFragment }
    else ended
  else if (loader.heap.cell txn).hasEndProbe then
    { loader with ephemeralCounters := loader.ephemeralCounters ++ [counter] }
  else loader.addCounter txn counter false

def loadIdle (loader : Loader) (userProbe : Probe) (counter : Counter) : Loader :=
  if userProbe.canBeginTxn || userProbe.canResumeTxn then
    let (built, next) := loader.buildTxn counter userProbe.canResumeTxn
    { built with currentTxn := some next }.discardEphemeral
  else if userProbe.canEndTxn || userProbe.canSuspendTxn then
    let (built, compromisedTxn) := loader.buildTxn counter false
    let adopted := built.adoptEphemeral compromisedTxn
    { adopted with compromisedTxns := adopted.compromisedTxns ++ [compromisedTxn] }
  else { loader with ephemeralCounters := loader.ephemeralCounters ++ [counter] }

/-- `probeMap` is `ProbeMap.get(probe, probe)`: the user's probe for a recorded one. -/
def loadCounter (probeMap : Probe → Probe) (loader : Loader) (counter : Counter) : Loader :=
  let counted := { loader with processedCounterCount := loader.processedCounterCount + 1 }
  let userProbe := probeMap counter.probe
  match counted.currentTxn with
  | some txn => counted.loadCurrent txn userProbe counter
  | none => counted.loadIdle userProbe counter

def beginLoad (loader : Loader) (tlsAddr : Str) : Loader :=
  { loader with tlsAddr := tlsAddr }

def endLoad (loader : Loader) : Loader :=
  match loader.currentTxn with
  | some txn =>
      let closed :=
        if (loader.heap.cell txn).hasEndProbe then loader.appendTxn txn
        else { loader with compromisedTxns := loader.compromisedTxns ++ [txn] }
      { closed with currentTxn := none }
  | none => loader

/-- `fuel` bounds the recursion of `TxnFragments.join`. -/
def endCollection (fuel : Nat) (loader : Loader) : Option Loader :=
  match loader.fragments.join fuel loader.heap loader.nextTxnId with
  | none => none
  | some joined => some (joined.txns.foldl insertTxn { loader with heap := joined.heap })

end Loader

/-- The samples of one thread, as `beginLoad` and `loadCounter` receive them. -/
structure Thread where
  tlsAddr : Str
  counters : List Counter
  deriving DecidableEq, Repr

namespace Loader

def loadThread (probeMap : Probe → Probe) (loader : Loader) (thread : Thread) : Loader :=
  (thread.counters.foldl (loadCounter probeMap) (loader.beginLoad thread.tlsAddr)).endLoad

def loadThreads (probeMap : Probe → Probe) (loader : Loader) (threads : List Thread) : Loader :=
  threads.foldl (loadThread probeMap) loader

end Loader

end Xpedite.Txn
