import Xpedite.Txn.LoaderCore

/-!
What the loader is for, without objects and references: a thread's counters fall
into segments, each opened by a begin or a resume counter.  `Outline` records the
segments in the order they were opened and what became of each.
-/

namespace Xpedite.Txn

/-- The part a probe plays.  The loader looks at the flags in this order. -/
inductive Role where
  | resumes
  | begins
  | suspends
  | ends
  | plain
  deriving DecidableEq, Repr

def Probe.role (probe : Probe) : Role :=
  if probe.canResumeTxn then .resumes
  else if probe.canBeginTxn then .begins
  else if probe.canSuspendTxn then .suspends
  else if probe.canEndTxn then .ends
  else .plain

inductive Origin where
  | begun
  | resumed (linkId : Str)
  | headless
  deriving DecidableEq, Repr

/-- A transaction under construction.  `bounded` tells that it has an end or a
suspend counter, `suspendIds` are the link ids of its suspend counters. -/
structure Segment where
  origin : Origin
  counters : List Counter
  bounded : Bool
  suspendIds : List Str
  deriving DecidableEq, Repr

namespace Segment

def start (origin : Origin) (counter : Counter) : Segment := ⟨origin, [counter], false, []⟩

def add (segment : Segment) (counter : Counter) : Segment :=
  { segment with counters := segment.counters ++ [counter] }

def bound (segment : Segment) (loose : List Counter) (counter : Counter) : Segment :=
  { segment with counters := segment.counters ++ loose ++ [counter], bounded := true }

def suspendAt (segment : Segment) (linkId : Str) : Segment :=
  { segment with suspendIds := segment.suspendIds ++ [linkId] }

def isLinked (segment : Segment) : Bool :=
  match segment.origin with
  | .resumed _ => true
  | _ => !segment.suspendIds.isEmpty

end Segment

inductive Fate where
  | intact
  | compromised
  | linked
  deriving DecidableEq, Repr

def Segment.fate (segment : Segment) : Fate :=
  if segment.isLinked then .linked else .intact

def Segment.finalFate (segment : Segment) : Fate :=
  if segment.bounded then segment.fate else .compromised

structure Outline where
  closed : List (Segment × Fate)
  current : Option Segment
  loose : List Counter
  stray : List Counter
  deriving DecidableEq, Repr

namespace Outline

def empty : Outline := ⟨[], none, [], []⟩

def segments (outline : Outline) : List Segment :=
  outline.closed.map Prod.fst ++ outline.current.toList

def openSegment (outline : Outline) (segment : Segment) : Outline :=
  { outline with current := some segment, loose := [], stray := outline.stray ++ outline.loose }

def close (outline : Outline) (segment : Segment) (fate : Fate) : Outline :=
  { outline with closed := outline.closed ++ [(segment, fate)], current := none }

def loadCounter (tlsAddr : Str) (role : Role) (outline : Outline) (counter : Counter) : Outline :=
  match outline.current, role with
  | some segment, .resumes =>
      (outline.close segment segment.fate).openSegment (.start (.resumed counter.data) counter)
  | some segment, .begins =>
      if segment.bounded then
        (outline.close segment segment.fate).openSegment (.start .begun counter)
      else { outline with current := some (segment.add counter) }
  | some segment, .suspends =>
      { outline with
        current := some ((segment.bound outline.loose counter).suspendAt
          (Loader.linkId counter.tsc tlsAddr))
        loose := [] }
  | some segment, .ends =>
      { outline with current := some (segment.bound outline.loose counter), loose := [] }
  | some segment, .plain =>
      if segment.bounded then { outline with loose := outline.loose ++ [counter] }
      else { outline with current := some (segment.add counter) }
  | none, .resumes => outline.openSegment (.start (.resumed counter.data) counter)
  | none, .begins => outline.openSegment (.start .begun counter)
  | none, .suspends | none, .ends =>
      { outline.close ⟨.headless, counter :: outline.loose, false, []⟩ .compromised with loose := [] }
  | none, .plain => { outline with loose := outline.loose ++ [counter] }

def endLoad (outline : Outline) : Outline :=
  match outline.current with
  | some segment => outline.close segment segment.finalFate
  | none => outline

variable (probeMap : Probe → Probe)

def loadCounters (tlsAddr : Str) (outline : Outline) (counters : List Counter) : Outline :=
  counters.foldl (fun o c => o.loadCounter tlsAddr (probeMap c.probe).role c) outline

def loadThread (outline : Outline) (thread : Thread) : Outline :=
  (outline.loadCounters probeMap thread.tlsAddr thread.counters).endLoad

def loadThreads (outline : Outline) (threads : List Thread) : Outline :=
  threads.foldl (loadThread probeMap) outline

end Outline

def refs (fate : Fate) (closed : List (Segment × Fate)) : List Nat :=
  closed.zipIdx.filterMap fun entry => if entry.1.2 = fate then some entry.2 else none

def Segment.resumeRef (segment : Segment) (fragments : TxnFragments) : Option Nat :=
  match segment.origin with
  | .resumed _ => some fragments.fragment.size
  | _ => none

def TxnFragments.register (fragments : TxnFragments) (segment : Segment) (txn : Nat) :
    TxnFragments :=
  match segment.origin with
  | .resumed linkId =>
      segment.suspendIds.foldl
        (fun fs l => fs.addSuspendFragment l txn (some fragments.fragment.size))
        (fragments.addResumeFragment linkId txn).1
  | .begun => segment.suspendIds.foldl (fun fs l => fs.addSuspendFragment l txn none) fragments
  | .headless => fragments

def fragmentsOf (segments : List Segment) : TxnFragments :=
  segments.zipIdx.foldl (fun fs entry => fs.register entry.1 entry.2) TxnFragments.new

end Xpedite.Txn
