import Mathlib.Data.List.Perm.Basic
import Xpedite.Txn.OutlineCore

/-!
Facts about outlines: a thread leaves no segment open, what was closed before a
thread is not touched by it, and every counter is in exactly one place.
-/

namespace Xpedite.Txn

namespace Outline

variable (probeMap : Probe → Probe)

theorem loadThread_idle (outline : Outline) (thread : Thread) :
    (outline.loadThread probeMap thread).current = none := by
  simp only [loadThread, endLoad]
  split
  · rfl
  · assumption

theorem loadThreads_idle (outline : Outline) (idle : outline.current = none)
    (threads : List Thread) : (outline.loadThreads probeMap threads).current = none := by
  induction threads generalizing outline with
  | nil => exact idle
  | cons thread rest ih => exact ih _ (loadThread_idle probeMap outline thread)

def after (closed : List (Segment × Fate)) (stray : List Counter) (later : Outline) : Outline :=
  { later with closed := closed ++ later.closed, stray := stray ++ later.stray }

variable (closed : List (Segment × Fate)) (stray : List Counter)

theorem loadCounter_after (tlsAddr : Str) (role : Role) (later : Outline) (counter : Counter) :
    (after closed stray later).loadCounter tlsAddr role counter =
      after closed stray (later.loadCounter tlsAddr role counter) := by
  cases isOpen : later.current with
  | none => cases role <;> simp [loadCounter, after, isOpen, openSegment, close]
  | some segment =>
      cases bounded : segment.bounded <;> cases role <;>
        simp [loadCounter, after, isOpen, openSegment, close, bounded]

theorem loadCounters_after (tlsAddr : Str) (later : Outline) (counters : List Counter) :
    (after closed stray later).loadCounters probeMap tlsAddr counters =
      after closed stray (later.loadCounters probeMap tlsAddr counters) := by
  induction counters generalizing later with
  | nil => rfl
  | cons counter rest ih =>
      simp only [loadCounters, List.foldl_cons, loadCounter_after]
      exact ih _

theorem endLoad_after (later : Outline) :
    (after closed stray later).endLoad = after closed stray later.endLoad := by
  cases isOpen : later.current <;> simp [endLoad, after, isOpen, close]

theorem loadThread_after (later : Outline) (thread : Thread) :
    (after closed stray later).loadThread probeMap thread =
      after closed stray (later.loadThread probeMap thread) := by
  simp only [loadThread, loadCounters_after, endLoad_after]

/-- What a thread adds to an outline depends only on the loose counters left before it. -/
def fresh (loose : List Counter) : Outline := ⟨[], none, loose, []⟩

theorem loadThread_fresh (outline : Outline) (idle : outline.current = none) (thread : Thread) :
    outline.loadThread probeMap thread =
      after outline.closed outline.stray ((fresh outline.loose).loadThread probeMap thread) := by
  rw [← loadThread_after]
  congr 1
  obtain ⟨closed, current, loose, stray⟩ := outline
  simp only at idle
  simp [after, fresh, idle]

def held (outline : Outline) : List Counter :=
  outline.closed.flatMap (fun entry => entry.1.counters) ++
    outline.current.toList.flatMap Segment.counters ++ outline.loose ++ outline.stray

theorem loadCounter_held (tlsAddr : Str) (role : Role) (outline : Outline) (counter : Counter) :
    (outline.loadCounter tlsAddr role counter).held.Perm (counter :: outline.held) := by
  rw [List.perm_iff_count]
  intro other
  cases isOpen : outline.current with
  | none =>
      cases role <;> simp [loadCounter, isOpen, openSegment, close, held, Segment.start,
        List.count_cons] <;> omega
  | some segment =>
      cases bounded : segment.bounded <;> cases role <;>
        simp [loadCounter, isOpen, openSegment, close, held, Segment.start, Segment.add,
          Segment.bound, Segment.suspendAt, bounded, List.count_cons] <;> omega

theorem endLoad_held (outline : Outline) : outline.endLoad.held = outline.held := by
  cases isOpen : outline.current <;> simp [endLoad, isOpen, close, held]

theorem loadCounters_held (tlsAddr : Str) (outline : Outline) (counters : List Counter) :
    (outline.loadCounters probeMap tlsAddr counters).held.Perm (counters ++ outline.held) := by
  induction counters generalizing outline with
  | nil => exact .refl _
  | cons counter rest ih =>
      have tail := ih (outline.loadCounter tlsAddr (probeMap counter.probe).role counter)
      have head := loadCounter_held tlsAddr (probeMap counter.probe).role outline counter
      exact tail.trans ((head.append_left rest).trans List.perm_middle)

theorem loadThread_held (outline : Outline) (thread : Thread) :
    (outline.loadThread probeMap thread).held.Perm (thread.counters ++ outline.held) := by
  rw [loadThread, endLoad_held]
  exact loadCounters_held probeMap thread.tlsAddr outline thread.counters

theorem loadThreads_held (outline : Outline) (threads : List Thread) :
    (outline.loadThreads probeMap threads).held.Perm
      (threads.flatMap Thread.counters ++ outline.held) := by
  induction threads generalizing outline with
  | nil => exact .refl _
  | cons thread rest ih =>
      have tail := ih (outline.loadThread probeMap thread)
      have head := loadThread_held probeMap outline thread
      rw [List.flatMap_cons]
      refine tail.trans ((head.append_left _).trans ?_)
      rw [← List.append_assoc]
      exact List.perm_append_comm.append_right _

end Outline

end Xpedite.Txn
