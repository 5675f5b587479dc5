import Mathlib.Data.List.Nodup

/-!
Lists of nodes that hold their own links.  `Chain` follows the forward links to the end,
and `Linked` has the backward links lead from every node to the one before it.
-/

namespace Xpedite.Lib

variable {Node : Type}

theorem mem_without_iff {front back : List Node} {node : Node}
    (distinct : (front ++ node :: back).Nodup) (other : Node) :
    other ∈ front ++ back ↔ other ≠ node ∧ other ∈ front ++ node :: back := by
  obtain ⟨absent, -⟩ := List.nodup_cons.mp (List.nodup_middle.mp distinct)
  constructor
  · intro remaining
    refine ⟨fun same => absent (same ▸ remaining), ?_⟩
    exact (List.mem_append.mp remaining).elim (List.mem_append_left _)
      (fun behind => List.mem_append_right _ (List.mem_cons_of_mem _ behind))
  · rintro ⟨differs, listed⟩
    rcases List.mem_append.mp listed with before | behind
    · exact List.mem_append_left _ before
    · exact List.mem_append_right _ ((List.mem_cons.mp behind).resolve_left differs)

def Chain (next : Node → Option Node) : Option Node → List Node → Prop
  | start, [] => start = none
  | start, node :: rest => start = some node ∧ Chain next (next node) rest

def Linked (next prev : Node → Option Node) : Option Node → Option Node → List Node → Prop
  | _, start, [] => start = none
  | before, start, node :: rest =>
      start = some node ∧ prev node = before ∧ Linked next prev (some node) (next node) rest

/-- The nodes from `start` on, if there are no more of them than steps. -/
def walk (next : Node → Option Node) : Nat → Option Node → Option (List Node)
  | _, none => some []
  | 0, some _ => none
  | steps + 1, some node => (walk next steps (next node)).map (node :: ·)

theorem chain_of_walk {next : Node → Option Node} {steps : Nat} {start : Option Node}
    {nodes : List Node} (walked : walk next steps start = some nodes) : Chain next start nodes := by
  induction steps generalizing start nodes with
  | zero =>
      cases start with
      | none =>
          cases walked
          rfl
      | some node => cases walked
  | succ steps ih =>
      cases start with
      | none =>
          cases walked
          rfl
      | some node =>
          obtain ⟨rest, later, rfl⟩ := Option.map_eq_some_iff.mp walked
          exact ⟨rfl, ih later⟩

theorem walk_of_chain {next : Node → Option Node} {start : Option Node} {nodes : List Node}
    (chain : Chain next start nodes) : walk next nodes.length start = some nodes := by
  induction nodes generalizing start with
  | nil =>
      rw [show start = none from chain]
      rfl
  | cons node nodes ih =>
      obtain ⟨rfl, rest⟩ := chain
      rw [List.length_cons, walk, ih rest, Option.map_some]

/-- Nodes that lead to each other only are never left. -/
theorem not_chain_of_closed {next : Node → Option Node} {inside : Node → Prop}
    (closed : ∀ node, inside node → ∃ other, next node = some other ∧ inside other)
    {start : Node} (enters : inside start) (nodes : List Node) :
    ¬Chain next (some start) nodes := by
  induction nodes generalizing start with
  | nil =>
      intro chain
      cases chain
  | cons node nodes ih =>
      rintro ⟨same, rest⟩
      cases same
      obtain ⟨other, leads, stays⟩ := closed _ enters
      rw [leads] at rest
      exact ih stays rest

section Links

variable {next prev next' prev' : Node → Option Node} {before start : Option Node}

theorem Linked.chain {nodes : List Node} (linked : Linked next prev before start nodes) :
    Chain next start nodes := by
  induction nodes generalizing before start with
  | nil => exact linked
  | cons node nodes ih => exact ⟨linked.1, ih linked.2.2⟩

theorem Linked.congr {nodes : List Node} (linked : Linked next prev before start nodes)
    (sameNext : ∀ node ∈ nodes, next' node = next node)
    (samePrev : ∀ node ∈ nodes, prev' node = prev node) :
    Linked next' prev' before start nodes := by
  induction nodes generalizing before start with
  | nil => exact linked
  | cons node nodes ih =>
      obtain ⟨first, back, rest⟩ := linked
      refine ⟨first, (samePrev node List.mem_cons_self).trans back, ?_⟩
      rw [sameNext node List.mem_cons_self]
      exact ih rest (fun other inside => sameNext other (List.mem_cons_of_mem _ inside))
        (fun other inside => samePrev other (List.mem_cons_of_mem _ inside))

theorem Linked.next_eq {front back : List Node} {node : Node}
    (linked : Linked next prev before start (front ++ node :: back)) :
    next node = back.head? := by
  induction front generalizing before start with
  | nil =>
      obtain ⟨-, -, rest⟩ := linked
      cases back with
      | nil => exact rest
      | cons other back => exact rest.1
  | cons other front ih => exact ih linked.2.2

theorem Linked.getLast?_eq {nodes : List Node} {node : Node}
    (linked : Linked next prev before start nodes) (inside : node ∈ nodes)
    (last : next node = none) : nodes.getLast? = some node := by
  obtain ⟨front, back, rfl⟩ := List.append_of_mem inside
  have follows := linked.next_eq
  rw [last] at follows
  rw [List.head?_eq_none_iff.mp follows.symm, List.getLast?_concat]

theorem Linked.prev_eq {front back : List Node} {node : Node}
    (linked : Linked next prev before start (front ++ node :: back)) :
    (front = [] ∧ prev node = before) ∨ ∃ other ∈ front, prev node = some other := by
  induction front generalizing before start with
  | nil => exact .inl ⟨rfl, linked.2.1⟩
  | cons first front ih =>
      right
      rcases ih linked.2.2 with ⟨-, same⟩ | ⟨other, inside, same⟩
      · exact ⟨first, List.mem_cons_self, same⟩
      · exact ⟨other, List.mem_cons_of_mem _ inside, same⟩

theorem Linked.adjacent {front back : List Node} {first second : Node}
    (linked : Linked next prev before start (front ++ first :: second :: back)) :
    next first = some second ∧ prev second = some first := by
  induction front generalizing before start with
  | nil => exact ⟨linked.2.2.1, linked.2.2.2.1⟩
  | cons other front ih => exact ih linked.2.2

theorem Linked.push {node : Node} {nodes : List Node} (linked : Linked next prev none start nodes)
    (distinct : nodes.Nodup) (nextNew : next' node = start) (prevNew : prev' node = none)
    (nextKept : ∀ other ∈ nodes, next' other = next other)
    (prevHead : ∀ other, start = some other → prev' other = some node)
    (prevKept : ∀ other ∈ nodes, start ≠ some other → prev' other = prev other) :
    Linked next' prev' none (some node) (node :: nodes) := by
  refine ⟨rfl, prevNew, ?_⟩
  rw [nextNew]
  cases nodes with
  | nil => exact linked
  | cons first nodes =>
      obtain ⟨head, -, rest⟩ := linked
      refine ⟨head, prevHead first head, ?_⟩
      rw [nextKept first List.mem_cons_self]
      refine rest.congr (fun other inside => nextKept other (List.mem_cons_of_mem _ inside)) ?_
      intro other inside
      refine prevKept other (List.mem_cons_of_mem _ inside) ?_
      rw [head]
      intro same
      cases same
      exact (List.nodup_cons.mp distinct).1 inside

theorem Linked.unlink {front back : List Node} {node : Node}
    (linked : Linked next prev before start (front ++ node :: back))
    (distinct : (front ++ node :: back).Nodup)
    (outside : ∀ other ∈ front ++ node :: back, before ≠ some other)
    (nextSet : ∀ other, prev node = some other → next' other = next node)
    (nextKept : ∀ other, prev node ≠ some other → next' other = next other)
    (prevSet : ∀ other, next node = some other → prev' other = prev node)
    (prevKept : ∀ other, next node ≠ some other → prev' other = prev other) :
    Linked next' prev' before (if front = [] then next node else start) (front ++ back) := by
  induction front generalizing before start with
  | nil =>
      obtain ⟨-, previous, rest⟩ := linked
      rw [if_pos rfl, List.nil_append]
      cases back with
      | nil => exact rest
      | cons first back =>
          obtain ⟨head, -, later⟩ := rest
          have apart := List.nodup_cons.mp (List.nodup_cons.mp distinct).2
          refine ⟨head, (prevSet first head).trans previous, ?_⟩
          have unlike : ∀ other ∈ first :: back, prev node ≠ some other := by
            intro other inside
            rw [previous]
            exact outside other (List.mem_cons_of_mem _ inside)
          rw [nextKept first (unlike first List.mem_cons_self)]
          refine later.congr (fun other inside => nextKept other
            (unlike other (List.mem_cons_of_mem _ inside))) ?_
          intro other inside
          refine prevKept other ?_
          rw [head]
          intro same
          cases same
          exact apart.1 inside
  | cons first front ih =>
      obtain ⟨head, previous, rest⟩ := linked
      rw [List.cons_append] at distinct
      obtain ⟨absent, distinctRest⟩ := List.nodup_cons.mp distinct
      have later := ih rest distinctRest (by
        rintro other inside same
        cases same
        exact absent inside)
      have followed := rest.next_eq
      rw [if_neg (List.cons_ne_nil _ _)]
      refine ⟨head, ?_, ?_⟩
      · refine (prevKept first ?_).trans previous
        rw [followed]
        intro same
        refine absent (List.mem_append_right _ (List.mem_cons_of_mem _ ?_))
        exact List.mem_of_head? same
      · rcases rest.prev_eq with ⟨empty, same⟩ | ⟨other, inside, same⟩
        · rw [nextSet first same]
          rw [if_pos empty] at later
          exact later
        · have differs : prev node ≠ some first := by
            rw [same]
            intro equal
            cases equal
            exact absent (List.mem_append_left _ inside)
          rw [nextKept first differs]
          rw [if_neg (List.ne_nil_of_mem inside)] at later
          exact later

end Links

end Xpedite.Lib
