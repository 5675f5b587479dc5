import Xpedite.Lib.Leaves

/-!
The ways down a graph from a list of nodes, in depth-first order.  A way down ends at
a node without children.
-/

namespace Xpedite.Lib

variable {α β : Type*}

def walks (children : α → List α) : Nat → List α → List (List α)
  | 0, _ => []
  | _ + 1, [] => [[]]
  | fuel + 1, node :: rest =>
      (node :: rest).flatMap fun n => (walks children fuel (children n)).map (n :: ·)

variable (children : α → List α)

/-- The path leads from one of the nodes down to a node without children. -/
def Descends : List α → List α → Prop
  | nodes, [] => nodes = []
  | nodes, node :: rest => node ∈ nodes ∧ Descends (children node) rest

/-- At the first nodes in which they differ, the one path goes to an earlier child. -/
def Earlier : List α → List α → List α → Prop
  | nodes, node :: rest, other :: rest' =>
      [node, other].Sublist nodes ∨ (node = other ∧ Earlier (children node) rest rest')
  | _, _, _ => False

variable {children}

theorem walks_of_mem {fuel : Nat} {nodes : List α} {node : α} (member : node ∈ nodes) :
    walks children (fuel + 1) nodes =
      nodes.flatMap fun n => (walks children fuel (children n)).map (n :: ·) := by
  cases nodes with
  | nil => simp at member
  | cons first rest => rfl

theorem leaves_eq_map_walks (step : β → α → β) (fuel : Nat) (value : β) (nodes : List α) :
    leaves children step fuel value nodes =
      (walks children fuel nodes).map fun path => path.foldl step value := by
  induction fuel generalizing value nodes with
  | zero => rfl
  | succ fuel ih =>
      cases nodes with
      | nil => rfl
      | cons node rest =>
          rw [leaves, walks, List.map_flatMap]
          apply List.flatMap_congr
          intro other _
          rw [ih, List.map_map]
          rfl

theorem mem_walks {fuel : Nat} {nodes path : List α} (fits : Fits children fuel nodes) :
    path ∈ walks children fuel nodes ↔ Descends children nodes path := by
  induction fuel generalizing nodes path with
  | zero => exact absurd fits id
  | succ fuel ih =>
      cases path with
      | nil =>
          rw [Descends]
          cases nodes <;> simp [walks]
      | cons node rest =>
          rw [Descends]
          constructor
          · intro isWalk
            cases nodes with
            | nil => simp [walks] at isWalk
            | cons first others =>
                simp only [walks, List.mem_flatMap, List.mem_map, List.cons.injEq] at isWalk
                obtain ⟨top, isTop, below, isBelow, rfl, rfl⟩ := isWalk
                exact ⟨isTop, (ih (fits top isTop)).mp isBelow⟩
          · rintro ⟨isNode, descends⟩
            rw [walks_of_mem isNode]
            simp only [List.mem_flatMap, List.mem_map]
            exact ⟨node, isNode, rest, (ih (fits node isNode)).mpr descends, rfl⟩

theorem flatMap_cons_earlier {nodes : List α} {paths : α → List (List α)}
    (below : ∀ node ∈ nodes, (paths node).Pairwise (Earlier children (children node))) :
    (nodes.flatMap fun node => (paths node).map (node :: ·)).Pairwise (Earlier children nodes) := by
  rw [List.pairwise_flatMap]
  constructor
  · intro node member
    rw [List.pairwise_map]
    exact (below node member).imp fun earlier => .inr ⟨rfl, earlier⟩
  · rw [List.pairwise_iff_forall_sublist]
    intro node other sublist path isPath path' isPath'
    obtain ⟨rest, _, rfl⟩ := List.mem_map.mp isPath
    obtain ⟨rest', _, rfl⟩ := List.mem_map.mp isPath'
    exact .inl sublist

theorem walks_earlier (fuel : Nat) (nodes : List α) :
    (walks children fuel nodes).Pairwise (Earlier children nodes) := by
  induction fuel generalizing nodes with
  | zero => exact .nil
  | succ fuel ih =>
      cases nodes with
      | nil => exact List.pairwise_singleton _ _
      | cons node rest => exact flatMap_cons_earlier fun other _ => ih (children other)

theorem not_earlier_self (distinct : ∀ node, (children node).Nodup) {nodes : List α}
    (nodesDistinct : nodes.Nodup) (path : List α) : ¬Earlier children nodes path path := by
  induction path generalizing nodes with
  | nil => exact id
  | cons node rest ih =>
      rintro (twice | ⟨_, earlier⟩)
      · simpa using nodesDistinct.sublist twice
      · exact ih (distinct node) earlier

end Xpedite.Lib
