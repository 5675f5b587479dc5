import Mathlib.Data.List.Perm.Basic
import Mathlib.Data.Set.Finite.Basic
import Mathlib.Order.WellFounded

/-!
Unfolding a graph into the tree below a list of nodes.  Each leaf carries the value
folded along the way to it; `fuel` bounds the depth.
-/

namespace Xpedite.Lib

variable {α β γ : Type*}

def leaves (children : α → List α) (step : β → α → β) : Nat → β → List α → List β
  | 0, _, _ => []
  | _ + 1, value, [] => [value]
  | fuel + 1, value, node :: rest =>
      (node :: rest).flatMap fun n => leaves children step fuel (step value n) (children n)

def Fits (children : α → List α) : Nat → List α → Prop
  | 0, _ => False
  | fuel + 1, nodes => ∀ node ∈ nodes, Fits children fuel (children node)

variable (children : α → List α)

def Below (nodes : List α) (node : α) : Prop :=
  ∃ top ∈ nodes, Relation.ReflTransGen (fun parent child => child ∈ children parent) top node

variable {children} {step : β → α → β}

theorem leaves_of_mem {fuel : Nat} {value : β} {nodes : List α} {node : α} (member : node ∈ nodes) :
    leaves children step (fuel + 1) value nodes =
      nodes.flatMap fun n => leaves children step fuel (step value n) (children n) := by
  cases nodes with
  | nil => simp at member
  | cons first rest => rfl

theorem Fits.mono {fuel more : Nat} {nodes : List α} (fits : Fits children fuel nodes)
    (le : fuel ≤ more) : Fits children more nodes := by
  induction fuel generalizing more nodes with
  | zero => exact absurd fits id
  | succ fuel ih =>
      obtain ⟨extra, rfl⟩ : ∃ extra, more = extra + 1 := ⟨more - 1, by omega⟩
      intro node member
      exact ih (fits node member) (by omega)

theorem leaves_mono {fuel more : Nat} {nodes : List α} (fits : Fits children fuel nodes)
    (le : fuel ≤ more) (value : β) :
    leaves children step more value nodes = leaves children step fuel value nodes := by
  induction fuel generalizing more nodes value with
  | zero => exact absurd fits id
  | succ fuel ih =>
      obtain ⟨extra, rfl⟩ : ∃ extra, more = extra + 1 := ⟨more - 1, by omega⟩
      cases nodes with
      | nil => rfl
      | cons node rest =>
          apply List.flatMap_congr
          intro other member
          exact ih (fits other member) (by omega) _

theorem exists_fits {nodes : List α}
    (each : ∀ node ∈ nodes, ∃ fuel, Fits children fuel (children node)) :
    ∃ fuel, Fits children fuel nodes := by
  induction nodes with
  | nil => exact ⟨1, by simp [Fits]⟩
  | cons node rest ih =>
      obtain ⟨own, ownFits⟩ := each node (by simp)
      obtain ⟨others, othersFit⟩ := ih fun other member => each other (by simp [member])
      refine ⟨max (own + 1) others, ?_⟩
      obtain ⟨fuel, isSucc⟩ : ∃ fuel, max (own + 1) others = fuel + 1 :=
        ⟨max (own + 1) others - 1, by omega⟩
      have restFits := othersFit.mono (Nat.le_max_right (own + 1) others)
      rw [isSucc] at restFits ⊢
      intro other member
      rcases List.mem_cons.mp member with rfl | inRest
      · exact ownFits.mono (by omega)
      · exact restFits other inRest

theorem exists_fits_iff_acc (nodes : List α) :
    (∃ fuel, Fits children fuel nodes) ↔
      ∀ node ∈ nodes, Acc (fun child parent => child ∈ children parent) node := by
  constructor
  · rintro ⟨fuel, fits⟩
    induction fuel generalizing nodes with
    | zero => exact absurd fits id
    | succ fuel ih =>
        intro node member
        exact ⟨node, fun child isChild => ih (children node) (fits node member) child isChild⟩
  · intro accessible
    apply exists_fits
    intro node member
    have accNode := accessible node member
    clear accessible member
    induction accNode with
    | intro node _ ih => exact exists_fits ih

theorem leaves_induction {motive : β → List α → Prop}
    (down : ∀ value nodes node, motive value nodes → node ∈ nodes →
      motive (step value node) (children node))
    {fuel : Nat} {value leaf : β} {nodes : List α} (start : motive value nodes)
    (member : leaf ∈ leaves children step fuel value nodes) : motive leaf [] := by
  induction fuel generalizing value nodes with
  | zero => simp [leaves] at member
  | succ fuel ih =>
      cases nodes with
      | nil =>
          rw [leaves, List.mem_singleton] at member
          exact member ▸ start
      | cons node rest =>
          rw [leaves, List.mem_flatMap] at member
          obtain ⟨next, isNode, below⟩ := member
          exact ih (down value _ next start isNode) below

theorem Below.of_child {nodes : List α} {node below : α} (member : node ∈ nodes)
    (isBelow : Below children (children node) below) : Below children nodes below := by
  obtain ⟨child, isChild, reaches⟩ := isBelow
  exact ⟨node, member, .head isChild reaches⟩

theorem Below.of_mem {nodes : List α} {node : α} (member : node ∈ nodes) :
    Below children nodes node := ⟨node, member, .refl⟩

theorem Below.cases {nodes : List α} {node : α} (isBelow : Below children nodes node) :
    ∃ top ∈ nodes, node = top ∨ Below children (children top) node := by
  obtain ⟨top, member, reaches⟩ := isBelow
  refine ⟨top, member, ?_⟩
  rcases Relation.ReflTransGen.cases_head reaches with same | ⟨child, isChild, rest⟩
  · exact .inl same.symm
  · exact .inr ⟨child, isChild, rest⟩

theorem Below.exists_parent {top node : α} (isBelow : Below children (children top) node) :
    ∃ parent, node ∈ children parent := by
  obtain ⟨child, isChild, reaches⟩ := isBelow
  rcases Relation.ReflTransGen.cases_tail reaches with same | ⟨parent, _, isNode⟩
  · exact ⟨top, same ▸ isChild⟩
  · exact ⟨parent, isNode⟩

theorem not_below_self {node : α} (finite : Acc (fun child parent => child ∈ children parent) node) :
    ¬Below children (children node) node := by
  induction finite with
  | intro node _ ih =>
      rintro ⟨child, isChild, reaches⟩
      refine ih child isChild ?_
      rcases Relation.ReflTransGen.cases_head reaches with rfl | ⟨next, isNext, rest⟩
      · exact .of_mem isChild
      · exact ⟨next, isNext, rest.tail isChild⟩

/-- Where a bounded level goes up from each node to its children, the tree below every node is
finite. -/
theorem acc_of_rising (level : α → Nat) (bound : Nat)
    (rises : ∀ node, ∀ child ∈ children node, level node < level child ∧ level child ≤ bound)
    (node : α) : Acc (fun child parent => child ∈ children parent) node := by
  have falls : Subrelation (fun child parent => child ∈ children parent)
      (InvImage (· < ·) fun node => bound - level node) := by
    intro child parent isChild
    obtain ⟨up, below⟩ := rises parent child isChild
    simp only [InvImage]
    omega
  exact falls.wf (InvImage.wf _ Nat.lt_wfRel.wf) |>.apply node

/-- Among finitely many nodes, the tree below the root is finite where no node in it is below
itself. -/
theorem acc_iff_not_below_self {root : α}
    (finite : {node | Relation.ReflTransGen (fun parent child => child ∈ children parent) root
      node}.Finite) :
    Acc (fun child parent => child ∈ children parent) root ↔
      ∀ node, Below children (children root) node → ¬Below children (children node) node := by
  constructor
  · rintro accessible node ⟨top, isTop, reaches⟩
    refine not_below_self ?_
    induction reaches with
    | refl => exact accessible.inv isTop
    | tail _ isChild ih => exact ih.inv isChild
  · intro acyclic
    have wellFounded : WellFounded fun (lower upper : {node | Relation.ReflTransGen
        (fun parent child => child ∈ children parent) root node}) =>
          Below children (children upper.1) lower.1 := by
      have := finite.to_subtype
      refine @Finite.wellFounded_of_trans_of_irrefl _ _ _ ⟨?_⟩ ⟨?_⟩
      · rintro first second third ⟨child, isChild, reaches⟩ ⟨other, isOther, reaches'⟩
        exact ⟨other, isOther, reaches'.trans (.head isChild reaches)⟩
      · rintro ⟨node, reached⟩ isBelow
        rcases Relation.ReflTransGen.cases_head reached with rfl | ⟨top, isTop, reaches⟩
        · exact acyclic root isBelow isBelow
        · exact acyclic node ⟨top, isTop, reaches⟩ isBelow
    have all : ∀ node : {node | Relation.ReflTransGen
        (fun parent child => child ∈ children parent) root node},
        Acc (fun child parent => child ∈ children parent) node.1 := by
      intro node
      induction wellFounded.apply node with
      | intro node _ ih =>
          exact ⟨_, fun child isChild => ih ⟨child, node.2.tail isChild⟩ (.of_mem isChild)⟩
    exact all ⟨root, .refl⟩

/-- Nodes that go by names in another relation are below each other as their names are. -/
theorem below_iff_transGen {name : α → β → Prop} {follows : β → β → Prop}
    (childIff : ∀ parent label, name parent label → ∀ child, child ∈ children parent ↔
      ∃ label', name child label' ∧ follows label label')
    (named : ∀ label label', follows label label' → ∃ child, name child label')
    {root : α} {label : β} (isRoot : name root label) (node : α) :
    Below children (children root) node ↔
      ∃ label', name node label' ∧ Relation.TransGen follows label label' := by
  constructor
  · rintro ⟨top, isTop, reaches⟩
    induction reaches with
    | refl =>
        obtain ⟨label', isName, isNext⟩ := (childIff root label isRoot top).mp isTop
        exact ⟨label', isName, .single isNext⟩
    | tail _ isChild ih =>
        obtain ⟨middle, isName, reaches⟩ := ih
        obtain ⟨label', isChildName, isNext⟩ := (childIff _ middle isName _).mp isChild
        exact ⟨label', isChildName, reaches.tail isNext⟩
  · rintro ⟨label', isName, reaches⟩
    induction reaches generalizing node with
    | single isNext => exact .of_mem ((childIff root label isRoot node).mpr ⟨_, isName, isNext⟩)
    | tail before isNext ih =>
        obtain ⟨parent, isParent⟩ : ∃ parent, name parent _ := by
          rcases Relation.TransGen.tail'_iff.mp before with ⟨_, _, isLast⟩
          exact named _ _ isLast
        obtain ⟨top, isTop, down⟩ := ih parent isParent
        exact ⟨top, isTop, down.tail ((childIff parent _ isParent node).mpr ⟨_, isName, isNext⟩)⟩

section UniqueParents

variable {root : α} (rootless : ∀ parent, root ∉ children parent)
variable (unique : ∀ child parent parent',
  Relation.ReflTransGen (fun parent child => child ∈ children parent) root parent →
  Relation.ReflTransGen (fun parent child => child ∈ children parent) root parent' →
  child ∈ children parent → child ∈ children parent' → parent = parent')

include rootless unique

theorem not_below_self_of_reached {node : α}
    (reached : Relation.ReflTransGen (fun parent child => child ∈ children parent) root node) :
    ¬Below children (children node) node := by
  induction reached with
  | refl =>
      intro isBelow
      obtain ⟨parent, isChild⟩ := isBelow.exists_parent
      exact rootless parent isChild
  | @tail parent node reached isChild ih =>
      -- the cycle enters `node` through its only parent, which is then on the cycle too
      rintro ⟨first, isFirst, reaches⟩
      refine ih ⟨node, isChild, ?_⟩
      have nodeReached := reached.tail isChild
      rcases Relation.ReflTransGen.cases_tail reaches with same | ⟨above, rest, isNode⟩
      · rw [unique node parent node reached nodeReached isChild (same ▸ isFirst)]
      · have aboveReached := (nodeReached.tail isFirst).trans rest
        rw [unique node parent above reached aboveReached isChild isNode]
        exact .head isFirst rest

/-- Where each node has one parent and the root none, the tree below the root is finite if there
are finitely many nodes. -/
theorem acc_of_unique_parent
    (finite : {node | Relation.ReflTransGen (fun parent child => child ∈ children parent) root
      node}.Finite) : Acc (fun child parent => child ∈ children parent) root := by
  refine (acc_iff_not_below_self finite).mpr ?_
  rintro node ⟨top, isTop, reaches⟩
  exact not_below_self_of_reached rootless unique (.head isTop reaches)

end UniqueParents

section Items

-- `holds value item`: the value holds the item; a step adds the items of its node.
variable (holds : β → γ → Prop) {own : α → γ → Prop}
variable (adds : ∀ value node item, holds (step value node) item ↔ holds value item ∨ own node item)

include adds

theorem leaf_holds_value {fuel : Nat} {value leaf : β} {nodes : List α} {item : γ}
    (member : leaf ∈ leaves children step fuel value nodes) (held : holds value item) :
    holds leaf item :=
  leaves_induction (motive := fun value _ => holds value item)
    (fun value _ node held _ => (adds value node item).mpr (.inl held)) held member

theorem leaf_holds_only {fuel : Nat} {value leaf : β} {nodes : List α} {item : γ}
    (member : leaf ∈ leaves children step fuel value nodes) (held : holds leaf item) :
    holds value item ∨ ∃ node, Below children nodes node ∧ own node item := by
  induction fuel generalizing value nodes with
  | zero => simp [leaves] at member
  | succ fuel ih =>
      cases nodes with
      | nil =>
          rw [leaves, List.mem_singleton] at member
          exact .inl (member ▸ held)
      | cons node rest =>
          rw [leaves, List.mem_flatMap] at member
          obtain ⟨next, isNode, below⟩ := member
          rcases ih below with inStep | ⟨lower, isBelow, isOwn⟩
          · rcases (adds value next item).mp inStep with inValue | isOwn
            · exact .inl inValue
            · exact .inr ⟨next, .of_mem isNode, isOwn⟩
          · exact .inr ⟨lower, .of_child isNode isBelow, isOwn⟩

variable (step) in
omit adds in
theorem leaves_ne_nil {fuel : Nat} {nodes : List α} (fits : Fits children fuel nodes) (value : β) :
    leaves children step fuel value nodes ≠ [] := by
  induction fuel generalizing nodes value with
  | zero => exact absurd fits id
  | succ fuel ih =>
      cases nodes with
      | nil => simp [leaves]
      | cons node rest =>
          intro empty
          rw [leaves, List.flatMap_eq_nil_iff] at empty
          exact ih (fits node (by simp)) _ (empty node (by simp))

theorem leaf_holds_below {fuel : Nat} {nodes : List α} (fits : Fits children fuel nodes)
    (value : β) {node : α} {item : γ} (isBelow : Below children nodes node) (isOwn : own node item) :
    ∃ leaf ∈ leaves children step fuel value nodes, holds leaf item := by
  induction fuel generalizing nodes value with
  | zero => exact absurd fits id
  | succ fuel ih =>
      obtain ⟨top, member, place⟩ := isBelow.cases
      rw [leaves_of_mem member]
      simp only [List.mem_flatMap]
      rcases place with rfl | lower
      · obtain ⟨leaf, isLeaf⟩ := List.exists_mem_of_ne_nil _
          (leaves_ne_nil step (fits node member) (step value node))
        refine ⟨leaf, ⟨node, member, isLeaf⟩, leaf_holds_value holds adds isLeaf ?_⟩
        exact (adds value node item).mpr (.inr isOwn)
      · obtain ⟨leaf, isLeaf, held⟩ := ih (fits top member) (step value top) lower
        exact ⟨leaf, ⟨top, member, isLeaf⟩, held⟩

end Items

theorem leaves_map {α' : Type*} {children' : α' → List α'} {step' : β → α' → β} (rename : α → α')
    (good : α → Prop) (closed : ∀ node, good node → ∀ child ∈ children node, good child)
    (sameChildren : ∀ node, good node → children' (rename node) = (children node).map rename)
    (sameStep : ∀ value node, good node → step' value (rename node) = step value node)
    (fuel : Nat) (value : β) {nodes : List α} (allGood : ∀ node ∈ nodes, good node) :
    leaves children' step' fuel value (nodes.map rename) = leaves children step fuel value nodes := by
  induction fuel generalizing nodes value with
  | zero => rfl
  | succ fuel ih =>
      cases nodes with
      | nil => rfl
      | cons node rest =>
          rw [List.map_cons, leaves, leaves, ← List.map_cons, List.flatMap_map]
          apply List.flatMap_congr
          intro other member
          rw [sameStep value other (allGood other member),
            sameChildren other (allGood other member)]
          exact ih _ (closed other (allGood other member))

theorem leaves_perm {children' : α → List α} (same : ∀ node, (children node).Perm (children' node))
    (fuel : Nat) (value : β) {nodes nodes' : List α} (perm : nodes.Perm nodes') :
    (leaves children step fuel value nodes).Perm (leaves children' step fuel value nodes') := by
  induction fuel generalizing nodes nodes' value with
  | zero => exact .refl _
  | succ fuel ih =>
      cases nodes with
      | nil =>
          rw [List.nil_perm.mp perm]
          exact .refl _
      | cons node rest =>
          have member : node ∈ nodes' := perm.subset (by simp)
          rw [leaves, leaves_of_mem member]
          exact perm.flatMap fun other _ => ih _ (same other)

end Xpedite.Lib
