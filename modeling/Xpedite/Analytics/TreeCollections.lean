import Xpedite.Analytics.TreeCollectionsCore
import Xpedite.Lib.Fallible

/-!
Lookup in a composite of trees.  Adding a tree extends the map at each path by the tree's
node there, if it has one, and leaves the maps at all other paths as they are.
-/

namespace Xpedite.Analytics

open Xpedite.Lib

variable {Name TreeName Collection : Type} [DecidableEq Name]

namespace CompositeNode

/-- The map at a path after a tree was added whose node there is `node`. -/
def extended (treeName : TreeName) (before : Option (OrderedDict TreeName Collection)) :
    Option (Node Name Collection) → Option (OrderedDict TreeName Collection)
  | none => before
  | some node => some (before.getD [] ++ [(treeName, node.collection)])

def Fresh (treeName : TreeName) (node : CompositeNode Name TreeName Collection) : Prop :=
  ∀ path collectionMap, node.collectionMapAt path = some collectionMap →
    treeName ∉ OrderedDict.keys collectionMap

theorem collectionMapAt_cons (node : CompositeNode Name TreeName Collection) (name : Name)
    (path : List Name) :
    node.collectionMapAt (name :: path) =
      (OrderedDict.get name node.children).bind fun child => child.collectionMapAt path := by
  rw [collectionMapAt]
  cases OrderedDict.get name node.children <;> rfl

theorem fresh_new (treeName : TreeName) (ancestry : List Name) :
    Fresh treeName (new ancestry : CompositeNode Name TreeName Collection) := by
  intro path collectionMap found
  cases path with
  | nil =>
      cases found
      exact List.not_mem_nil
  | cons name path => cases found

theorem Fresh.child {treeName : TreeName} {node child : CompositeNode Name TreeName Collection}
    (fresh : Fresh treeName node) {name : Name}
    (present : OrderedDict.get name node.children = some child) : Fresh treeName child := by
  intro path collectionMap found
  refine fresh (name :: path) collectionMap ?_
  rw [collectionMapAt_cons, present]
  exact found

end CompositeNode

theorem Node.follow_cons (node : Node Name Collection) (name : Name) (path : List Name) :
    node.follow (name :: path) =
      (OrderedDict.get name node.children).bind fun child => child.follow path := by
  rw [follow]
  cases OrderedDict.get name node.children <;> rfl

open CompositeNode

/-- A child that the composite does not have yet counts as one without any collection. -/
theorem extended_child (treeName : TreeName) (name : Name)
    (self : CompositeNode Name TreeName Collection) (child : Node Name Collection)
    (path : List Name) :
    extended treeName (((OrderedDict.get name self.children).getD
        (.new (self.ancestry ++ [name]))).collectionMapAt path) (child.follow path) =
      extended treeName (self.collectionMapAt (name :: path)) (child.follow path) := by
  rw [collectionMapAt_cons]
  cases OrderedDict.get name self.children with
  | some compositeChild => rfl
  | none =>
      cases path with
      | nil => rfl
      | cons next path => rfl

theorem fresh_getD {treeName : TreeName} {found : Option (CompositeNode Name TreeName Collection)}
    (ancestry : List Name) (fresh : ∀ child, found = some child → Fresh treeName child) :
    Fresh treeName (found.getD (.new ancestry)) := by
  cases found with
  | some child => exact fresh child rfl
  | none => exact fresh_new treeName ancestry

/-- What a composite of some trees has to show at a path: one entry for each tree that has a
node there. -/
def collectionsAt (trees : List (TreeCollection Name TreeName Collection)) (path : List Name) :
    OrderedDict TreeName Collection :=
  trees.filterMap fun tree => (tree.getCollection path).map fun collection => (tree.name, collection)

theorem mem_names_of_mem_collectionsAt {trees : List (TreeCollection Name TreeName Collection)}
    {path : List Name} {treeName : TreeName}
    (listed : treeName ∈ OrderedDict.keys (collectionsAt trees path)) :
    treeName ∈ trees.map TreeCollection.name := by
  obtain ⟨entry, member, rfl⟩ := List.mem_map.mp listed
  obtain ⟨tree, added, shown⟩ := List.mem_filterMap.mp member
  obtain ⟨collection, found, rfl⟩ := Option.map_eq_some_iff.mp shown
  exact List.mem_map_of_mem added

theorem collectionsAt_eq_nil_iff (trees : List (TreeCollection Name TreeName Collection))
    (path : List Name) : collectionsAt trees path = [] ↔ ∀ tree ∈ trees, tree.getNode path = none := by
  rw [collectionsAt, List.filterMap_eq_nil_iff]
  simp only [TreeCollection.getCollection, Option.map_eq_none_iff]

/-- The root of a composite has a map even when no tree was added. -/
def Covers (composite : CompositeTreeCollection Name TreeName Collection)
    (trees : List (TreeCollection Name TreeName Collection)) : Prop :=
  composite.treeNames = trees.map TreeCollection.name ∧
    ∀ path, composite.getCollectionMap path =
      if path = [] ∨ collectionsAt trees path ≠ [] then some (collectionsAt trees path) else none

theorem covers_new : Covers (.new : CompositeTreeCollection Name TreeName Collection) [] := by
  refine ⟨rfl, fun path => ?_⟩
  cases path with
  | nil => rfl
  | cons name path => rfl

theorem Covers.fresh {composite : CompositeTreeCollection Name TreeName Collection}
    {trees : List (TreeCollection Name TreeName Collection)} (covers : Covers composite trees)
    {treeName : TreeName} (unused : treeName ∉ trees.map TreeCollection.name) :
    Fresh treeName composite.root := by
  intro path collectionMap found
  have shown := (covers.2 path).symm.trans found
  split at shown
  · cases shown
    exact fun listed => unused (mem_names_of_mem_collectionsAt listed)
  · cases shown

theorem extended_covered {trees : List (TreeCollection Name TreeName Collection)}
    (tree : TreeCollection Name TreeName Collection) (path : List Name) :
    extended tree.name
        (if path = [] ∨ collectionsAt trees path ≠ [] then some (collectionsAt trees path) else none)
        (tree.getNode path) =
      if path = [] ∨ collectionsAt (trees ++ [tree]) path ≠ [] then
        some (collectionsAt (trees ++ [tree]) path) else none := by
  rw [collectionsAt, collectionsAt, List.filterMap_append, List.filterMap_cons, List.filterMap_nil,
    TreeCollection.getCollection, ← collectionsAt]
  cases tree.getNode path with
  | none => simp only [extended, Option.map_none, List.append_nil]
  | some node =>
      by_cases shown : path = [] ∨ collectionsAt trees path ≠ []
      · simp [extended, if_pos shown]
      · have empty : collectionsAt trees path = [] := by
          by_contra entries
          exact shown (.inr entries)
        rw [if_neg shown]
        simp [extended, empty]

section AddNode

variable [DecidableEq TreeName]

mutual

theorem exists_addNode (treeName : TreeName) (self : CompositeNode Name TreeName Collection)
    (node : Node Name Collection) (distinct : node.Distinct) (fresh : Fresh treeName self) :
    ∃ next, self.addNode treeName node = .ok next ∧
      ∀ path, next.collectionMapAt path =
        extended treeName (self.collectionMapAt path) (node.follow path) := by
  match node with
  | .mk collection children =>
      rw [Node.Distinct] at distinct
      have absent : treeName ∉ OrderedDict.keys self.collectionMap := fresh [] _ rfl
      obtain ⟨next, added, sameMap, below⟩ := exists_addChildren treeName
        (.mk (OrderedDict.update treeName collection self.collectionMap) self.children self.ancestry)
        children distinct.1 distinct.2 fun name child _ present => fresh.child present
      refine ⟨next, ?_, ?_⟩
      · rw [addNode, if_neg absent, added]
      · intro path
        cases path with
        | nil =>
            rw [collectionMapAt, sameMap]
            exact congrArg some (OrderedDict.update_of_not_mem collection absent)
        | cons name path =>
            rw [below, Node.follow_cons, collectionMapAt_cons, collectionMapAt_cons]
            rfl
  termination_by sizeOf node

theorem exists_addChildren (treeName : TreeName) (self : CompositeNode Name TreeName Collection)
    (children : List (Name × Node Name Collection)) (nodup : (OrderedDict.keys children).Nodup)
    (distinct : ChildrenDistinct children)
    (fresh : ∀ name child, name ∈ OrderedDict.keys children →
      OrderedDict.get name self.children = some child → Fresh treeName child) :
    ∃ next, self.addChildren treeName children = .ok next ∧
      next.collectionMap = self.collectionMap ∧
      ∀ name path, next.collectionMapAt (name :: path) =
        extended treeName (self.collectionMapAt (name :: path))
          ((OrderedDict.get name children).bind fun child => child.follow path) := by
  match children with
  | [] => exact ⟨self, rfl, rfl, fun _ _ => rfl⟩
  | (childName, child) :: rest =>
      rw [ChildrenDistinct] at distinct
      obtain ⟨absent, nodup'⟩ := List.nodup_cons.mp nodup
      obtain ⟨compositeChild, made, here⟩ := exists_addNode treeName
        ((OrderedDict.get childName self.children).getD (.new (self.ancestry ++ [childName])))
        child distinct.1 (fresh_getD _ (fresh childName · List.mem_cons_self))
      obtain ⟨next, added, sameMap, below⟩ := exists_addChildren treeName
        (.mk self.collectionMap (OrderedDict.update childName compositeChild self.children)
          self.ancestry) rest nodup' distinct.2 (by
        intro name other listed present
        have differ : childName ≠ name := fun same => absent (same ▸ listed)
        rw [CompositeNode.children, OrderedDict.get_update, if_neg differ] at present
        exact fresh name other (List.mem_cons_of_mem childName listed) present)
      refine ⟨next, ?_, sameMap, ?_⟩
      · rw [addChildren, bind_of_eq_ok made, added]
      · intro name path
        rw [below, collectionMapAt_cons, CompositeNode.children, OrderedDict.get_update, OrderedDict.get]
        by_cases same : childName = name
        · subst same
          have gone : OrderedDict.get childName rest = none := OrderedDict.get_of_not_mem absent
          rw [if_pos rfl, if_pos rfl, gone]
          exact (here path).trans (extended_child treeName childName self child path)
        · rw [if_neg same, if_neg same, collectionMapAt_cons]
  termination_by sizeOf children

end

namespace CompositeTreeCollection

theorem exists_addTree {composite : CompositeTreeCollection Name TreeName Collection}
    {trees : List (TreeCollection Name TreeName Collection)} (covers : Covers composite trees)
    {tree : TreeCollection Name TreeName Collection}
    (unused : tree.name ∉ trees.map TreeCollection.name) :
    ∃ next, composite.addTree tree = .ok next ∧ Covers next (trees ++ [tree]) := by
  obtain ⟨root, added, below⟩ :=
    exists_addNode tree.name composite.root tree.root tree.distinct (covers.fresh unused)
  refine ⟨⟨composite.treeNames ++ [tree.name], root⟩, ?_, ?_, ?_⟩
  · rw [addTree, if_neg (covers.1 ▸ unused), bind_of_eq_ok added]
    rfl
  · rw [covers.1, List.map_append, List.map_singleton]
  · intro path
    rw [← extended_covered, ← covers.2]
    exact below path

theorem exists_addTrees {remaining done : List (TreeCollection Name TreeName Collection)}
    {composite : CompositeTreeCollection Name TreeName Collection} (covers : Covers composite done)
    (distinct : ((done ++ remaining).map TreeCollection.name).Nodup) :
    ∃ final, remaining.foldlM addTree composite = .ok final ∧ Covers final (done ++ remaining) := by
  induction remaining generalizing done composite with
  | nil => exact ⟨composite, rfl, (List.append_nil done).symm ▸ covers⟩
  | cons tree remaining ih =>
      have unused : tree.name ∉ done.map TreeCollection.name := by
        rw [List.map_append, List.map_cons] at distinct
        intro used
        exact (List.nodup_append.mp distinct).2.2 tree.name used tree.name List.mem_cons_self rfl
      have joined : done ++ tree :: remaining = done ++ [tree] ++ remaining := by
        rw [List.append_assoc, List.singleton_append]
      obtain ⟨next, added, covered⟩ := exists_addTree covers unused
      rw [joined] at distinct
      obtain ⟨final, rest, shown⟩ := ih covered distinct
      rw [List.foldlM_cons, bind_of_eq_ok added, joined]
      exact ⟨final, rest, shown⟩

theorem getCollectionMap_agrees (trees : List (TreeCollection Name TreeName Collection))
    (some_tree : trees ≠ []) (distinct : (trees.map TreeCollection.name).Nodup) :
    ∃ composite, addTrees trees = .ok composite ∧ ∀ path,
      (composite.getCollectionMap path = none ↔ ∀ tree ∈ trees, tree.getNode path = none) ∧
      ∀ collectionMap, composite.getCollectionMap path = some collectionMap →
        collectionMap = trees.filterMap fun tree =>
          (tree.getCollection path).map fun collection => (tree.name, collection) := by
  obtain ⟨composite, added, covers⟩ := exists_addTrees covers_new distinct
  refine ⟨composite, added, fun path => ?_⟩
  rw [covers.2, List.nil_append, ← collectionsAt_eq_nil_iff]
  by_cases shown : path = [] ∨ collectionsAt trees path ≠ []
  · rw [if_pos shown]
    refine ⟨⟨nofun, fun empty => ?_⟩, fun _ found => (Option.some.inj found).symm⟩
    obtain rfl := shown.resolve_right (· empty)
    obtain ⟨tree, trees, rfl⟩ := List.exists_cons_of_ne_nil some_tree
    cases (collectionsAt_eq_nil_iff _ _).mp empty tree List.mem_cons_self
  · rw [if_neg shown]
    refine ⟨⟨fun _ => ?_, fun _ => rfl⟩, nofun⟩
    by_contra entries
    exact shown (.inr entries)

theorem getCollectionMap_agrees_overlapping :
    let byHour : TreeCollection String String (List Nat) :=
      ⟨"current run", .mk [1, 2] [("9h", .mk [1] []), ("10h", .mk [2] [])], by
        simp [Node.Distinct, ChildrenDistinct, OrderedDict.keys]⟩
    let other : TreeCollection String String (List Nat) :=
      ⟨"benchmark", .mk [3] [("10h", .mk [3] [("A", .mk [3] [])])], by
        simp [Node.Distinct, ChildrenDistinct, OrderedDict.keys]⟩
    ∃ composite, addTrees [byHour, other] = .ok composite ∧ ∀ path,
      (composite.getCollectionMap path = none ↔
        ∀ tree ∈ [byHour, other], tree.getNode path = none) ∧
      ∀ collectionMap, composite.getCollectionMap path = some collectionMap →
        collectionMap = [byHour, other].filterMap fun tree =>
          (tree.getCollection path).map fun collection => (tree.name, collection) := by
  intro byHour other
  exact getCollectionMap_agrees [byHour, other] (List.cons_ne_nil byHour [other])
    (by simp [byHour, other])

end CompositeTreeCollection

end AddNode

end Xpedite.Analytics
