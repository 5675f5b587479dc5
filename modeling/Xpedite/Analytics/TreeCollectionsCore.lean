import Xpedite.Lib.OrderedDict

/-!
Tree collections and composites of them (`xpedite/analytics/treeCollections.py`).  Python
objects that are changed in place are values here and are put back where they came from.
-/

namespace Xpedite.Analytics

open Xpedite.Lib

inductive Node (Name Collection : Type) where
  | mk (collection : Collection) (children : List (Name × Node Name Collection))

inductive CompositeNode (Name TreeName Collection : Type) where
  | mk (collectionMap : OrderedDict TreeName Collection)
      (children : List (Name × CompositeNode Name TreeName Collection)) (ancestry : List Name)

inductive TreeFailure where
  | collectionExists
  | treeExists
  deriving DecidableEq, Repr

variable {Name TreeName Collection : Type}

namespace Node

def collection : Node Name Collection → Collection
  | mk collection _ => collection

def children : Node Name Collection → OrderedDict Name (Node Name Collection)
  | mk _ children => children

end Node

mutual

/-- The keys of a dictionary are distinct, in all dictionaries of children. -/
def Node.Distinct : Node Name Collection → Prop
  | .mk _ children => (OrderedDict.keys children).Nodup ∧ ChildrenDistinct children
  termination_by structural node => node

def ChildrenDistinct : List (Name × Node Name Collection) → Prop
  | [] => True
  | (_, child) :: rest => child.Distinct ∧ ChildrenDistinct rest
  termination_by structural children => children

end

structure TreeCollection (Name TreeName Collection : Type) where
  name : TreeName
  root : Node Name Collection
  distinct : root.Distinct

section Lookup

variable [DecidableEq Name]

def Node.follow (node : Node Name Collection) : List Name → Option (Node Name Collection)
  | [] => some node
  | name :: path =>
      match OrderedDict.get name node.children with
      | some child => child.follow path
      | none => none

namespace TreeCollection

variable (tree : TreeCollection Name TreeName Collection)

def getNode (path : List Name) : Option (Node Name Collection) := tree.root.follow path

def getCollection (path : List Name) : Option Collection := (tree.getNode path).map Node.collection

end TreeCollection

end Lookup

namespace CompositeNode

def new (ancestry : List Name) : CompositeNode Name TreeName Collection := mk [] [] ancestry

def collectionMap : CompositeNode Name TreeName Collection → OrderedDict TreeName Collection
  | mk collectionMap _ _ => collectionMap

def children :
    CompositeNode Name TreeName Collection → OrderedDict Name (CompositeNode Name TreeName Collection)
  | mk _ children _ => children

def ancestry : CompositeNode Name TreeName Collection → List Name
  | mk _ _ ancestry => ancestry

end CompositeNode

variable [DecidableEq Name] [DecidableEq TreeName]

mutual

def CompositeNode.addNode (treeName : TreeName) (self : CompositeNode Name TreeName Collection) :
    Node Name Collection → Except TreeFailure (CompositeNode Name TreeName Collection)
  | .mk collection children =>
      if treeName ∈ OrderedDict.keys self.collectionMap then .error .collectionExists
      else addChildren treeName (.mk (OrderedDict.update treeName collection self.collectionMap)
        self.children self.ancestry) children
  termination_by structural node => node

/-- The loop of `addNode` over the children of the node. -/
def CompositeNode.addChildren (treeName : TreeName)
    (self : CompositeNode Name TreeName Collection) :
    List (Name × Node Name Collection) →
      Except TreeFailure (CompositeNode Name TreeName Collection)
  | [] => .ok self
  | (childName, child) :: rest => do
      let compositeChild := (OrderedDict.get childName self.children).getD
        (.new (self.ancestry ++ [childName]))
      let compositeChild ← addNode treeName compositeChild child
      addChildren treeName (.mk self.collectionMap
        (OrderedDict.update childName compositeChild self.children) self.ancestry) rest
  termination_by structural children => children

end

def CompositeNode.collectionMapAt (node : CompositeNode Name TreeName Collection) :
    List Name → Option (OrderedDict TreeName Collection)
  | [] => some node.collectionMap
  | name :: path =>
      match OrderedDict.get name node.children with
      | some child => child.collectionMapAt path
      | none => none

structure CompositeTreeCollection (Name TreeName Collection : Type) where
  treeNames : List TreeName
  root : CompositeNode Name TreeName Collection

namespace CompositeTreeCollection

def new : CompositeTreeCollection Name TreeName Collection := ⟨[], .new []⟩

def addTree (self : CompositeTreeCollection Name TreeName Collection)
    (tree : TreeCollection Name TreeName Collection) :
    Except TreeFailure (CompositeTreeCollection Name TreeName Collection) :=
  if tree.name ∈ self.treeNames then .error .treeExists
  else do
    let root ← self.root.addNode tree.name tree.root
    return ⟨self.treeNames ++ [tree.name], root⟩

def addTrees (trees : List (TreeCollection Name TreeName Collection)) :
    Except TreeFailure (CompositeTreeCollection Name TreeName Collection) :=
  trees.foldlM addTree new

def getCollectionMap (self : CompositeTreeCollection Name TreeName Collection) (path : List Name) :
    Option (OrderedDict TreeName Collection) :=
  self.root.collectionMapAt path

end CompositeTreeCollection

end Xpedite.Analytics
