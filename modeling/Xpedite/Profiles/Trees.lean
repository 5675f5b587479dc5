import Xpedite.Lib.Grouping
import Xpedite.Profiles.ProfilesCore

/-!
The collections that the classifiers make of a collection, as groups of its transactions, and the
tree that they make level by level.
-/

namespace Xpedite.Profiles

open Xpedite.Lib
open Xpedite.Analytics (Node TreeCollection)
open Xpedite.Indexing.ProbeIndexFactory (sameRoute)
open Xpedite.Timelines (Route Transaction TxnSubCollection)

section Containers

variable {Key Element : Type} (same : Key → Key → Bool) (txnSubCollection : TxnSubCollection)

def collectionFor (txnOf : Element → Transaction) (group : Key × List Element) :
    Key × TxnSubCollection :=
  (group.1, { txnSubCollection with transactions := group.2.map txnOf })

theorem addTo_collectionFor (txnOf : Element → Transaction) (groups : List (Key × List Element))
    (key : Key) (element : Element) :
    addTo same (groups.map (collectionFor txnSubCollection txnOf)) txnSubCollection key
        (txnOf element) =
      (addToGroup same groups key element).map (collectionFor txnSubCollection txnOf) := by
  induction groups with
  | nil => rfl
  | cons group groups ih =>
      rw [addTo, addToGroup, List.map_cons, LooseDict.get]
      by_cases found : same group.1 key = true
      · have matched : same (collectionFor txnSubCollection txnOf group).1 key = true := found
        rw [if_pos found, if_pos matched]
        dsimp only
        rw [LooseDict.update, if_pos matched, List.map_cons]
        simp [collectionFor, append]
      · have missed : ¬same (collectionFor txnSubCollection txnOf group).1 key = true := found
        rw [if_neg found, if_neg missed, List.map_cons, ← ih, addTo]
        split
        · rw [LooseDict.update, if_neg missed]
        · rw [LooseDict.update, if_neg missed]

theorem foldl_addTo (txnOf : Element → Transaction) (keyOf : Element → Key)
    (elements : List Element) (groups : List (Key × List Element)) :
    elements.foldl (fun container element =>
        addTo same container txnSubCollection (keyOf element) (txnOf element))
        (groups.map (collectionFor txnSubCollection txnOf)) =
      (elements.foldl (fun groups element => addToGroup same groups (keyOf element) element)
        groups).map (collectionFor txnSubCollection txnOf) := by
  induction elements generalizing groups with
  | nil => rfl
  | cons element elements ih =>
      rw [List.foldl_cons, List.foldl_cons, addTo_collectionFor, ih]

end Containers

structure Grouped {Key Element Image : Type} [DecidableEq Image] (image : Key → Image)
    (keyOf : Element → Key) (elements : List Element) (groups : List (Key × List Element)) :
    Prop extends GroupedBy image keyOf elements groups where
  keyed : ∀ group ∈ groups, ∃ element ∈ elements, group.1 = keyOf element

theorem grouped_foldl {Key Element Image : Type} [DecidableEq Image] {image : Key → Image}
    {same : Key → Key → Bool}
    (matches_iff : ∀ first second, same first second = true ↔ image first = image second)
    (keyOf : Element → Key) (elements : List Element) :
    Grouped image keyOf elements
      (elements.foldl (fun groups element => addToGroup same groups (keyOf element) element) []) where
  toGroupedBy := groupedBy_foldl matches_iff keyOf elements
  keyed := fun _ member => key_mem_foldl keyOf member

variable (hashOf : List (Option String) → Int)

theorem sameRoute_iff (stored route : Route) :
    sameRoute hashOf stored route = true ↔ hashOf stored.points = hashOf route.points := by
  simp [sameRoute, Indexing.ProbeIndexFactory.routeEq]

def categoryGroups (classify : Transaction → String) (txns : List Transaction) :
    List (String × List Transaction) :=
  txns.foldl (fun groups txn =>
    addToGroup (fun stored category => stored = category) groups (classify txn) txn) []

theorem grouped_categoryGroups (classify : Transaction → String) (txns : List Transaction) :
    Grouped id classify txns (categoryGroups classify txns) :=
  grouped_foldl (fun first second => by simp) classify txns

theorem groupTxns_eq (classify : Transaction → String) (txnSubCollection : TxnSubCollection) :
    groupTxns classify txnSubCollection =
      (categoryGroups classify txnSubCollection.transactions).map
        (collectionFor txnSubCollection id) :=
  foldl_addTo _ txnSubCollection id classify txnSubCollection.transactions []

def routeGroups (txns : List Transaction) : List (Route × List Transaction) :=
  txns.foldl (fun groups txn => addToGroup (sameRoute hashOf) groups txn.route txn) []

theorem grouped_routeGroups (txns : List Transaction) :
    Grouped (fun route : Route => hashOf route.points) Transaction.route txns
      (routeGroups hashOf txns) :=
  grouped_foldl (sameRoute_iff hashOf) Transaction.route txns

theorem aggregateTxnsByRoutes_eq (txnSubCollection : TxnSubCollection) :
    aggregateTxnsByRoutes hashOf txnSubCollection =
      (routeGroups hashOf txnSubCollection.transactions).map (collectionFor txnSubCollection id) :=
  foldl_addTo _ txnSubCollection id Transaction.route txnSubCollection.transactions []

def conflations (routes : List Route) (txns : List Transaction) : List (Route × Transaction) :=
  txns.flatMap fun txn => (routes.filter fun route => conflates txn route).map fun route =>
    (route, txn)

theorem conflateTxnsByRoutes_eq_foldl (routes : List Route) (txnSubCollection : TxnSubCollection) :
    conflateTxnsByRoutes hashOf routes txnSubCollection =
      (conflations routes txnSubCollection.transactions).foldl (fun routeMap pair =>
        addTo (sameRoute hashOf) routeMap txnSubCollection pair.1 pair.2) [] := by
  rw [conflateTxnsByRoutes, conflations, List.foldl_flatMap]
  congr 1
  funext routeMap txn
  rw [List.foldl_map, List.foldl_filter]

def conflationGroups (routes : List Route) (txns : List Transaction) :
    List (Route × List (Route × Transaction)) :=
  (conflations routes txns).foldl (fun groups pair =>
    addToGroup (sameRoute hashOf) groups pair.1 pair) []

theorem grouped_conflationGroups (routes : List Route) (txns : List Transaction) :
    Grouped (fun route : Route => hashOf route.points) Prod.fst (conflations routes txns)
      (conflationGroups hashOf routes txns) :=
  grouped_foldl (sameRoute_iff hashOf) Prod.fst (conflations routes txns)

theorem conflateTxnsByRoutes_eq (routes : List Route) (txnSubCollection : TxnSubCollection) :
    conflateTxnsByRoutes hashOf routes txnSubCollection =
      (conflationGroups hashOf routes txnSubCollection.transactions).map
        (collectionFor txnSubCollection Prod.snd) := by
  rw [conflateTxnsByRoutes_eq_foldl]
  exact foldl_addTo _ txnSubCollection Prod.snd Prod.fst _ []

theorem filter_image_eq {Key Image : Type} [DecidableEq Image] {image : Key → Image}
    {keys : List Key} (distinct : (keys.map image).Nodup) {key : Key} (member : key ∈ keys) :
    (keys.filter fun other => image other = image key) = [key] := by
  induction keys with
  | nil => cases member
  | cons first keys ih =>
      rw [List.map_cons, List.nodup_cons] at distinct
      rcases List.mem_cons.mp member with rfl | later
      · have none_later : (keys.filter fun other => image other = image key) = [] := by
          rw [List.filter_eq_nil_iff]
          intro other inside
          rw [decide_eq_true_eq]
          exact fun same => distinct.1 (List.mem_map.mpr ⟨other, inside, same⟩)
        simp [none_later]
      · have differ : image first ≠ image key := fun same =>
          distinct.1 (List.mem_map.mpr ⟨key, later, same.symm⟩)
        simp [differ, ih distinct.2 later]

theorem filter_conflations {routes : List Route} (txns : List Transaction)
    (distinct : (routes.map fun route => hashOf route.points).Nodup) {route : Route}
    (member : route ∈ routes) :
    ((conflations routes txns).filter fun pair =>
        hashOf pair.1.points = hashOf route.points).map Prod.snd =
      txns.filter fun txn => conflates txn route := by
  induction txns with
  | nil => rfl
  | cons txn txns ih =>
      have only : ((routes.filter fun other => conflates txn other).filter fun other =>
          hashOf other.points = hashOf route.points) =
          if conflates txn route then [route] else [] := by
        rw [List.filter_comm, filter_image_eq distinct member, List.filter_singleton]
        cases conflates txn route <;> rfl
      rw [conflations, List.flatMap_cons, List.filter_append, List.map_append]
      rw [conflations] at ih
      rw [ih, List.filter_map, List.map_map]
      have first : (routes.filter fun other => conflates txn other).filter
          ((fun pair : Route × Transaction => decide (hashOf pair.1.points = hashOf route.points)) ∘
            fun other => (other, txn)) = if conflates txn route then [route] else [] := only
      rw [first, List.filter_cons]
      split
      · rfl
      · rfl

section Tree

/-- The tree that a list of classifiers makes of a collection, seen at once. -/
def unfold : List Classifier → List Name → Group → Node Name Group
  | [], _, group => .mk group []
  | classifier :: classifiers, ancestry, group =>
      .mk group ((classifier group.collection ancestry).map fun entry =>
        (entry.1, unfold classifiers (ancestry ++ [entry.1]) entry.2))

def Classifier.Dictionary (classifier : Classifier) : Prop :=
  ∀ collection ancestry, (OrderedDict.keys (classifier collection ancestry)).Nodup

theorem foldl_addChild {entries : OrderedDict Name Group}
    (distinct : (OrderedDict.keys entries).Nodup) :
    entries.foldl addChild [] = entries.map fun entry => (entry.1, .mk entry.2 []) := by
  have nodes : (OrderedDict.keys ([] ++ entries.map fun entry =>
      (entry.1, (.mk entry.2 [] : Node Name Group)))).Nodup := by
    rw [List.nil_append, OrderedDict.keys, List.map_map]
    exact distinct
  have added := OrderedDict.foldl_update_of_nodup nodes
  rw [List.foldl_map, List.nil_append] at added
  exact added

theorem makeChildNodes_unfold {classifier : Classifier} (dictionary : classifier.Dictionary)
    (classifiers : List Classifier) (ancestry : List Name) (group : Group) :
    makeChildNodes classifier classifiers.length ancestry (unfold classifiers ancestry group) =
      unfold (classifiers ++ [classifier]) ancestry group := by
  induction classifiers generalizing ancestry group with
  | nil => rw [unfold, List.length_nil, makeChildNodes, foldl_addChild (dictionary _ _)]; rfl
  | cons first classifiers ih =>
      rw [unfold, List.length_cons, makeChildNodes, List.map_map]
      simp only [List.cons_append, unfold]
      congr 1
      refine List.map_congr_left fun entry _ => ?_
      rw [Function.comp_apply, ih]

theorem makeLevels_unfold {later : List Classifier}
    (dictionaries : ∀ classifier ∈ later, classifier.Dictionary) (earlier : List Classifier)
    (group : Group) :
    makeLevels later earlier.length (unfold earlier [] group) = unfold (earlier ++ later) [] group := by
  induction later generalizing earlier with
  | nil => rw [List.append_nil, makeLevels]
  | cons classifier later ih =>
      have next := ih (fun other member => dictionaries other (List.mem_cons_of_mem _ member))
        (earlier ++ [classifier])
      rw [List.length_append, List.length_singleton, List.append_assoc, List.singleton_append] at next
      rw [makeLevels, makeChildNodes_unfold (dictionaries classifier List.mem_cons_self), next]

theorem root_buildTreeCollection {classifiers : List Classifier}
    (dictionaries : ∀ classifier ∈ classifiers, classifier.Dictionary) (name : String)
    (collection : TxnSubCollection) :
    (buildTreeCollection name collection classifiers).root =
      unfold classifiers [] ⟨.base, collection⟩ :=
  makeLevels_unfold dictionaries [] ⟨.base, collection⟩

theorem get_map_entries {Value Other : Type} (f : Name → Value → Other) (key : Name)
    (dict : OrderedDict Name Value) :
    OrderedDict.get key (dict.map fun entry => (entry.1, f entry.1 entry.2)) =
      (OrderedDict.get key dict).map (f key) := by
  induction dict with
  | nil => rfl
  | cons entry dict ih =>
      rw [List.map_cons, OrderedDict.get, OrderedDict.get]
      by_cases same : entry.1 = key
      · rw [if_pos same, if_pos same, same, Option.map_some]
      · rw [if_neg same, if_neg same, ih]

theorem follow_unfold_cons (classifier : Classifier) (classifiers : List Classifier)
    (ancestry : List Name) (group : Group) (name : Name) (path : List Name) :
    (unfold (classifier :: classifiers) ancestry group).follow (name :: path) =
      (OrderedDict.get name (classifier group.collection ancestry)).bind fun child =>
        (unfold classifiers (ancestry ++ [name]) child).follow path := by
  rw [Node.follow, unfold]
  simp only [Node.children]
  rw [get_map_entries fun name child => unfold classifiers (ancestry ++ [name]) child]
  cases OrderedDict.get name (classifier group.collection ancestry) with
  | none => rfl
  | some child => rfl

theorem getCollection_unfold {first second : Classifier} {collection : TxnSubCollection}
    {tree : TreeCollection Name String Group}
    (built : tree.root = unfold [first, second] [] ⟨.base, collection⟩) (category route : Name) :
    tree.getCollection [category, route] =
      (OrderedDict.get category (first collection [])).bind fun group =>
        OrderedDict.get route (second group.collection [category]) := by
  rw [TreeCollection.getCollection, TreeCollection.getNode, built, follow_unfold_cons]
  cases OrderedDict.get category (first collection []) with
  | none => rfl
  | some group =>
      rw [Option.bind_some, Option.bind_some, follow_unfold_cons, List.nil_append]
      cases OrderedDict.get route (second group.collection [category]) with
      | none => rfl
      | some child => rfl

end Tree

section Lookup

variable {Key Element Image : Type} [DecidableEq Image] {image : Key → Image}
  {keyOf : Element → Key} {elements : List Element} {groups : List (Key × List Element)}

def chosen (txnSubCollection : TxnSubCollection) (txns : List Transaction) :
    Option TxnSubCollection :=
  if txns = [] then none else some { txnSubCollection with transactions := txns }

theorem split_bind (txnSubCollection : TxnSubCollection) (txns : List Transaction)
    (keep : Transaction → Bool) :
    ((chosen txnSubCollection txns).bind fun subCollection =>
        chosen subCollection (subCollection.transactions.filter keep)) =
      chosen txnSubCollection (txns.filter keep) := by
  by_cases empty : txns = []
  · rw [empty]
    rfl
  · rw [chosen, if_neg empty]
    rfl

theorem get_grouped (grouped : Grouped image keyOf elements groups) {nameOf : Image → Name}
    (injective : Function.Injective nameOf) (txnSubCollection : TxnSubCollection)
    (txnOf : Element → Transaction) (label : Key → Profiles.Key) (wanted : Image) :
    (OrderedDict.get (nameOf wanted) (groups.map fun group => (nameOf (image group.1),
        (⟨label group.1, (collectionFor txnSubCollection txnOf group).2⟩ : Group)))).map
          Group.collection =
      chosen txnSubCollection
        ((elements.filter fun element => image (keyOf element) = wanted).map txnOf) := by
  by_cases present : ∃ group ∈ groups, image group.1 = wanted
  · obtain ⟨group, member, rfl⟩ := present
    obtain ⟨element, inside, keyed⟩ := grouped.keyed group member
    have members := grouped.members group member
    have nonempty : (elements.filter fun element => image (keyOf element) = image group.1) ≠ [] := by
      have kept : element ∈ elements.filter fun element =>
          image (keyOf element) = image group.1 := by simp [inside, keyed]
      exact List.ne_nil_of_mem kept
    have keysDistinct : (OrderedDict.keys (groups.map fun group => (nameOf (image group.1),
        (⟨label group.1, (collectionFor txnSubCollection txnOf group).2⟩ : Group)))).Nodup := by
      rw [OrderedDict.keys, List.map_map]
      have distinct := grouped.distinct.map injective
      rwa [List.map_map] at distinct
    rw [OrderedDict.get_of_mem keysDistinct (List.mem_map_of_mem member), Option.map_some, chosen,
      if_neg (by simpa using nonempty), ← members]
    rfl
  · have absent : ∀ element ∈ elements, image (keyOf element) ≠ wanted := by
      intro element inside same
      obtain ⟨group, member, matched⟩ := grouped.covered element inside
      exact present ⟨group, member, matched.trans same⟩
    have empty : (elements.filter fun element => image (keyOf element) = wanted) = [] := by
      simpa [List.filter_eq_nil_iff] using absent
    rw [empty, List.map_nil, chosen, if_pos rfl, OrderedDict.get_of_not_mem, Option.map_none]
    intro listed
    obtain ⟨entry, isEntry, named⟩ := List.mem_map.mp listed
    obtain ⟨group, member, rfl⟩ := List.mem_map.mp isEntry
    exact present ⟨group, member, injective named⟩

end Lookup

section Classifiers

variable (classify : Transaction → String)

theorem category_injective : Function.Injective Name.category := fun _ _ => Name.category.inj

theorem route_injective : Function.Injective Name.route := fun _ _ => Name.route.inj

theorem byCategory_eq (txnSubCollection : TxnSubCollection) (ancestry : List Name) :
    byCategory hashOf classify txnSubCollection ancestry =
      (categoryGroups classify txnSubCollection.transactions).map fun group =>
        (.category group.1, ⟨.category group.1, (collectionFor txnSubCollection id group).2⟩) := by
  rw [byCategory, groupTxns_eq, List.map_map]
  rfl

theorem byRoute_eq (txnSubCollection : TxnSubCollection) (ancestry : List Name) :
    byRoute hashOf txnSubCollection ancestry =
      (routeGroups hashOf txnSubCollection.transactions).map fun group =>
        (.route (hashOf group.1.points),
          ⟨.route group.1, (collectionFor txnSubCollection id group).2⟩) := by
  rw [byRoute, aggregateTxnsByRoutes_eq, List.map_map]
  rfl

theorem dictionary_byCategory : (byCategory hashOf classify).Dictionary := by
  intro txnSubCollection ancestry
  rw [byCategory_eq, OrderedDict.keys, List.map_map]
  have distinct := (grouped_categoryGroups classify txnSubCollection.transactions).distinct.map
    category_injective
  rwa [List.map_map] at distinct

theorem dictionary_byRoute : (byRoute hashOf).Dictionary := by
  intro txnSubCollection ancestry
  rw [byRoute_eq, OrderedDict.keys, List.map_map]
  have distinct := (grouped_routeGroups hashOf txnSubCollection.transactions).distinct.map
    route_injective
  rwa [List.map_map] at distinct

def routesAt (srcTree : TreeCollection Name String Group) (ancestry : List Name) : List Route :=
  match srcTree.getNode ancestry with
  | some node => node.children.map fun child => child.2.collection.key.toRoute
  | none => []

theorem byConflatedRoute_eq (srcTree : TreeCollection Name String Group)
    (txnSubCollection : TxnSubCollection) (ancestry : List Name) :
    byConflatedRoute hashOf srcTree txnSubCollection ancestry =
      (conflationGroups hashOf (routesAt srcTree ancestry) txnSubCollection.transactions).map
        fun group => (.route (hashOf group.1.points),
          ⟨.route group.1, (collectionFor txnSubCollection Prod.snd group).2⟩) := by
  rw [byConflatedRoute, conflateTxnsByRoutes_eq, List.map_map]
  rfl

theorem dictionary_byConflatedRoute (srcTree : TreeCollection Name String Group) :
    (byConflatedRoute hashOf srcTree).Dictionary := by
  intro txnSubCollection ancestry
  rw [byConflatedRoute_eq, OrderedDict.keys, List.map_map]
  have distinct := (grouped_conflationGroups hashOf (routesAt srcTree ancestry)
    txnSubCollection.transactions).distinct.map route_injective
  rwa [List.map_map] at distinct

theorem get_byCategory (txnSubCollection : TxnSubCollection) (category : String) :
    (OrderedDict.get (.category category) (byCategory hashOf classify txnSubCollection [])).map
        Group.collection =
      chosen txnSubCollection
        (txnSubCollection.transactions.filter fun txn => classify txn = category) := by
  rw [byCategory_eq]
  have found := get_grouped (grouped_categoryGroups classify txnSubCollection.transactions)
    category_injective txnSubCollection id Key.category category
  rwa [List.map_id] at found

theorem get_byRoute (txnSubCollection : TxnSubCollection) (ancestry : List Name) (route : Route) :
    (OrderedDict.get (.route (hashOf route.points)) (byRoute hashOf txnSubCollection ancestry)).map
        Group.collection =
      chosen txnSubCollection (txnSubCollection.transactions.filter fun txn =>
        hashOf txn.route.points = hashOf route.points) := by
  rw [byRoute_eq]
  have found := get_grouped (grouped_routeGroups hashOf txnSubCollection.transactions)
    route_injective txnSubCollection id Key.route (hashOf route.points)
  rwa [List.map_id] at found

theorem get_byConflatedRoute {srcTree : TreeCollection Name String Group} {ancestry : List Name}
    (distinct : ((routesAt srcTree ancestry).map fun route => hashOf route.points).Nodup)
    (txnSubCollection : TxnSubCollection) {route : Route}
    (member : route ∈ routesAt srcTree ancestry) :
    (OrderedDict.get (.route (hashOf route.points))
        (byConflatedRoute hashOf srcTree txnSubCollection ancestry)).map Group.collection =
      chosen txnSubCollection (txnSubCollection.transactions.filter fun txn =>
        conflates txn route) := by
  rw [byConflatedRoute_eq, ← filter_conflations hashOf _ distinct member]
  exact get_grouped (grouped_conflationGroups hashOf _ txnSubCollection.transactions)
    route_injective txnSubCollection Prod.snd Key.route (hashOf route.points)

end Classifiers

end Xpedite.Profiles
