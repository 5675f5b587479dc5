import Xpedite.Analytics.TreeCollections
import Xpedite.Profiles.Trees
import Xpedite.Timelines.Spans

/-!
Every transaction of the current run is in one profile, that of its category and route, and a
profile is compared with the transactions of the benchmarks that belong there.
-/

namespace Xpedite.Profiles

open Xpedite.Lib
open Xpedite.Analytics (CompositeTreeCollection Node TreeCollection)
open Xpedite.Analytics.CompositeTreeCollection
open Xpedite.Timelines (Probe Route TimelineStats Timeline Transaction TxnSubCollection)

variable (hashOf : List (Option String) → Int)

section Generate

variable (classify : Transaction → String) (routeConflation : Bool)

def currentTree (txnSubCollection : TxnSubCollection) : TreeCollection Name String Group :=
  buildTreeCollection txnSubCollection.name txnSubCollection
    [byCategory hashOf classify, byRoute hashOf]

theorem root_currentTree (txnSubCollection : TxnSubCollection) :
    (currentTree hashOf classify txnSubCollection).root =
      unfold [byCategory hashOf classify, byRoute hashOf] [] ⟨.base, txnSubCollection⟩ := by
  refine root_buildTreeCollection ?_ _ _
  simp [dictionary_byCategory, dictionary_byRoute]

def belongs (category : String) (route : Route) (txn : Transaction) : Bool :=
  classify txn = category ∧
    if routeConflation then conflates txn route = true
    else hashOf txn.route.points = hashOf route.points

def benchmarkClassifier (current : TxnSubCollection) : Classifier :=
  if routeConflation then byConflatedRoute hashOf (currentTree hashOf classify current)
  else byRoute hashOf

theorem routesAt_currentTree (current : TxnSubCollection) {group : String × List Transaction}
    (member : group ∈ categoryGroups classify current.transactions) :
    routesAt (currentTree hashOf classify current) [.category group.1] =
      (routeGroups hashOf group.2).map Prod.fst := by
  have keysDistinct : (OrderedDict.keys (byCategory hashOf classify current [])).Nodup :=
    dictionary_byCategory hashOf classify current []
  have found : OrderedDict.get (.category group.1) (byCategory hashOf classify current []) =
      some ⟨.category group.1, (collectionFor current id group).2⟩ := by
    refine OrderedDict.get_of_mem keysDistinct ?_
    rw [byCategory_eq]
    exact List.mem_map.mpr ⟨group, member, rfl⟩
  have node : (currentTree hashOf classify current).getNode [.category group.1] =
      some (unfold [byRoute hashOf] [.category group.1]
        ⟨.category group.1, (collectionFor current id group).2⟩) := by
    rw [TreeCollection.getNode, root_currentTree, follow_unfold_cons, found]
    rfl
  rw [routesAt, node]
  simp only [unfold, Node.children, byRoute_eq, List.map_map]
  have same : (collectionFor current id group).2.transactions = group.2 := List.map_id group.2
  rw [same]
  rfl

theorem getCollection_benchmark (current : TxnSubCollection) (benchmark : TxnSubCollection)
    (name : String) {group : String × List Transaction}
    (member : group ∈ categoryGroups classify current.transactions)
    {routeGroup : Route × List Transaction} (routeMember : routeGroup ∈ routeGroups hashOf group.2) :
    ((buildTreeCollection name benchmark [byCategory hashOf classify,
        benchmarkClassifier hashOf classify routeConflation current]).getCollection
      [.category group.1, .route (hashOf routeGroup.1.points)]).map Group.collection =
      chosen benchmark (benchmark.transactions.filter
        (belongs hashOf classify routeConflation group.1 routeGroup.1)) := by
  have dictionary : (benchmarkClassifier hashOf classify routeConflation current).Dictionary := by
    rw [benchmarkClassifier]
    split
    · exact dictionary_byConflatedRoute hashOf _
    · exact dictionary_byRoute hashOf
  have dictionaries : ∀ classifier ∈ [byCategory hashOf classify,
      benchmarkClassifier hashOf classify routeConflation current], classifier.Dictionary := by
    simp [dictionary_byCategory, dictionary]
  have built := root_buildTreeCollection dictionaries name benchmark
  rw [getCollection_unfold built, Option.map_bind]
  have second : ∀ collection : TxnSubCollection,
      (OrderedDict.get (.route (hashOf routeGroup.1.points))
        (benchmarkClassifier hashOf classify routeConflation current collection
          [.category group.1])).map Group.collection =
      chosen collection (collection.transactions.filter fun txn =>
        if routeConflation then conflates txn routeGroup.1
        else hashOf txn.route.points = hashOf routeGroup.1.points) := by
    intro collection
    cases routeConflation with
    | false => exact get_byRoute hashOf collection [.category group.1] routeGroup.1
    | true =>
        have routes := routesAt_currentTree hashOf classify current member
        have distinct := (grouped_routeGroups hashOf group.2).distinct
        refine get_byConflatedRoute hashOf ?_ collection ?_
        · rwa [routes, List.map_map]
        · rw [routes]
          exact List.mem_map_of_mem routeMember
  have first := get_byCategory hashOf classify benchmark group.1
  have selected : (benchmark.transactions.filter fun txn => classify txn = group.1).filter
        (fun txn => if routeConflation then conflates txn routeGroup.1
          else hashOf txn.route.points = hashOf routeGroup.1.points) =
      benchmark.transactions.filter (belongs hashOf classify routeConflation group.1 routeGroup.1) := by
    rw [List.filter_filter]
    refine List.filter_congr fun txn _ => ?_
    cases routeConflation with
    | false => simp [belongs, Bool.and_comm]
    | true => simp [belongs, Bool.and_comm]
  rw [← selected, ← split_bind, ← first, Option.bind_map]
  refine Option.bind_congr fun found _ => ?_
  exact second found.collection

def compared (benchmarks : OrderedDict String TxnCollection) (category : String) (route : Route) :
    OrderedDict String TxnSubCollection :=
  benchmarks.filterMap fun entry =>
    (chosen entry.2.subCollection (entry.2.subCollection.transactions.filter
      (belongs hashOf classify routeConflation category route))).map fun collection =>
        (entry.1, collection)

def profileOf (name : String) (current : TxnCollection)
    (benchmarks : OrderedDict String TxnCollection) (category : String) (count : Nat)
    (entry : (Route × List Transaction) × Nat) : Except Failure Profile := do
  let route := entry.1.1
  let probes := mapReportProbes route current.probes
  let timelineStats ← timelinesOf category route probes
    { current.subCollection with transactions := entry.1.2 }
  let benchmarkStats ← (compared hashOf classify routeConflation benchmarks category route).mapM
    fun benchmark => do
      let stats ← timelinesOf category route probes benchmark.2
      return (benchmark.1, stats)
  return ⟨profileNameFor name category count entry.2, timelineStats, benchmarkStats⟩

theorem name_of_chosen {txnSubCollection found : TxnSubCollection} {txns : List Transaction}
    (chose : chosen txnSubCollection txns = some found) : found.name = txnSubCollection.name := by
  rw [chosen] at chose
  split at chose
  · cases chose
  · cases chose
    rfl

theorem keys_compared (benchmarks : OrderedDict String TxnCollection) (category : String)
    (route : Route) :
    (OrderedDict.keys (compared hashOf classify routeConflation benchmarks category route)).Sublist
      (OrderedDict.keys benchmarks) := by
  rw [compared, OrderedDict.keys, List.map_filterMap]
  induction benchmarks with
  | nil => exact .slnil
  | cons entry benchmarks ih =>
      rw [List.filterMap_cons, OrderedDict.keys, List.map_cons]
      rw [Option.map_map]
      split
      · exact ih.cons _
      · rename_i found
        obtain ⟨collection, _, rfl⟩ := Option.map_eq_some_iff.mp found
        exact ih.cons_cons _

theorem computeStats_eq {benchmarks : OrderedDict String TxnSubCollection}
    (distinct : (OrderedDict.keys benchmarks).Nodup)
    {benchmarkTxnsMap : Option (OrderedDict String Group)}
    (shown : ((benchmarkTxnsMap.getD []).map fun entry =>
      (entry.2.collection.name, entry.2.collection)) = benchmarks)
    (category : String) (route : Route) (probes : List Probe)
    (txnSubCollection : TxnSubCollection) :
    computeStats category route probes txnSubCollection benchmarkTxnsMap = do
      let timelineStats ← timelinesOf category route probes txnSubCollection
      let benchmarkStats ← benchmarks.mapM fun benchmark => do
        let stats ← timelinesOf category route probes benchmark.2
        return (benchmark.1, stats)
      return (timelineStats, benchmarkStats) := by
  rw [computeStats, ← shown, List.mapM_map]
  cases timelinesOf category route probes txnSubCollection with
  | error failure => rfl
  | ok timelineStats =>
      rw [bind_of_eq_ok rfl, bind_of_eq_ok rfl]
      have same : ((fun benchmark : String × TxnSubCollection => do
            let stats ← timelinesOf category route probes benchmark.2
            return (benchmark.1, stats) : String × TxnSubCollection →
              Except Failure (String × TimelineStats)) ∘
          fun entry : String × Group => (entry.2.collection.name, entry.2.collection)) =
          fun entry => do
            let stats ← timelinesOf category route probes entry.2.collection
            return (entry.2.collection.name, stats) := rfl
      rw [same]
      cases computed : (benchmarkTxnsMap.getD []).mapM fun entry => do
          let stats ← timelinesOf category route probes entry.2.collection
          return (entry.2.collection.name, stats) with
      | error failure => rfl
      | ok stats =>
          rw [bind_of_eq_ok rfl, bind_of_eq_ok rfl]
          have keys : OrderedDict.keys stats = OrderedDict.keys benchmarks := by
            rw [← shown, OrderedDict.keys, OrderedDict.keys, List.map_map]
            refine map_eq_of_mapM computed fun entry _ result made => ?_
            obtain ⟨_, _, made⟩ := bind_eq_ok made
            cases made
            rfl
          have distinct : (OrderedDict.keys ([] ++ stats)).Nodup := by
            rwa [List.nil_append, keys]
          rw [OrderedDict.foldl_update_of_nodup distinct, List.nil_append]

variable {current : TxnCollection} {benchmarks : OrderedDict String TxnCollection}

theorem exists_buildTxnTree (distinct : (OrderedDict.keys benchmarks).Nodup) :
    ∃ composite, buildTxnTree hashOf classify routeConflation current benchmarks =
        .ok (currentTree hashOf classify current.subCollection, composite) ∧
      ∀ category route, (composite.getCollectionMap [category, route]).getD [] =
        benchmarks.filterMap fun entry =>
          ((buildTreeCollection entry.1 entry.2.subCollection [byCategory hashOf classify,
            benchmarkClassifier hashOf classify routeConflation current.subCollection]).getCollection
              [category, route]).map fun group => (entry.1, group) := by
  let trees := (benchmarks.map fun entry => (entry.1, entry.2.subCollection)).map fun entry =>
    buildTreeCollection entry.1 entry.2 [byCategory hashOf classify,
      benchmarkClassifier hashOf classify routeConflation current.subCollection]
  have names : (trees.map TreeCollection.name).Nodup := by
    rw [List.map_map, List.map_map]
    exact distinct
  obtain ⟨composite, added, covers⟩ :=
    @exists_addTrees _ _ _ _ _ trees [] _ Analytics.covers_new names
  refine ⟨composite, ?_, ?_⟩
  · have built : buildCompositeTreeCollection
        (benchmarks.map fun entry => (entry.1, entry.2.subCollection)) [byCategory hashOf classify,
          benchmarkClassifier hashOf classify routeConflation current.subCollection] =
        .ok composite := added
    simp only [buildTxnTree]
    rw [show (buildTreeCollection current.subCollection.name current.subCollection
      [byCategory hashOf classify, byRoute hashOf]) = currentTree hashOf classify
        current.subCollection from rfl]
    rw [benchmarkClassifier] at built
    rw [built]
  · intro category route
    have shown : Analytics.collectionsAt trees [category, route] =
        benchmarks.filterMap fun entry =>
          ((buildTreeCollection entry.1 entry.2.subCollection [byCategory hashOf classify,
            benchmarkClassifier hashOf classify routeConflation
              current.subCollection]).getCollection [category, route]).map fun group =>
                (entry.1, group) := by
      rw [Analytics.collectionsAt, List.filterMap_map, List.filterMap_map]
      rfl
    rw [covers.2, List.nil_append, shown]
    split
    · rfl
    · rename_i nowhere
      rw [not_or, not_not] at nowhere
      exact nowhere.2.symm

theorem compared_eq (named : ∀ entry ∈ benchmarks, entry.1 = entry.2.subCollection.name)
    {group : String × List Transaction}
    (member : group ∈ categoryGroups classify current.subCollection.transactions)
    {routeGroup : Route × List Transaction} (routeMember : routeGroup ∈ routeGroups hashOf group.2) :
    ((benchmarks.filterMap fun entry =>
        ((buildTreeCollection entry.1 entry.2.subCollection [byCategory hashOf classify,
          benchmarkClassifier hashOf classify routeConflation current.subCollection]).getCollection
            [.category group.1, .route (hashOf routeGroup.1.points)]).map fun found =>
              (entry.1, found)).map fun entry => (entry.2.collection.name, entry.2.collection)) =
      compared hashOf classify routeConflation benchmarks group.1 routeGroup.1 := by
  rw [compared, List.map_filterMap]
  refine List.filterMap_congr fun entry inside => ?_
  have chose := getCollection_benchmark hashOf classify routeConflation current.subCollection
    entry.2.subCollection entry.1 member routeMember
  rw [← chose, Option.map_map, Option.map_map]
  cases found : (buildTreeCollection entry.1 entry.2.subCollection [byCategory hashOf classify,
      benchmarkClassifier hashOf classify routeConflation current.subCollection]).getCollection
        [.category group.1, .route (hashOf routeGroup.1.points)] with
  | none => rfl
  | some group =>
      rw [found] at chose
      have sameName := name_of_chosen chose.symm
      simp [sameName, named entry inside]

def routeEntry (subCollection : TxnSubCollection) (routeGroup : Route × List Transaction) :
    Name × Node Name Group :=
  (.route (hashOf routeGroup.1.points),
    .mk ⟨.route routeGroup.1, (collectionFor subCollection id routeGroup).2⟩ [])

def categoryEntry (current : TxnSubCollection) (group : String × List Transaction) :
    Name × Node Name Group :=
  (.category group.1, .mk ⟨.category group.1, (collectionFor current id group).2⟩
    ((routeGroups hashOf group.2).map
      (routeEntry hashOf (collectionFor current id group).2)))

theorem children_currentTree (current : TxnSubCollection) :
    (currentTree hashOf classify current).root.children =
      (categoryGroups classify current.transactions).map (categoryEntry hashOf current) := by
  rw [root_currentTree]
  simp only [unfold, Node.children, byCategory_eq, byRoute_eq, List.map_map]
  refine List.map_congr_left fun group _ => ?_
  have same : (collectionFor current id group).2.transactions = group.2 := List.map_id group.2
  simp only [Function.comp_apply, categoryEntry, same]
  rfl

theorem generateProfile_eq (name : String) {composite : CompositeTreeCollection Name String Group}
    (named : ∀ entry ∈ benchmarks, entry.1 = entry.2.subCollection.name)
    (distinct : (OrderedDict.keys benchmarks).Nodup)
    (shown : ∀ category route, (composite.getCollectionMap [category, route]).getD [] =
      benchmarks.filterMap fun entry =>
        ((buildTreeCollection entry.1 entry.2.subCollection [byCategory hashOf classify,
          benchmarkClassifier hashOf classify routeConflation current.subCollection]).getCollection
            [category, route]).map fun group => (entry.1, group))
    {group : String × List Transaction}
    (member : group ∈ categoryGroups classify current.subCollection.transactions)
    {routeGroup : Route × List Transaction} (routeMember : routeGroup ∈ routeGroups hashOf group.2)
    (i : Nat) :
    generateProfile name current.probes composite (categoryEntry hashOf current.subCollection group)
        (routeEntry hashOf (collectionFor current.subCollection id group).2 routeGroup, i) =
      profileOf hashOf classify routeConflation name current benchmarks group.1
        (routeGroups hashOf group.2).length (routeGroup, i) := by
  have keysDistinct := distinct.sublist
    (keys_compared hashOf classify routeConflation benchmarks group.1 routeGroup.1)
  have entries := compared_eq hashOf classify routeConflation named member routeMember
  rw [← shown] at entries
  have stats := computeStats_eq keysDistinct entries group.1 routeGroup.1
    (mapReportProbes routeGroup.1 current.probes)
    (collectionFor (collectionFor current.subCollection id group).2 id routeGroup).2
  have txns : (collectionFor (collectionFor current.subCollection id group).2 id routeGroup).2 =
      { current.subCollection with transactions := routeGroup.2 } := by
    simp [collectionFor]
  rw [txns] at stats
  simp only [generateProfile, routeEntry, categoryEntry, Key.categoryName, Key.toRoute,
    Node.collection, Node.children, List.length_map, txns]
  rw [stats]
  simp only [profileOf, bind_assoc, pure_bind]

theorem generateProfiles_eq (name : String) {repo : TxnRepo} {current : TxnCollection}
    (running : repo.currentCollection = some current) :
    generateProfiles hashOf classify routeConflation name repo = do
      let profiles ← (categoryGroups classify current.subCollection.transactions).mapM fun group =>
        ((routeGroups hashOf group.2).zipIdx 1).mapM
          (profileOf hashOf classify routeConflation name current repo.benchmarkCollections group.1
            (routeGroups hashOf group.2).length)
      return profiles.flatten := by
  obtain ⟨composite, built, shown⟩ :=
    @exists_buildTxnTree hashOf classify routeConflation current _ repo.distinct
  rw [generateProfiles, running]
  dsimp only
  rw [built, bind_of_eq_ok rfl]
  dsimp only
  rw [children_currentTree, List.mapM_map]
  congr 1
  refine mapM_congr_left fun group member => ?_
  rw [Function.comp_apply]
  have zipped : (categoryEntry hashOf current.subCollection group).2.children.zipIdx 1 =
      ((routeGroups hashOf group.2).zipIdx 1).map
        (Prod.map (routeEntry hashOf (collectionFor current.subCollection id group).2) id) :=
    List.zipIdx_map
  rw [zipped, List.mapM_map]
  refine mapM_congr_left fun entry inside => ?_
  have routeMember : entry.1 ∈ routeGroups hashOf group.2 := by
    obtain ⟨_, _, isEntry⟩ := List.mem_zipIdx inside
    rw [isEntry]
    exact List.getElem_mem _
  exact generateProfile_eq hashOf classify routeConflation name repo.named repo.distinct shown
    member routeMember entry.2

end Generate

section Partition

variable {hashOf} {classify : Transaction → String} {routeConflation : Bool} {name : String}
  {current : TxnCollection} {benchmarks : OrderedDict String TxnCollection}

def txnsOf (timelineStats : TimelineStats) : List Transaction :=
  timelineStats.timelineCollection.map Timeline.txn

/-- A profile without the times and counts of its timelines. -/
structure Summary where
  category : String
  route : Route
  txns : List Transaction
  benchmarks : List (String × List Transaction)

def Profile.summary (profile : Profile) : Summary where
  category := profile.current.category
  route := profile.current.route
  txns := txnsOf profile.current
  benchmarks := profile.benchmarks.map fun entry => (entry.1, txnsOf entry.2)

variable (hashOf classify routeConflation) in
def summaryOf (benchmarks : OrderedDict String TxnCollection) (category : String)
    (routeGroup : Route × List Transaction) : Summary where
  category := category
  route := routeGroup.1
  txns := routeGroup.2
  benchmarks := (compared hashOf classify routeConflation benchmarks category routeGroup.1).map
    fun entry => (entry.1, entry.2.transactions)

theorem timelinesOf_eq_ok {category : String} {route : Route} {probes : List Probe}
    {txnSubCollection : TxnSubCollection} {stats : TimelineStats}
    (built : timelinesOf category route probes txnSubCollection = .ok stats) :
    stats.category = category ∧ stats.route = route ∧
      txnsOf stats = txnSubCollection.transactions := by
  rw [timelinesOf] at built
  split at built
  · rename_i done
    cases built
    obtain ⟨state, folded, done⟩ := bind_eq_ok done
    cases done
    obtain ⟨timelines, collected, ofTxns, -, -⟩ := Timelines.foldlM_addTransaction_eq_ok folded
    refine ⟨rfl, rfl, ?_⟩
    rw [txnsOf, collected, List.nil_append, ofTxns]
  · cases built

theorem summary_of_profileOf {category : String} {count i : Nat}
    {routeGroup : Route × List Transaction} {profile : Profile}
    (made : profileOf hashOf classify routeConflation name current benchmarks category count
      (routeGroup, i) = .ok profile) :
    profile.summary = summaryOf hashOf classify routeConflation benchmarks category routeGroup := by
  obtain ⟨timelineStats, own, made⟩ := bind_eq_ok made
  obtain ⟨benchmarkStats, others, made⟩ := bind_eq_ok made
  cases made
  obtain ⟨sameCategory, sameRoute, sameTxns⟩ := timelinesOf_eq_ok own
  have sameBenchmarks : benchmarkStats.map (fun entry => (entry.1, txnsOf entry.2)) =
      (compared hashOf classify routeConflation benchmarks category routeGroup.1).map
        fun entry => (entry.1, entry.2.transactions) := by
    refine map_eq_of_mapM others fun entry _ result made => ?_
    obtain ⟨stats, built, made⟩ := bind_eq_ok made
    cases made
    rw [(timelinesOf_eq_ok built).2.2]
  simp only [Profile.summary, summaryOf, sameCategory, sameRoute, sameTxns, sameBenchmarks]

theorem summaries_of_generateProfiles {repo : TxnRepo} {profiles : List Profile}
    (running : repo.currentCollection = some current)
    (generated : generateProfiles hashOf classify routeConflation name repo = .ok profiles) :
    profiles.map Profile.summary =
      (categoryGroups classify current.subCollection.transactions).flatMap fun group =>
        (routeGroups hashOf group.2).map
          (summaryOf hashOf classify routeConflation repo.benchmarkCollections group.1) := by
  rw [generateProfiles_eq hashOf classify routeConflation name running] at generated
  obtain ⟨nested, computed, done⟩ := bind_eq_ok generated
  cases done
  rw [List.map_flatten, List.flatMap_def]
  congr 1
  refine map_eq_of_mapM computed fun group _ results made => ?_
  have each : results.map Profile.summary =
      ((routeGroups hashOf group.2).zipIdx 1).map fun entry =>
        summaryOf hashOf classify routeConflation repo.benchmarkCollections group.1 entry.1 :=
    map_eq_of_mapM made fun entry _ profile built => summary_of_profileOf built
  rw [each]
  conv_rhs => rw [← List.zipIdx_map_fst 1 (routeGroups hashOf group.2), List.map_map]
  rfl

theorem txns_of_groups {txns : List Transaction} {group : String × List Transaction}
    (member : group ∈ categoryGroups classify txns) {routeGroup : Route × List Transaction}
    (routeMember : routeGroup ∈ routeGroups hashOf group.2) :
    routeGroup.2 = (txns.filter fun txn => classify txn = group.1 ∧
        hashOf txn.route.points = hashOf routeGroup.1.points) ∧ routeGroup.2 ≠ [] := by
  have ofCategory := (grouped_categoryGroups classify txns).members group member
  have grouped := grouped_routeGroups hashOf group.2
  have ofRoute := grouped.members routeGroup routeMember
  constructor
  · rw [ofRoute, ofCategory, List.filter_filter]
    refine List.filter_congr fun txn _ => ?_
    simp [Bool.and_comm]
  · obtain ⟨txn, inside, keyed⟩ := grouped.keyed routeGroup routeMember
    rw [ofRoute]
    have kept : txn ∈ group.2.filter fun txn =>
        hashOf txn.route.points = hashOf routeGroup.1.points := by simp [inside, keyed]
    exact List.ne_nil_of_mem kept

variable (hashOf classify) in
def keyOfTxn (txn : Transaction) : String × Int := (classify txn, hashOf txn.route.points)

variable (hashOf) in
def Summary.key (summary : Summary) : String × Int :=
  (summary.category, hashOf summary.route.points)

variable (hashOf classify routeConflation) in
def summaries (benchmarks : OrderedDict String TxnCollection) (txns : List Transaction) :
    List Summary :=
  (categoryGroups classify txns).flatMap fun group =>
    (routeGroups hashOf group.2).map
      (summaryOf hashOf classify routeConflation benchmarks group.1)

theorem nodup_keys_summaries (txns : List Transaction) :
    ((summaries hashOf classify routeConflation benchmarks txns).map
      (Summary.key hashOf)).Nodup := by
  rw [summaries, List.map_flatMap]
  refine List.nodup_flatMap.mpr ⟨?_, ?_⟩
  · intro group _
    rw [List.map_map]
    have distinct := (grouped_routeGroups hashOf group.2).distinct.map
      (Prod.mk_right_injective group.1)
    rwa [List.map_map] at distinct
  · have distinct := (grouped_categoryGroups classify txns).distinct
    rw [List.Nodup, List.pairwise_map] at distinct
    refine distinct.imp fun {first second} differ => ?_
    intro key inFirst inSecond
    simp only [List.map_map, List.mem_map] at inFirst inSecond
    obtain ⟨_, _, rfl⟩ := inFirst
    obtain ⟨_, _, same⟩ := inSecond
    exact differ (congrArg Prod.fst same).symm

theorem key_mem_summaries {txns : List Transaction} {txn : Transaction} (member : txn ∈ txns) :
    keyOfTxn hashOf classify txn ∈
      (summaries hashOf classify routeConflation benchmarks txns).map (Summary.key hashOf) := by
  obtain ⟨group, isGroup, sameCategory⟩ := (grouped_categoryGroups classify txns).covered txn member
  have inGroup : txn ∈ group.2 := by
    rw [(grouped_categoryGroups classify txns).members group isGroup]
    exact List.mem_filter.mpr ⟨member, decide_eq_true sameCategory.symm⟩
  obtain ⟨routeGroup, isRouteGroup, sameRoute⟩ :=
    (grouped_routeGroups hashOf group.2).covered txn inGroup
  refine List.mem_map.mpr ⟨summaryOf hashOf classify routeConflation benchmarks group.1 routeGroup,
    List.mem_flatMap.mpr ⟨group, isGroup, List.mem_map_of_mem isRouteGroup⟩, ?_⟩
  rw [Summary.key, keyOfTxn]
  exact Prod.ext sameCategory sameRoute

theorem txns_compared (benchmarks : OrderedDict String TxnCollection) (category : String)
    (route : Route) :
    ((compared hashOf classify routeConflation benchmarks category route).map fun entry =>
        (entry.1, entry.2.transactions)) =
      (benchmarks.map fun entry => (entry.1, entry.2.subCollection.transactions.filter
        (belongs hashOf classify routeConflation category route))).filter
          fun entry => entry.2 ≠ [] := by
  induction benchmarks with
  | nil => rfl
  | cons entry benchmarks ih =>
      rw [compared, List.filterMap_cons, List.map_cons, List.filter_cons]
      rw [compared] at ih
      by_cases none_belong : entry.2.subCollection.transactions.filter
          (belongs hashOf classify routeConflation category route) = []
      · rw [if_neg (by simpa using none_belong), show chosen entry.2.subCollection _ = none
          from if_pos none_belong]
        exact ih
      · rw [if_pos (decide_eq_true none_belong), show chosen entry.2.subCollection _ = some _
          from if_neg none_belong, ← ih]
        rfl

theorem txns_of_summary {txns : List Transaction} {summary : Summary}
    (member : summary ∈ summaries hashOf classify routeConflation benchmarks txns) :
    summary.txns = (txns.filter fun txn => keyOfTxn hashOf classify txn = summary.key hashOf) ∧
      summary.txns ≠ [] ∧
      summary.benchmarks = (benchmarks.map fun entry =>
        (entry.1, entry.2.subCollection.transactions.filter
          (belongs hashOf classify routeConflation summary.category summary.route))).filter
            fun entry => entry.2 ≠ [] := by
  obtain ⟨group, isGroup, isSummary⟩ := List.mem_flatMap.mp member
  obtain ⟨routeGroup, isRouteGroup, rfl⟩ := List.mem_map.mp isSummary
  obtain ⟨selected, nonempty⟩ := txns_of_groups isGroup isRouteGroup
  refine ⟨?_, nonempty, ?_⟩
  · rw [summaryOf, selected]
    refine List.filter_congr fun txn _ => ?_
    simp [keyOfTxn, Summary.key]
  · exact txns_compared benchmarks group.1 routeGroup.1

/--
Every transaction of the current run is in one of its profiles.  The profiles differ in their
categories or in the hashes of their routes, and each has the transactions of its category and
hash, in their order; a benchmark is compared in it if it has transactions that belong there, by
these.
-/
theorem generateProfiles_partitions {repo : TxnRepo} {profiles : List Profile}
    (generated : generateProfiles hashOf classify routeConflation name repo = .ok profiles) :
    ∃ current, repo.currentCollection = some current ∧
      (profiles.flatMap fun profile => profile.summary.txns).Perm
        current.subCollection.transactions ∧
      (profiles.map fun profile => profile.summary.key hashOf).Nodup ∧
      ∀ profile ∈ profiles,
        profile.summary.txns ≠ [] ∧
        profile.summary.txns = (current.subCollection.transactions.filter fun txn =>
          keyOfTxn hashOf classify txn = profile.summary.key hashOf) ∧
        profile.summary.benchmarks = (repo.benchmarkCollections.map fun entry =>
          (entry.1, entry.2.subCollection.transactions.filter
            (belongs hashOf classify routeConflation profile.summary.category
              profile.summary.route))).filter fun entry => entry.2 ≠ [] := by
  cases running : repo.currentCollection with
  | none =>
      rw [generateProfiles, running] at generated
      cases generated
  | some current =>
      have all : profiles.map Profile.summary = summaries hashOf classify routeConflation
          repo.benchmarkCollections current.subCollection.transactions :=
        summaries_of_generateProfiles running generated
      have each : ∀ profile ∈ profiles, profile.summary ∈ summaries hashOf classify routeConflation
          repo.benchmarkCollections current.subCollection.transactions := by
        intro profile member
        rw [← all]
        exact List.mem_map_of_mem member
      have keys : (profiles.map fun profile => profile.summary.key hashOf) =
          (summaries hashOf classify routeConflation repo.benchmarkCollections
            current.subCollection.transactions).map (Summary.key hashOf) := by
        rw [← all, List.map_map]
        rfl
      have distinct : (profiles.map fun profile => profile.summary.key hashOf).Nodup := by
        rw [keys]
        exact nodup_keys_summaries _
      refine ⟨current, rfl, ?_, distinct, ?_⟩
      · have split_ : (profiles.flatMap fun profile => profile.summary.txns) =
            (profiles.map fun profile => profile.summary.key hashOf).flatMap fun key =>
              current.subCollection.transactions.filter fun txn =>
                keyOfTxn hashOf classify txn = key := by
          rw [List.flatMap_map]
          exact List.flatMap_congr fun profile member => (txns_of_summary (each profile member)).1
        rw [split_]
        refine perm_flatMap_filter (keyOfTxn hashOf classify) distinct fun txn member => ?_
        rw [keys]
        exact key_mem_summaries member
      · intro profile member
        obtain ⟨selected, nonempty, ofBenchmarks⟩ := txns_of_summary (each profile member)
        exact ⟨nonempty, selected, ofBenchmarks⟩

end Partition

section Sample

def buy : Probe := Timelines.namedProbe "buy" (by decide)

def sell : Probe := Timelines.namedProbe "sell" (by decide)

def txnThrough (txnId : Nat) (probe : Probe) : Transaction :=
  ⟨txnId, [Timelines.counterOf probe 5 []], ⟨[probe]⟩⟩

def collectionNamed (name : String) (transactions : List Transaction) : TxnCollection :=
  ⟨⟨name, Timelines.gigahertz, transactions, none, []⟩, [buy, sell]⟩

def shop : TxnRepo where
  benchmarkCollections := [("yesterday", collectionNamed "yesterday" [txnThrough 7 sell])]
  currentCollection := some (collectionNamed "current run"
    [txnThrough 1 buy, txnThrough 2 sell, txnThrough 3 buy])
  named := by simp [collectionNamed]
  distinct := by simp [OrderedDict.keys]

def lengthsOf (points : List (Option String)) : Int :=
  (points.map fun point => ((point.getD "").length : Int)).sum

theorem generateProfiles_partitions_shop :
    ∃ profiles, generateProfiles lengthsOf (fun _ => "Transaction") false "shop" shop =
        .ok profiles ∧
      profiles.length = 2 ∧
      (profiles.flatMap fun profile => profile.summary.txns).Perm
        [txnThrough 1 buy, txnThrough 2 sell, txnThrough 3 buy] := by
  obtain ⟨profiles, generated, two⟩ : ∃ profiles, generateProfiles lengthsOf
      (fun _ => "Transaction") false "shop" shop = .ok profiles ∧ profiles.length = 2 :=
    ⟨_, rfl, rfl⟩
  obtain ⟨current, running, perm, -, -⟩ := generateProfiles_partitions generated
  cases running
  exact ⟨profiles, generated, two, perm⟩

end Sample

end Xpedite.Profiles
