import Mathlib.Data.List.Induction
import Xpedite.Lib.Fallible
import Xpedite.Report.GeneratorCore

/-!
Names of the series of a histogram.  A bundle has the elapsed times of just the collections with
the category, while the names are taken from all collections.
-/

namespace Xpedite.Report

open Xpedite.Lib
open Xpedite.Timelines (CpuInfo Transaction)

def unlessEmpty (values : List ℚ) : Option (List ℚ) := if values = [] then none else some values

section Bundles

variable (classify : Transaction → String)

def elapsedTimes (category : String) (collection : TxnCollection) : List ℚ :=
  (collection.transactions.filter fun txn => txn.counters ≠ [] ∧ classify txn = category).map
    fun txn => collection.cpuInfo.convertCyclesToTime (getElapsedTsc txn)

def HasCategory (category : String) (collection : TxnCollection) : Prop :=
  ∃ txn ∈ collection.transactions, txn.counters ≠ [] ∧ classify txn = category

instance (category : String) (collection : TxnCollection) :
    Decidable (HasCategory classify category collection) :=
  inferInstanceAs (Decidable (∃ txn ∈ collection.transactions, _))

theorem elapsedTimes_ne_nil_iff (category : String) (collection : TxnCollection) :
    elapsedTimes classify category collection ≠ [] ↔ HasCategory classify category collection := by
  simp [elapsedTimes, HasCategory]

theorem get_addOrUpdateContainer {container : OrderedDict String (List ℚ)} {category : String}
    {values : List ℚ} (holds : OrderedDict.get category container = unlessEmpty values)
    (key : Transaction) (value : ℚ) :
    OrderedDict.get category (addOrUpdateContainer classify container key value) =
      unlessEmpty (values ++ if classify key = category then [value] else []) := by
  rw [addOrUpdateContainer]
  by_cases same : classify key = category
  · subst same
    rw [holds, if_pos rfl]
    by_cases empty : values = []
    · simp [unlessEmpty, empty, OrderedDict.get_update]
    · simp [unlessEmpty, empty, OrderedDict.get_update]
  · rw [if_neg same, List.append_nil, ← holds]
    split
    all_goals rw [OrderedDict.get_update, if_neg same]

theorem get_groupElapsedTime (category : String) (collection : TxnCollection) :
    OrderedDict.get category (groupElapsedTime classify collection) =
      unlessEmpty (elapsedTimes classify category collection) := by
  rw [groupElapsedTime, elapsedTimes]
  induction collection.transactions using List.reverseRecOn with
  | nil => rfl
  | append_singleton txns txn ih =>
      rw [List.foldl_append, List.foldl_cons, List.foldl_nil, List.filter_append, List.map_append]
      by_cases empty : txn.counters = []
      · simp [empty, ih]
      · rw [if_neg empty, get_addOrUpdateContainer classify ih]
        by_cases same : classify txn = category
        · simp [empty, same]
        · simp [same]

theorem nodup_groupElapsedTime (collection : TxnCollection) :
    (OrderedDict.keys (groupElapsedTime classify collection)).Nodup := by
  rw [groupElapsedTime]
  induction collection.transactions using List.reverseRecOn with
  | nil => exact List.nodup_nil
  | append_singleton txns txn ih =>
      rw [List.foldl_append, List.foldl_cons, List.foldl_nil]
      split
      · exact ih
      · rw [addOrUpdateContainer]
        split
        all_goals exact OrderedDict.nodup_keys_update _ _ ih

def addTimes (i : Nat) (times : Option (List ℚ)) (bundle : Option (List (List ℚ))) :
    Option (List (List ℚ)) :=
  match times, bundle with
  | none, bundle => bundle
  | some times, some bundle => some (bundle ++ [times])
  | some times, none => if i = 0 then some [times] else none

theorem get_addCategory (i : Nat) (bundles : Bundles) (entry : String × List ℚ) (category : String) :
    OrderedDict.get category (addCategory i bundles entry) =
      if entry.1 = category then addTimes i (some entry.2) (OrderedDict.get category bundles)
      else OrderedDict.get category bundles := by
  rw [addCategory]
  by_cases same : entry.1 = category
  · subst same
    rw [if_pos rfl]
    cases found : OrderedDict.get entry.1 bundles with
    | some bundle => simp [OrderedDict.get_update, addTimes]
    | none =>
        by_cases first : i = 0
        · simp [first, OrderedDict.get_update, addTimes]
        · simp [first, found, addTimes]
  · rw [if_neg same]
    cases OrderedDict.get entry.1 bundles with
    | some bundle => simp [OrderedDict.get_update, same]
    | none =>
        by_cases first : i = 0
        · simp [first, OrderedDict.get_update, same]
        · simp [first]

theorem get_foldl_addCategory (i : Nat) {elapsedTscMap : OrderedDict String (List ℚ)}
    (distinct : (OrderedDict.keys elapsedTscMap).Nodup) (bundles : Bundles) (category : String) :
    OrderedDict.get category (elapsedTscMap.foldl (addCategory i) bundles) =
      addTimes i (OrderedDict.get category elapsedTscMap) (OrderedDict.get category bundles) := by
  induction elapsedTscMap generalizing bundles with
  | nil => rfl
  | cons entry rest ih =>
      obtain ⟨absent, distinct⟩ := List.nodup_cons.mp distinct
      rw [List.foldl_cons, ih distinct, get_addCategory, OrderedDict.get]
      by_cases same : entry.1 = category
      · subst same
        rw [OrderedDict.get_of_not_mem absent, if_pos rfl, if_pos rfl]
        rfl
      · rw [if_neg same, if_neg same]

theorem nodup_foldl_addCategory (i : Nat) (elapsedTscMap : OrderedDict String (List ℚ))
    {bundles : Bundles} (distinct : (OrderedDict.keys bundles).Nodup) :
    (OrderedDict.keys (elapsedTscMap.foldl (addCategory i) bundles)).Nodup := by
  induction elapsedTscMap generalizing bundles with
  | nil => exact distinct
  | cons entry rest ih =>
      refine ih ?_
      rw [addCategory]
      split
      · exact OrderedDict.nodup_keys_update _ _ distinct
      · split
        · exact OrderedDict.nodup_keys_update _ _ distinct
        · exact distinct

theorem get_addCollection {bundles next : Bundles} {entry : TxnCollection × Nat}
    (added : addCollection classify bundles entry = .ok next) (category : String) :
    OrderedDict.get category next =
      addTimes entry.2 (unlessEmpty (elapsedTimes classify category entry.1))
        (OrderedDict.get category bundles) := by
  rw [← get_groupElapsedTime]
  simp only [addCollection] at added
  split at added
  · cases added
    exact get_foldl_addCategory entry.2 (nodup_groupElapsedTime classify entry.1) bundles category
  case isFalse none =>
    rw [not_not.mp none]
    split at added
    · cases added
    · cases added
      rfl

theorem nodup_addCollection {bundles next : Bundles} {entry : TxnCollection × Nat}
    (distinct : (OrderedDict.keys bundles).Nodup)
    (added : addCollection classify bundles entry = .ok next) : (OrderedDict.keys next).Nodup := by
  simp only [addCollection] at added
  split at added
  · cases added
    exact nodup_foldl_addCategory entry.2 _ distinct
  · split at added
    · cases added
    · cases added
      exact distinct

def shownCollections (category : String) (txnCollections : List TxnCollection) :
    List TxnCollection :=
  txnCollections.filter fun collection => HasCategory classify category collection

theorem shownCollections_cons {category : String} {current : TxnCollection}
    (has : HasCategory classify category current) (benchmarks : List TxnCollection) :
    shownCollections classify category (current :: benchmarks) =
      current :: shownCollections classify category benchmarks :=
  List.filter_cons_of_pos (decide_eq_true has)

theorem unlessEmpty_elapsedTimes (category : String) (collection : TxnCollection) :
    unlessEmpty (elapsedTimes classify category collection) =
      if HasCategory classify category collection then
        some (elapsedTimes classify category collection) else none := by
  rw [unlessEmpty]
  by_cases has : HasCategory classify category collection
  · rw [if_pos has, if_neg ((elapsedTimes_ne_nil_iff classify category collection).mpr has)]
  · rw [if_neg has, if_pos]
    by_contra some
    exact has ((elapsedTimes_ne_nil_iff classify category collection).mp some)

theorem get_foldlM_addCollection {benchmarks : List TxnCollection} {start : Nat} (later : start ≠ 0)
    {bundles next : Bundles}
    (folded : (benchmarks.zipIdx start).foldlM (addCollection classify) bundles = .ok next)
    (category : String) :
    OrderedDict.get category next = (OrderedDict.get category bundles).map fun bundle =>
      bundle ++ (shownCollections classify category benchmarks).map
        (elapsedTimes classify category) := by
  induction benchmarks generalizing start bundles with
  | nil =>
      cases folded
      simp [shownCollections]
  | cons benchmark benchmarks ih =>
      rw [List.zipIdx_cons, List.foldlM_cons] at folded
      obtain ⟨between, added, rest⟩ := bind_eq_ok folded
      rw [ih (Nat.succ_ne_zero start) rest, get_addCollection classify added,
        unlessEmpty_elapsedTimes, shownCollections, shownCollections]
      by_cases has : HasCategory classify category benchmark
      · cases OrderedDict.get category bundles with
        | some bundle => simp [has, addTimes]
        | none => simp [has, addTimes, later]
      · simp [has, addTimes]

theorem get_buildElapsedTimeBundles {current : TxnCollection} {benchmarks : List TxnCollection}
    {bundles : Bundles}
    (built : buildElapsedTimeBundles classify (current :: benchmarks) = .ok bundles)
    (category : String) :
    OrderedDict.get category bundles =
      if HasCategory classify category current then
        some ((shownCollections classify category (current :: benchmarks)).map
          (elapsedTimes classify category))
      else none := by
  rw [buildElapsedTimeBundles, List.zipIdx_cons, List.foldlM_cons] at built
  obtain ⟨between, added, rest⟩ := bind_eq_ok built
  rw [get_foldlM_addCollection classify Nat.one_ne_zero rest, get_addCollection classify added,
    unlessEmpty_elapsedTimes, shownCollections, shownCollections]
  by_cases has : HasCategory classify category current
  · simp [has, addTimes, OrderedDict.get]
  · simp [has, addTimes, OrderedDict.get]

theorem nodup_buildElapsedTimeBundles {txnCollections : List TxnCollection} {bundles : Bundles}
    (built : buildElapsedTimeBundles classify txnCollections = .ok bundles) :
    (OrderedDict.keys bundles).Nodup :=
  @foldlM_keeps _ _ _ (addCollection classify) (fun bundles => (OrderedDict.keys bundles).Nodup)
    (fun _ => True) (fun _ _ _ distinct _ added => nodup_addCollection classify distinct added)
    _ [] _ List.nodup_nil (fun _ _ => trivial) built

theorem exists_addCollection (bundles : Bundles) {entry : TxnCollection × Nat}
    (fine : entry.2 = 0 → ∃ category, HasCategory classify category entry.1) :
    ∃ next, addCollection classify bundles entry = .ok next := by
  simp only [addCollection]
  split
  case isTrue => exact ⟨_, rfl⟩
  case isFalse none =>
    rw [if_neg]
    · exact ⟨bundles, rfl⟩
    · intro first
      obtain ⟨category, has⟩ := fine first
      have found := get_groupElapsedTime classify category entry.1
      rw [not_not.mp none, unlessEmpty_elapsedTimes, if_pos has] at found
      cases found

theorem exists_buildElapsedTimeBundles {current : TxnCollection} {category : String}
    (has : HasCategory classify category current) (benchmarks : List TxnCollection) :
    ∃ bundles, buildElapsedTimeBundles classify (current :: benchmarks) = .ok bundles := by
  refine exists_foldlM_eq_ok (fun bundles entry listed => exists_addCollection classify bundles ?_) []
  intro first
  have located := List.mem_zipIdx_iff_getElem?.mp listed
  rw [first, List.getElem?_cons_zero] at located
  cases located
  exact ⟨category, has⟩

end Bundles

section Prefix

variable {α γ δ : Type}

/-- The elements that are kept stand next to themselves exactly when they come first. -/
theorem zipWith_filter_eq_map_iff {label : α → α → γ} {name : α → δ}
    (told : ∀ first second shown, label first shown = label second shown → name first = name second)
    (kept : α → Bool) {items : List α} (distinct : (items.map name).Nodup) :
    List.zipWith label items (items.filter kept) =
        (items.filter kept).map (fun item => label item item) ↔
      items.Pairwise fun earlier later => kept later → kept earlier := by
  induction items with
  | nil => simp
  | cons item items ih =>
      rw [List.map_cons, List.nodup_cons] at distinct
      rw [List.pairwise_cons]
      by_cases keep : kept item
      · rw [List.filter_cons_of_pos keep, List.zipWith_cons_cons, List.map_cons, List.cons_inj_right,
          ih distinct.2]
        exact ⟨fun rest => ⟨fun _ _ _ => keep, rest⟩, fun both => both.2⟩
      · rw [List.filter_cons_of_neg keep]
        cases rest : items.filter kept with
        | nil =>
            have none : ∀ later ∈ items, ¬kept later := List.filter_eq_nil_iff.mp rest
            refine ⟨fun _ => ⟨fun later listed found => absurd found (none later listed), ?_⟩,
              fun _ => rfl⟩
            exact List.pairwise_of_forall_mem_list fun _ _ later listed found =>
              absurd found (none later listed)
        | cons first others =>
            have listed : first ∈ items ∧ kept first := List.mem_filter.mp (rest ▸ List.mem_cons_self)
            constructor
            · intro same
              rw [List.zipWith_cons_cons, List.map_cons, List.cons.injEq] at same
              have sameName := told item first first same.1
              exact absurd (List.mem_map.mpr ⟨first, listed.1, sameName.symm⟩) distinct.1
            · intro both
              exact absurd (both.1 first listed.1 listed.2) keep

theorem zipWith_filter_eq_map (count : α → γ) (kept : α → Bool) (items : List α) :
    List.zipWith (fun _ => count) items (items.filter kept) = (items.filter kept).map count := by
  have short : (items.filter kept).length ≤ items.length := List.length_filter_le kept items
  calc List.zipWith (fun _ => count) items (items.filter kept)
      = (List.zip items (items.filter kept)).map fun pair => count pair.2 :=
        (List.map_zip_eq_zipWith (f := fun pair : α × α => count pair.2)).symm
    _ = ((List.zip items (items.filter kept)).map Prod.snd).map count := List.map_map.symm
    _ = (items.filter kept).map count := by rw [List.map_snd_zip short]

end Prefix

section Buckets

variable {bucketSize upperBound : ℚ}

theorem bucketsFrom_add {rounds : Nat} {bucket : ℚ}
    (ended : upperBound < bucket + rounds * bucketSize) (more : Nat) :
    bucketsFrom bucketSize upperBound (rounds + more) bucket =
      bucketsFrom bucketSize upperBound rounds bucket := by
  induction rounds generalizing bucket with
  | zero =>
      cases more with
      | zero => rfl
      | succ more =>
          have past : ¬bucket ≤ upperBound := by simpa using ended
          rw [Nat.zero_add, bucketsFrom.eq_1, bucketsFrom, if_neg past]
  | succ rounds ih =>
      have later : upperBound < bucket + bucketSize + rounds * bucketSize := by
        push_cast at ended
        linarith
      rw [Nat.succ_add, bucketsFrom, bucketsFrom, ih later]

/-- The rounds that `buildBuckets` allows are as many as the loop takes. -/
theorem bucketsFrom_buildBuckets (mean : ℚ) {bucketCount : Nat} (some_bucket : 0 < bucketCount)
    (more : Nat) :
    let bucketSize := (mean * 2 - mean / 2) / bucketCount
    bucketSize ≠ 0 → bucketsFrom bucketSize (mean * 2) (bucketCount + 1 + more) (mean / 2) =
      bucketsFrom bucketSize (mean * 2) (bucketCount + 1) (mean / 2) := by
  intro bucketSize some_size
  have count : (0 : ℚ) < bucketCount := Nat.cast_pos.mpr some_bucket
  have whole : bucketCount * bucketSize = mean * 2 - mean / 2 := by
    rw [mul_comm]
    exact div_mul_cancel₀ _ count.ne'
  by_cases positive : 0 < bucketSize
  · apply bucketsFrom_add
    push_cast
    linarith
  · -- a mean below zero, where the first bucket is past the bound
    have negative : bucketSize < 0 := lt_of_le_of_ne (not_lt.mp positive) some_size
    have past : ¬mean / 2 ≤ mean * 2 := by
      have below : bucketCount * bucketSize < 0 := mul_neg_of_pos_of_neg count negative
      linarith
    rw [show bucketCount + 1 + more = bucketCount + more + 1 by omega, bucketsFrom, bucketsFrom,
      if_neg past, if_neg past]

end Buckets

section Plot

variable (figures : Figures)

def labelFor (name : String) (times : List ℚ) : String :=
  legendFor figures name (times.min?.getD 0) (times.max?.getD 0) times

theorem name_eq_of_labelFor_eq {first second : String} {times : List ℚ}
    (same : labelFor figures first times = labelFor figures second times) : first = second :=
  (String.append_left_inj _).mp same

def seriesFor (buckets : List ℚ) (name : String) (times : List ℚ) : String × List Nat :=
  (labelFor figures name times, (buildDistribution buckets times).1)

theorem plot_eq_ok {txnCollections : List TxnCollection} {buckets times : List ℚ} {i : Nat}
    {series : String × List Nat}
    (plotted : plot figures txnCollections buckets (times, i) = .ok series) :
    ∃ collection, txnCollections[i]? = some collection ∧
      series = seriesFor figures buckets collection.name times := by
  simp only [plot] at plotted
  split at plotted
  case h_1 => cases plotted
  case h_2 collection present =>
    refine ⟨collection, present, ?_⟩
    split at plotted
    case h_1 minimum maximum least greatest =>
      cases plotted
      rw [seriesFor, labelFor, least, greatest, Option.getD_some, Option.getD_some]
    case h_2 => cases plotted

theorem mapM_plot {txnCollections : List TxnCollection} {buckets : List ℚ} {bundle : List (List ℚ)}
    {start : Nat} {yaxis : List (String × List Nat)}
    (plotted : (bundle.zipIdx start).mapM (plot figures txnCollections buckets) = .ok yaxis) :
    yaxis = List.zipWith (fun collection => seriesFor figures buckets collection.name)
      (txnCollections.drop start) bundle := by
  induction bundle generalizing start yaxis with
  | nil =>
      rw [List.zipWith_nil_right]
      cases plotted
      rfl
  | cons times bundle ih =>
      rw [List.zipIdx_cons, List.mapM_cons] at plotted
      obtain ⟨series, first, more⟩ := bind_eq_ok plotted
      obtain ⟨rest, others, last⟩ := bind_eq_ok more
      obtain ⟨collection, present, rfl⟩ := plot_eq_ok figures first
      obtain ⟨bound, rfl⟩ := List.getElem?_eq_some_iff.mp present
      cases last
      rw [List.drop_eq_getElem_cons bound, List.zipWith_cons_cons, ih others]

theorem buildSeries_eq_ok {ticks : List String} {stack : Bool} {width : ℚ}
    {entry : (String × List Nat) × Nat} {series : Series}
    (built : buildSeries ticks stack width entry = .ok series) :
    series.label = entry.1.1 ∧ series.counts = entry.1.2 := by
  simp only [buildSeries] at built
  split at built
  · cases built
  · cases built
    refine ⟨rfl, ?_⟩
    rw [Series.counts, List.map_snd_zip]
    rw [List.length_map, List.length_range]

theorem mapM_buildSeries {ticks : List String} {stack : Bool} {width : ℚ}
    {entries : List ((String × List Nat) × Nat)} {data : List Series}
    (built : entries.mapM (buildSeries ticks stack width) = .ok data) :
    data.map (fun series => (series.label, series.counts)) = entries.map Prod.fst := by
  have pairs := mapM_eq_ok_iff.mp built
  clear built
  induction pairs with
  | nil => rfl
  | cons first _ ih =>
      obtain ⟨label, counts⟩ := buildSeries_eq_ok first
      rw [List.map_cons, List.map_cons, label, counts, ih]

theorem buildHistograms_eq_ok {ticks : List String} {yaxis : List (String × List Nat)} {stack : Bool}
    {options : Options} {data : List Series}
    (built : buildHistograms ticks yaxis stack = .ok (options, data)) :
    data.map (fun series => (series.label, series.counts)) = yaxis := by
  obtain ⟨made, each, last⟩ := bind_eq_ok built
  cases last
  rw [mapM_buildSeries each, List.zipIdx_map_fst]

theorem length_buildDistribution (buckets times : List ℚ) :
    (buildDistribution buckets times).1.length = buckets.length := by
  rw [buildDistribution]
  induction times using List.reverseRecOn with
  | nil => exact List.length_replicate
  | append_singleton times value ih =>
      rw [List.foldl_append, List.foldl_cons, List.foldl_nil, addValue]
      split
      all_goals rw [List.length_modify, ih]

theorem exists_buildHistograms {ticks : List String} {yaxis : List (String × List Nat)}
    (fits : ∀ series ∈ yaxis, series.2.length ≤ ticks.length) (stack : Bool) :
    ∃ built, buildHistograms ticks yaxis stack = .ok built := by
  obtain ⟨data, each⟩ := @exists_mapM_eq_ok _ _ _
    (buildSeries ticks stack (totalWidth / (((yaxis.length + 1 : ℚ) / 2) * 2))) yaxis.zipIdx (by
      intro entry listed
      have short := fits entry.1 (List.fst_mem_of_mem_zipIdx listed)
      rw [buildSeries]
      exact ⟨_, if_neg (Nat.not_lt.mpr short)⟩)
  rw [buildHistograms, bind_of_eq_ok each]
  exact ⟨_, rfl⟩

theorem exists_plot {txnCollections : List TxnCollection} (buckets : List ℚ) {times : List ℚ} {i : Nat}
    (bound : i < txnCollections.length) (some_time : times ≠ []) :
    ∃ series, plot figures txnCollections buckets (times, i) = .ok series := by
  obtain ⟨minimum, least⟩ := Option.ne_none_iff_exists'.mp (mt List.min?_eq_none_iff.mp some_time)
  obtain ⟨maximum, greatest⟩ := Option.ne_none_iff_exists'.mp (mt List.max?_eq_none_iff.mp some_time)
  simp only [plot, List.getElem?_eq_getElem bound, least, greatest]
  exact ⟨_, rfl⟩

theorem exists_addHistogram {txnCollections : List TxnCollection} (runId : Nat)
    (histograms : OrderedDict String Histogram) {category : String} {bundle : List (List ℚ)}
    (some_list : bundle ≠ []) (short : bundle.length ≤ txnCollections.length)
    (some_time : ∀ times ∈ bundle, times ≠ []) :
    ∃ next, addHistogram figures txnCollections runId histograms (category, bundle) = .ok next := by
  obtain ⟨current, rest, rfl⟩ := List.exists_cons_of_ne_nil some_list
  rw [addHistogram]
  simp only
  split
  · exact ⟨histograms, rfl⟩
  · exact ⟨histograms, rfl⟩
  case h_3 buckets _ _ =>
    obtain ⟨yaxis, plotted⟩ := @exists_mapM_eq_ok _ _ _ (plot figures txnCollections buckets)
      (current :: rest).zipIdx (by
        intro entry listed
        have bound := List.snd_lt_of_mem_zipIdx listed
        exact exists_plot figures buckets (by omega)
          (some_time entry.1 (List.fst_mem_of_mem_zipIdx listed)))
    have made := mapM_plot figures plotted
    have fits : ∀ series ∈ yaxis, series.2.length ≤ (formatBuckets figures buckets).length := by
      intro series listed
      rw [made, ← List.map_uncurry_zip_eq_zipWith] at listed
      obtain ⟨pair, _, rfl⟩ := List.mem_map.mp listed
      rw [formatBuckets, List.length_map, List.length_zipIdx]
      exact (length_buildDistribution buckets pair.2).le
    obtain ⟨built, drawn⟩ := exists_buildHistograms fits false
    rw [bind_of_eq_ok plotted, bind_of_eq_ok drawn]
    exact ⟨_, rfl⟩

def Plots (classify : Transaction → String) (current : TxnCollection)
    (benchmarks : List TxnCollection) (category : String) (histogram : Histogram) : Prop :=
  HasCategory classify category current ∧ ∃ buckets,
    buildBuckets (elapsedTimes classify category current) 35 = some buckets ∧
    histogram.data.map (fun series => (series.label, series.counts)) =
      List.zipWith (fun collection shown =>
        seriesFor figures buckets collection.name (elapsedTimes classify category shown))
        (current :: benchmarks) (shownCollections classify category (current :: benchmarks))

theorem addHistogram_plots {classify : Transaction → String} {current : TxnCollection}
    {benchmarks : List TxnCollection} {runId : Nat} {histograms next : OrderedDict String Histogram}
    {category : String} {bundle : List (List ℚ)}
    (holds : ∀ entry ∈ histograms, Plots figures classify current benchmarks entry.1 entry.2)
    (has : HasCategory classify category current)
    (bundled : bundle = (shownCollections classify category (current :: benchmarks)).map
      (elapsedTimes classify category))
    (added : addHistogram figures (current :: benchmarks) runId histograms (category, bundle) =
      .ok next) :
    ∀ entry ∈ next, Plots figures classify current benchmarks entry.1 entry.2 := by
  have first : bundle = elapsedTimes classify category current ::
      (shownCollections classify category benchmarks).map (elapsedTimes classify category) := by
    rw [bundled, shownCollections_cons classify has, List.map_cons]
  rw [addHistogram, first] at added
  simp only at added
  split at added
  case h_1 => exact Except.ok.inj added ▸ holds
  case h_2 => exact Except.ok.inj added ▸ holds
  case h_3 buckets _ made =>
    rw [← first] at added
    obtain ⟨yaxis, plotted, more⟩ := bind_eq_ok added
    obtain ⟨⟨options, data⟩, built, last⟩ := bind_eq_ok more
    cases last
    intro entry member
    rcases OrderedDict.mem_update member with rfl | old
    · refine ⟨has, buckets, made, ?_⟩
      rw [buildHistograms_eq_ok built, mapM_plot figures plotted, bundled, List.zipWith_map_right,
        List.drop_zero]
    · exact holds entry old

theorem generateHistograms_plots {classify : Transaction → String} {repo : TxnRepo} {runId : Nat}
    {histograms : OrderedDict String Histogram}
    (generated : generateHistograms figures repo classify runId = .ok histograms) :
    ∃ current, repo.currentCollection = some current ∧ ∀ entry ∈ histograms,
      Plots figures classify current repo.getBenchmarks entry.1 entry.2 := by
  rw [generateHistograms] at generated
  split at generated
  case h_1 => cases generated
  case h_2 current isCurrent =>
    split at generated
    case isTrue => cases generated
    case isFalse =>
      obtain ⟨bundles, built, folded⟩ := bind_eq_ok generated
      refine ⟨current, isCurrent, ?_⟩
      refine @foldlM_keeps _ _ _ (addHistogram figures (current :: repo.getBenchmarks) runId)
        (fun histograms => ∀ entry ∈ histograms,
          Plots figures classify current repo.getBenchmarks entry.1 entry.2)
        (fun entry => entry ∈ bundles) ?_ bundles [] histograms (fun _ none => by cases none)
        (fun _ listed => listed) folded
      intro histograms entry next holds listed added
      have found := OrderedDict.get_of_mem (nodup_buildElapsedTimeBundles classify built) listed
      rw [get_buildElapsedTimeBundles classify built] at found
      split at found
      case isTrue has =>
        exact addHistogram_plots figures holds has (Option.some.inj found).symm added
      case isFalse => cases found

/-- Histograms are made whenever the current run has a transaction. -/
theorem exists_generateHistograms {classify : Transaction → String} {repo : TxnRepo} (runId : Nat)
    {current : TxnCollection} (isCurrent : repo.currentCollection = some current)
    (named : current.name = currentRun) {category : String}
    (has : HasCategory classify category current) :
    ∃ histograms, generateHistograms figures repo classify runId = .ok histograms := by
  obtain ⟨bundles, built⟩ := exists_buildElapsedTimeBundles classify has repo.getBenchmarks
  obtain ⟨histograms, drawn⟩ := @exists_foldlM_eq_ok _ _ _
    (addHistogram figures (current :: repo.getBenchmarks) runId) bundles (by
      intro histograms entry listed
      have found := OrderedDict.get_of_mem (nodup_buildElapsedTimeBundles classify built) listed
      rw [get_buildElapsedTimeBundles classify built] at found
      split at found
      case isFalse => cases found
      case isTrue owns =>
        refine exists_addHistogram figures runId histograms ?_ ?_ ?_
        all_goals rw [← Option.some.inj found]
        · rw [shownCollections_cons classify owns]
          exact List.cons_ne_nil _ _
        · rw [List.length_map]
          exact List.length_filter_le _ _
        · intro times listed
          obtain ⟨collection, shown, rfl⟩ := List.mem_map.mp listed
          exact (elapsedTimes_ne_nil_iff classify entry.1 collection).mpr
            (of_decide_eq_true (List.mem_filter.mp shown).2)) []
  refine ⟨histograms, ?_⟩
  have passes : ¬((!repo.isCurrent current || current.name ≠ currentRun) = true) := by
    simp [TxnRepo.isCurrent, isCurrent, named]
  rw [generateHistograms, isCurrent]
  simp only [if_neg passes]
  rw [bind_of_eq_ok built, drawn]

end Plot

def TxnRepo.getTxnCollections (repo : TxnRepo) : List TxnCollection :=
  repo.currentCollection.toList ++ repo.getBenchmarks

theorem TxnRepo.nodup_names (repo : TxnRepo) :
    (repo.getBenchmarks.map TxnCollection.name).Nodup := by
  have names : repo.getBenchmarks.map TxnCollection.name =
      OrderedDict.keys repo.benchmarkCollections := by
    rw [getBenchmarks, List.map_map]
    exact List.map_congr_left fun entry listed => (repo.named entry listed).symm
  exact names ▸ repo.distinct

theorem labels_eq_iff (figures : Figures) {classify : Transaction → String} {category : String}
    {current : TxnCollection} {benchmarks : List TxnCollection}
    (has : HasCategory classify category current)
    (distinct : (benchmarks.map TxnCollection.name).Nodup) :
    List.zipWith (fun collection shown =>
          labelFor figures collection.name (elapsedTimes classify category shown))
        (current :: benchmarks) (shownCollections classify category (current :: benchmarks)) =
      (shownCollections classify category (current :: benchmarks)).map (fun collection =>
        labelFor figures collection.name (elapsedTimes classify category collection)) ↔
      (current :: benchmarks).Pairwise fun earlier later =>
        HasCategory classify category later → HasCategory classify category earlier := by
  have told : ∀ first second shown : TxnCollection,
      labelFor figures first.name (elapsedTimes classify category shown) =
        labelFor figures second.name (elapsedTimes classify category shown) →
      first.name = second.name := fun _ _ _ => name_eq_of_labelFor_eq figures
  have rest := zipWith_filter_eq_map_iff told (fun collection => HasCategory classify category collection)
    distinct
  simp only [decide_eq_true_eq] at rest
  rw [shownCollections_cons classify has, List.zipWith_cons_cons, List.map_cons, List.cons_inj_right,
    List.pairwise_cons, ← rest]
  exact ⟨fun same => ⟨fun _ _ _ => has, same⟩, fun both => both.2⟩

/-- The `i`-th series shows the `i`-th collection with the category, and the series carry the
names of these collections unless one without the category stands before one with it. -/
theorem series_named_iff (figures : Figures) (repo : TxnRepo) (classify : Transaction → String)
    (runId : Nat) (histograms : OrderedDict String Histogram)
    (generated : generateHistograms figures repo classify runId = .ok histograms)
    (category : String) (histogram : Histogram) (plotted : (category, histogram) ∈ histograms) :
    let shown := shownCollections classify category repo.getTxnCollections
    ∃ buckets, (repo.currentCollection.bind fun current =>
        buildBuckets (elapsedTimes classify category current) 35) = some buckets ∧
      histogram.data.map Series.counts = shown.map (fun collection =>
        (buildDistribution buckets (elapsedTimes classify category collection)).1) ∧
      (histogram.data.map Series.label = shown.map (fun collection =>
          labelFor figures collection.name (elapsedTimes classify category collection)) ↔
        repo.getTxnCollections.Pairwise fun earlier later =>
          HasCategory classify category later → HasCategory classify category earlier) := by
  obtain ⟨current, isCurrent, plots⟩ := generateHistograms_plots figures generated
  obtain ⟨has, buckets, made, series⟩ := plots (category, histogram) plotted
  have all : repo.getTxnCollections = current :: repo.getBenchmarks := by
    rw [TxnRepo.getTxnCollections, isCurrent]
    rfl
  have counts := congrArg (List.map Prod.snd) series
  have labels := congrArg (List.map Prod.fst) series
  rw [List.map_map, List.map_zipWith] at counts labels
  rw [all]
  refine ⟨buckets, by rw [isCurrent]; exact made, ?_, ?_⟩
  · exact counts.trans (zipWith_filter_eq_map (fun collection =>
      (buildDistribution buckets (elapsedTimes classify category collection)).1) _ _)
  · rw [← labels_eq_iff figures has repo.nodup_names]
    exact Eq.congr_left labels

section Gap

def sampleAt (tsc : Nat) : Timelines.Counter :=
  ⟨"thread", ⟨"probe", some "probe", none, fun _ => by decide⟩, "", tsc, []⟩

def txnOf (txnId elapsed : Nat) : Transaction :=
  ⟨txnId, [sampleAt 1000, sampleAt (1000 + elapsed)], ⟨[]⟩⟩

def oddOrEven (txn : Transaction) : String := if txn.txnId % 2 = 0 then "even" else "odd"

def oneGigahertz : CpuInfo := ⟨"cpu", 1000000000, by decide⟩

def wholeFigures : Figures where
  mean := fun times => times.sum / times.length
  median := fun times => times.sum / times.length
  percentile := fun times _ => times.max?.getD 0
  fixedPoint := fun value => toString (Int.toNat ⌊value⌋) ++ ".00"
  threeDigits := fun value => toString (Int.toNat ⌊value⌋)

/-- A benchmark without odd transactions before one that has them. -/
def gapRepo : TxnRepo where
  currentCollection := some ⟨0, currentRun, oneGigahertz, [txnOf 1 2000, txnOf 3 4000]⟩
  benchmarkCollections := [("slow", ⟨1, "slow", oneGigahertz, [txnOf 2 9000]⟩),
    ("fast", ⟨2, "fast", oneGigahertz, [txnOf 1 1000]⟩)]
  named := by simp
  distinct := by simp [OrderedDict.keys]

def gapLabels : List String :=
  ["current run (min. = 2.00us, max. = 4.00us, mean = 3.00us, median = 3.00us, " ++
    "95% = 4.00us, 99% = 4.00us)",
   "slow (min. = 1.00us, max. = 1.00us, mean = 1.00us, median = 1.00us, " ++
    "95% = 1.00us, 99% = 1.00us)"]

theorem exists_generateHistograms_gap :
    ∃ histogram, generateHistograms wholeFigures gapRepo oddOrEven 7 = .ok [("odd", histogram)] ∧
      histogram.data.map Series.label = gapLabels := by
  have labels : (generateHistograms wholeFigures gapRepo oddOrEven 7).toOption.map
      (List.map fun entry => (entry.1, entry.2.data.map Series.label)) = some [("odd", gapLabels)] := by
    decide +kernel
  cases generated : generateHistograms wholeFigures gapRepo oddOrEven 7 with
  | error failure =>
      rw [generated] at labels
      cases labels
  | ok histograms =>
      rw [generated] at labels
      obtain ⟨⟨category, histogram⟩, rfl, same⟩ :=
        List.map_eq_singleton_iff.mp (Option.some.inj labels)
      obtain ⟨rfl, drawn⟩ := Prod.mk.inj same
      exact ⟨histogram, rfl, drawn⟩

theorem series_misnamed :
    ¬∀ (figures : Figures) (repo : TxnRepo) (classify : Transaction → String) (runId : Nat)
      (histograms : OrderedDict String Histogram),
      generateHistograms figures repo classify runId = .ok histograms →
      ∀ category histogram, (category, histogram) ∈ histograms →
        histogram.data.map Series.label =
          (shownCollections classify category repo.getTxnCollections).map fun collection =>
            labelFor figures collection.name (elapsedTimes classify category collection) := by
  intro always
  obtain ⟨histogram, generated, labels⟩ := exists_generateHistograms_gap
  have named := always _ _ _ _ _ generated "odd" histogram List.mem_cons_self
  rw [labels] at named
  revert named
  decide +kernel

theorem series_named_iff_gap :
    ∃ histogram, generateHistograms wholeFigures gapRepo oddOrEven 7 = .ok [("odd", histogram)] ∧
      let shown := shownCollections oddOrEven "odd" gapRepo.getTxnCollections
      ∃ buckets, (gapRepo.currentCollection.bind fun current =>
          buildBuckets (elapsedTimes oddOrEven "odd" current) 35) = some buckets ∧
        histogram.data.map Series.counts = shown.map (fun collection =>
          (buildDistribution buckets (elapsedTimes oddOrEven "odd" collection)).1) ∧
        (histogram.data.map Series.label = shown.map (fun collection =>
            labelFor wholeFigures collection.name (elapsedTimes oddOrEven "odd" collection)) ↔
          gapRepo.getTxnCollections.Pairwise fun earlier later =>
            HasCategory oddOrEven "odd" later → HasCategory oddOrEven "odd" earlier) := by
  obtain ⟨histogram, generated, _⟩ := exists_generateHistograms_gap
  exact ⟨histogram, generated, series_named_iff wholeFigures gapRepo oddOrEven 7 _ generated "odd"
    histogram List.mem_cons_self⟩

end Gap

end Xpedite.Report
