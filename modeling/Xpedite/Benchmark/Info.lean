import Xpedite.Benchmark.InfoCore
import Xpedite.Lib.Fallible

/-!
What the info file of a benchmark keeps of its events: the names, the order, and neither of the
flags, since every text that stands for a flag reads as set.
-/

namespace Xpedite.Benchmark

open Lib
open Profiler (Event)

abbrev counterKey (index : Nat) : Text := optionxform (benchmarkPmcCounter index)

abbrev countKey : Text := optionxform benchmarkPmcCounterCount

theorem benchmarkPmcCounter_injective {first second : Nat}
    (same : benchmarkPmcCounter first = benchmarkPmcCounter second) : first = second := by
  have digits := List.append_cancel_left same
  have read := int_decimal first
  rw [digits, int_decimal second] at read
  exact (Int.ofNat.inj (Option.some.inj read)).symm

theorem optionxform_toDigits (number : Nat) :
    optionxform (Nat.toDigits 10 number) = Nat.toDigits 10 number := by
  have fixed : ∀ digit < 10, (Nat.digitChar digit).toLower = Nat.digitChar digit := by decide
  have each : ∀ char ∈ Nat.toDigits 10 number, char.toLower = id char := by
    intro char member
    obtain ⟨digit, bound, rfl⟩ := digitChar_of_mem_toDigits (by omega) member
    exact fixed digit bound
  rw [optionxform, List.map_congr_left each, List.map_id]

theorem optionxform_benchmarkPmcCounter (index : Nat) :
    counterKey index = benchmarkPmcCounter index := by
  have name : benchmarkPmcCounter index = "counter#".toList ++ Nat.toDigits 10 index := rfl
  have front : optionxform "counter#".toList = "counter#".toList := rfl
  rw [counterKey, name, optionxform, List.map_append]
  rw [optionxform] at front
  rw [front, ← optionxform, optionxform_toDigits]

theorem counterKey_ne_countKey (index : Nat) : counterKey index ≠ countKey := by
  rw [optionxform_benchmarkPmcCounter]
  intro same
  have mark : (benchmarkPmcCounter index)[7]? = some '#' := rfl
  have letter : countKey[7]? = some 'c' := rfl
  rw [same, letter] at mark
  exact absurd mark (by decide)

section Saved

variable (today benchmarkName : Text) (cpuInfo : CpuInfo)

def infoSections : OrderedDict Text (OrderedDict Text ConfigValue) :=
  [(benchmarkSection,
      [(benchmarkNameKey, .text benchmarkName),
        (benchmarkLegendKey, .text (benchmarkName ++ " run at ".toList ++ today))]),
    (benchmarkCpuInfoSection,
      [(benchmarkCpuIdKey, .text cpuInfo.cpuId),
        (benchmarkCpuFrequencyKey, .number cpuInfo.frequency)])]

def savedConfig (pmc : OrderedDict Text (OrderedDict Text ConfigValue)) :
    RawConfigParser ConfigValue where
  defaults := []
  sections := infoSections today benchmarkName cpuInfo ++ pmc

abbrev pmcConfig (options : OrderedDict Text ConfigValue) : RawConfigParser ConfigValue :=
  savedConfig today benchmarkName cpuInfo [(benchmarkPmcSection, options)]

def counterEntry (entry : Event × Nat) : Text × ConfigValue :=
  (counterKey entry.2, .text (eventText entry.1))

def pmcOptions (events : List Event) : OrderedDict Text ConfigValue :=
  (countKey, .number events.length) :: events.zipIdx.map counterEntry

theorem nodup_keys_pmcOptions (events : List Event) :
    (OrderedDict.keys (pmcOptions events)).Nodup := by
  have listed : OrderedDict.keys (pmcOptions events) =
      countKey :: (events.zipIdx.map Prod.snd).map counterKey := by
    simp only [OrderedDict.keys, pmcOptions, List.map_cons, List.map_map]
    rfl
  rw [listed, List.zipIdx_map_snd, List.nodup_cons]
  refine ⟨fun member => ?_, List.Nodup.map_on (fun first _ second _ same => ?_) List.nodup_range'⟩
  · obtain ⟨index, _, same⟩ := List.mem_map.mp member
    exact counterKey_ne_countKey index same
  · rw [optionxform_benchmarkPmcCounter, optionxform_benchmarkPmcCounter] at same
    exact benchmarkPmcCounter_injective same

theorem foldlM_setCounter (entries : List (Event × Nat)) (options : OrderedDict Text ConfigValue) :
    entries.foldlM setCounter (pmcConfig today benchmarkName cpuInfo options) =
      .ok (pmcConfig today benchmarkName cpuInfo
        ((entries.map counterEntry).foldl
          (fun dict entry => OrderedDict.update entry.1 entry.2 dict) options)) := by
  induction entries generalizing options with
  | nil => rfl
  | cons entry entries ih =>
      have first : setCounter (pmcConfig today benchmarkName cpuInfo options) entry =
          .ok (pmcConfig today benchmarkName cpuInfo
            (OrderedDict.update (counterKey entry.2) (.text (eventText entry.1)) options)) := rfl
      rw [List.foldlM_cons, bind_of_eq_ok first, ih, List.map_cons, List.foldl_cons, counterEntry]

theorem benchmarkConfig_empty : benchmarkConfig today benchmarkName cpuInfo (some []) =
    .ok (savedConfig today benchmarkName cpuInfo []) := rfl

theorem benchmarkConfig_events {events : List Event} (full : events ≠ []) :
    benchmarkConfig today benchmarkName cpuInfo (some events) =
      .ok (pmcConfig today benchmarkName cpuInfo (pmcOptions events)) := by
  have start : benchmarkConfig today benchmarkName cpuInfo (some events) =
      events.zipIdx.foldlM setCounter
        (pmcConfig today benchmarkName cpuInfo [(countKey, .number events.length)]) := by
    cases events with
    | nil => exact absurd rfl full
    | cons event events => rfl
  have distinct := nodup_keys_pmcOptions events
  rw [pmcOptions, ← List.singleton_append] at distinct
  rw [start, foldlM_setCounter, OrderedDict.foldl_update_of_nodup distinct, pmcOptions,
    List.singleton_append]

end Saved

section Loaded

def withFlags (event : Event) : Event := { event with user := true, kernel := true }

theorem split_eventText {event : Event} (name : ',' ∉ event.name) (uarchName : ',' ∉ event.uarchName) :
    split [','] (eventText event) =
      [event.name, event.uarchName, boolText event.user, boolText event.kernel] := by
  have flag : ∀ flag : Bool, ',' ∉ boolText flag := by decide
  refine @split_intercalate ',' [] [] List.not_mem_nil _ (List.cons_ne_nil _ _)
    fun field listed => ?_
  simp only [List.mem_cons, List.not_mem_nil, or_false] at listed
  rcases listed with rfl | rfl | rfl | rfl
  · exact name
  · exact uarchName
  · exact flag _
  · exact flag _

variable {today benchmarkName : Text} {cpuInfo : CpuInfo}

theorem get_pmcConfig {options : OrderedDict Text ConfigValue} {option : Text} {value : ConfigValue}
    (stored : OrderedDict.get (optionxform option) options = some value) :
    ((pmcConfig today benchmarkName cpuInfo options).mapValues str).get benchmarkPmcSection option =
      .ok (str value) := by
  have listed : OrderedDict.get benchmarkPmcSection
      ((pmcConfig today benchmarkName cpuInfo options).mapValues str).sections =
        some (options.map fun entry => (entry.1, str entry.2)) := rfl
  rw [RawConfigParser.get, listed]
  dsimp only
  rw [OrderedDict.get_map, stored]
  rfl

theorem loadEvent_pmcConfig {events : List Event}
    (plain : ∀ event ∈ events, ',' ∉ event.name ∧ ',' ∉ event.uarchName) {event : Event} {index : Nat}
    (listed : (event, index) ∈ events.zipIdx) :
    loadEvent ((pmcConfig today benchmarkName cpuInfo (pmcOptions events)).mapValues str) index =
      .ok (withFlags event) := by
  have there : counterEntry (event, index) ∈ pmcOptions events :=
    List.mem_cons_of_mem _ (List.mem_map_of_mem listed)
  have stored : OrderedDict.get (counterKey index) (pmcOptions events) =
      some (.text (eventText event)) :=
    OrderedDict.get_of_mem (nodup_keys_pmcOptions events) there
  have read : ((pmcConfig today benchmarkName cpuInfo (pmcOptions events)).mapValues str).get
      benchmarkPmcSection (benchmarkPmcCounter index) = .ok (eventText event) := get_pmcConfig stored
  have commas := plain event (List.fst_mem_of_mem_zipIdx listed)
  have set : ∀ flag : Bool, bool (boolText flag) = true := by decide
  rw [loadEvent, bind_of_eq_ok read, split_eventText commas.1 commas.2]
  show Except.ok (Event.mk event.name event.uarchName (bool (boolText event.user))
    (bool (boolText event.kernel))) = _
  rw [set, set, withFlags]

theorem loadEvents_pmcConfig {events : List Event}
    (plain : ∀ event ∈ events, ',' ∉ event.name ∧ ',' ∉ event.uarchName) :
    loadEvents ((pmcConfig today benchmarkName cpuInfo (pmcOptions events)).mapValues str) =
      .ok (some (events.map withFlags)) := by
  have counted : OrderedDict.get countKey (pmcOptions events) = some (.number events.length) := by
    rw [pmcOptions, OrderedDict.get, if_pos rfl]
  have count : ((pmcConfig today benchmarkName cpuInfo (pmcOptions events)).mapValues str).getint
      benchmarkPmcSection benchmarkPmcCounterCount = .ok events.length := by
    rw [RawConfigParser.getint, bind_of_eq_ok (get_pmcConfig counted), str, int_decimal]
    rfl
  have each : (List.range events.length).mapM
      (loadEvent ((pmcConfig today benchmarkName cpuInfo (pmcOptions events)).mapValues str)) =
        .ok (events.map withFlags) := by
    refine mapM_eq_ok_iff.mpr (List.forall₂_iff_get.mpr ⟨by simp, fun index inRange inEvents => ?_⟩)
    rw [List.length_range] at inRange
    have listed : (events[index], index) ∈ events.zipIdx :=
      List.mk_mem_zipIdx_iff_getElem?.mpr (List.getElem?_eq_getElem inRange)
    simpa using loadEvent_pmcConfig plain listed
  have counting : ((pmcConfig today benchmarkName cpuInfo (pmcOptions events)).mapValues str).hasOption
      benchmarkPmcSection benchmarkPmcCounterCount = true := rfl
  rw [loadEvents, if_pos counting, bind_of_eq_ok count, Int.toNat_natCast, bind_of_eq_ok each]
  rfl

end Loaded

section Files

variable (format : ConfigFormat) (today benchmarkName path : Text) (cpuInfo : CpuInfo)

def reload (events : List Event) (files : Files) : Except InfoError (Option BenchmarkInfo) := do
  let files ← makeBenchmarkInfo format today benchmarkName path cpuInfo (some events) files
  loadBenchmarkInfo format path files

def reloadedEvents : List Event → Option (List Event)
  | [] => none
  | events => some (events.map withFlags)

variable {format today benchmarkName path cpuInfo}

theorem reload_of_config {events : List Event} {config : RawConfigParser ConfigValue}
    (files : Files) (made : benchmarkConfig today benchmarkName cpuInfo (some events) = .ok config)
    (verbatim : format.Verbatim config) :
    reload format today benchmarkName path cpuInfo events files =
      infoOf path (config.mapValues str) := by
  have written : makeBenchmarkInfo format today benchmarkName path cpuInfo (some events) files =
      .ok (Function.update files (join path benchmarkFileName) (some (format.write config))) :=
    bind_of_eq_ok made _
  rw [reload, bind_of_eq_ok written, loadBenchmarkInfo, Function.update_self]
  exact bind_of_eq_ok verbatim _

theorem infoOf_savedConfig {pmc : OrderedDict Text (OrderedDict Text ConfigValue)}
    {events : Option (List Event)}
    (loaded : loadEvents ((savedConfig today benchmarkName cpuInfo pmc).mapValues str) = .ok events) :
    infoOf path ((savedConfig today benchmarkName cpuInfo pmc).mapValues str) =
      .ok (some
        { benchmarkName, cpuInfo, path, legend := benchmarkName ++ " run at ".toList ++ today,
          events }) := by
  have name : ((savedConfig today benchmarkName cpuInfo pmc).mapValues str).get
      benchmarkSection benchmarkNameKey = .ok benchmarkName := rfl
  have legend : ((savedConfig today benchmarkName cpuInfo pmc).mapValues str).get
      benchmarkSection benchmarkLegendKey =
        .ok (benchmarkName ++ " run at ".toList ++ today) := rfl
  have cpu : ((savedConfig today benchmarkName cpuInfo pmc).mapValues str).hasSection
      benchmarkCpuInfoSection = true := rfl
  have cpuId : ((savedConfig today benchmarkName cpuInfo pmc).mapValues str).get
      benchmarkCpuInfoSection benchmarkCpuIdKey = .ok cpuInfo.cpuId := rfl
  have frequency : ((savedConfig today benchmarkName cpuInfo pmc).mapValues str).get
      benchmarkCpuInfoSection benchmarkCpuFrequencyKey = .ok (decimal cpuInfo.frequency) := rfl
  rw [infoOf, bind_of_eq_ok name, bind_of_eq_ok legend, if_pos cpu, bind_of_eq_ok cpuId,
    bind_of_eq_ok frequency, int_decimal]
  dsimp only
  rw [bind_of_eq_ok loaded]
  rfl

theorem reload_eq {events : List Event}
    (verbatim : ∀ config, benchmarkConfig today benchmarkName cpuInfo (some events) = .ok config →
      format.Verbatim config)
    (plain : ∀ event ∈ events, ',' ∉ event.name ∧ ',' ∉ event.uarchName) (files : Files) :
    reload format today benchmarkName path cpuInfo events files =
      .ok (some
        { benchmarkName, cpuInfo, path, legend := benchmarkName ++ " run at ".toList ++ today,
          events := reloadedEvents events }) := by
  by_cases full : events = []
  · subst full
    have made := benchmarkConfig_empty today benchmarkName cpuInfo
    have none : loadEvents ((savedConfig today benchmarkName cpuInfo []).mapValues str) =
        .ok none := rfl
    rw [reload_of_config files made (verbatim _ made)]
    exact infoOf_savedConfig none
  · have made := benchmarkConfig_events today benchmarkName cpuInfo full
    have some : reloadedEvents events = some (events.map withFlags) := by
      cases events with
      | nil => exact absurd rfl full
      | cons event events => rfl
    rw [reload_of_config files made (verbatim _ made), some]
    exact infoOf_savedConfig (loadEvents_pmcConfig plain)

theorem withFlags_eq_iff (event : Event) :
    withFlags event = event ↔ event.user = true ∧ event.kernel = true := by
  cases event
  simp only [withFlags, Event.mk.injEq, true_and, eq_comm]

theorem map_withFlags_eq_iff (events : List Event) :
    events.map withFlags = events ↔ ∀ event ∈ events, event.user = true ∧ event.kernel = true := by
  induction events with
  | nil => simp
  | cons event events ih =>
      rw [List.map_cons, List.cons.injEq, List.forall_mem_cons, withFlags_eq_iff, ih]

theorem reloadedEvents_eq_iff (events : List Event) :
    reloadedEvents events = some events ↔
      events ≠ [] ∧ ∀ event ∈ events, event.user = true ∧ event.kernel = true := by
  cases events with
  | nil => simp [reloadedEvents]
  | cons event events =>
      rw [reloadedEvents, Option.some.injEq, map_withFlags_eq_iff]
      · exact (and_iff_right (List.cons_ne_nil _ _)).symm
      · exact List.cons_ne_nil _ _

/-- Names, cpu info and events survive exactly where there are events and both flags of each are
set: the text of a cleared flag is not empty either. -/
theorem reload_restores_iff {events : List Event}
    (verbatim : ∀ config, benchmarkConfig today benchmarkName cpuInfo (some events) = .ok config →
      format.Verbatim config)
    (plain : ∀ event ∈ events, ',' ∉ event.name ∧ ',' ∉ event.uarchName) (files : Files) :
    (∃ info, reload format today benchmarkName path cpuInfo events files = .ok (some info) ∧
      info.benchmarkName = benchmarkName ∧ info.cpuInfo = cpuInfo ∧ info.events = some events) ↔
        events ≠ [] ∧ ∀ event ∈ events, event.user = true ∧ event.kernel = true := by
  rw [reload_eq verbatim plain, ← reloadedEvents_eq_iff]
  constructor
  · rintro ⟨info, loaded, _, _, same⟩
    obtain rfl := Option.some.inj (Except.ok.inj loaded)
    exact same
  · intro same
    exact ⟨_, rfl, rfl, rfl, same⟩

end Files

section Ini

def iniLine (entry : Text × ConfigValue) : Text :=
  entry.1 ++ " = ".toList ++ str entry.2 ++ ['\n']

def iniWrite (config : RawConfigParser ConfigValue) : Text :=
  config.sections.flatMap fun named =>
    ['['] ++ named.1 ++ [']', '\n'] ++ named.2.flatMap iniLine ++ ['\n']

def iniRead (config : RawConfigParser Text) (line : Text) : RawConfigParser Text :=
  match line, split " = ".toList line with
  | '[' :: name, _ => { config with sections := config.sections ++ [(name.dropLast, [])] }
  | _, [option, value] =>
      { config with
        sections := config.sections.modifyLast fun named =>
          (named.1, named.2 ++ [(option, value)]) }
  | _, _ => config

def iniFormat : ConfigFormat where
  write := iniWrite
  read text := .ok ((split ['\n'] text).foldl iniRead RawConfigParser.new)

def cycles (kernel : Bool) : Event where
  name := "cycles".toList
  uarchName := "CPU_CLK".toList
  user := true
  kernel := kernel

def xeon : CpuInfo := { cpuId := "GenuineIntel-6-55".toList, frequency := 2400000000 }

theorem verbatim_cycles (kernel : Bool) (config : RawConfigParser ConfigValue)
    (made : benchmarkConfig "2024-01-02".toList "base".toList xeon (some [cycles kernel]) = .ok config) :
    iniFormat.Verbatim config := by
  rw [benchmarkConfig_events _ _ _ (List.cons_ne_nil _ _)] at made
  obtain rfl := Except.ok.inj made
  rw [ConfigFormat.Verbatim]
  cases kernel
  · decide +kernel
  · decide +kernel

theorem plain_cycles (kernel : Bool) :
    ∀ event ∈ [cycles kernel], ',' ∉ event.name ∧ ',' ∉ event.uarchName := by
  rintro event listed
  rw [List.mem_singleton] at listed
  subst listed
  constructor
  · change ',' ∉ "cycles".toList
    decide
  · change ',' ∉ "CPU_CLK".toList
    decide

def misses : Event where
  name := "misses".toList
  uarchName := "LLC_MISS".toList
  user := true
  kernel := true

theorem verbatim_cyclesAndMisses (config : RawConfigParser ConfigValue)
    (made : benchmarkConfig "2024-01-02".toList "base".toList xeon (some [cycles true, misses]) =
      .ok config) : iniFormat.Verbatim config := by
  rw [benchmarkConfig_events _ _ _ (List.cons_ne_nil _ _)] at made
  obtain rfl := Except.ok.inj made
  rw [ConfigFormat.Verbatim]
  decide +kernel

theorem plain_cyclesAndMisses :
    ∀ event ∈ [cycles true, misses], ',' ∉ event.name ∧ ',' ∉ event.uarchName := by
  have plain : ',' ∉ "misses".toList ∧ ',' ∉ "LLC_MISS".toList := by decide
  rw [List.forall_mem_cons]
  refine ⟨plain_cycles true _ List.mem_cons_self, ?_⟩
  intro event listed
  rw [List.mem_singleton.mp listed]
  exact plain

theorem reload_restores_cyclesAndMisses :
    (∃ info, reload iniFormat "2024-01-02".toList "base".toList "/tmp".toList xeon
        [cycles true, misses] (fun _ => none) = .ok (some info) ∧
      info.benchmarkName = "base".toList ∧ info.cpuInfo = xeon ∧
      info.events = some [cycles true, misses]) ↔
        [cycles true, misses] ≠ [] ∧
          ∀ event ∈ [cycles true, misses], event.user = true ∧ event.kernel = true :=
  reload_restores_iff verbatim_cyclesAndMisses plain_cyclesAndMisses _

/-- An event that is only counted in user mode comes back as one of both modes. -/
theorem reload_user_only :
    (∀ config, benchmarkConfig "2024-01-02".toList "base".toList xeon (some [cycles false]) =
        .ok config → iniFormat.Verbatim config) ∧
      (∀ event ∈ [cycles false], ',' ∉ event.name ∧ ',' ∉ event.uarchName) ∧
      ∃ info, reload iniFormat "2024-01-02".toList "base".toList "/tmp".toList xeon [cycles false]
          (fun _ => none) = .ok (some info) ∧
        info.events = some [cycles true] ∧ info.events ≠ some [cycles false] := by
  refine ⟨verbatim_cycles false, plain_cycles false, _,
    reload_eq (verbatim_cycles false) (plain_cycles false) _, rfl, ?_⟩
  intro same
  exact Bool.noConfusion (congrArg Event.kernel (List.cons.inj (Option.some.inj same)).1)

end Ini

end Xpedite.Benchmark
