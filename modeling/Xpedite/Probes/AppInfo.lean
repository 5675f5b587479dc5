import Xpedite.Lib.Fallible
import Xpedite.Probes.AppInfoCore
import Xpedite.Probes.Listing

/-!
What a target logs of itself is what the profiler loads, but for the path of the executable, of
which only the first word is kept; and the samples of the target go to the probes they are of.
-/

namespace Xpedite.Probes

open Lib ProbeFactory
open Samples (Collaborators Counter Extractor Reading hexText loadSample toDigits_digits)

section Records

theorem digits_solid {base : Nat} (valid : 1 < base) (small : base ≤ 16) (number : Nat) :
    ∀ char ∈ Nat.toDigits base number, isSpace char = false :=
  fun char member => isSpace_eq_false_of_digit (by omega) (toDigits_digits valid small number char member)

theorem pointerText_solid (address : UInt64) :
    ∀ char ∈ pointerText address, isSpace char = false := by
  rw [pointerText]
  split
  · simp [isSpace]
  · rw [hexText, List.forall_mem_cons, List.forall_mem_cons]
    exact ⟨by decide, by decide, digits_solid (by decide) (by decide) _⟩

theorem statusText_solid (probe : Probe) : ∀ char ∈ statusText probe, isSpace char = false := by
  rw [statusText]
  split
  · exact solid_of_all rfl
  · exact solid_of_all rfl

theorem unbroken_fieldsOf {probe : Probe}
    (unbroken : ∀ text ∈ [probe.name, probe.file, probe.func], Unbroken text) :
    ∀ entry ∈ fieldsOf probe, Unbroken (fieldText entry) := by
  have each : ∀ key value : List Char, (∀ char ∈ key, isSpace char = false) → Unbroken value →
      Unbroken (fieldText (key, value)) := by
    intro key value solid rest
    refine (unbroken_of_solid solid).append ?_
    intro char member
    rcases List.mem_cons.mp member with rfl | inside
    · decide
    · exact rest char inside
  have id : Unbroken ((Nat.toDigits 10 probe.id.toNat).leftpad 4 '0') := by
    refine unbroken_of_solid fun char member => ?_
    rw [List.leftpad, List.mem_append, List.mem_replicate] at member
    rcases member with ⟨-, rfl⟩ | digit
    · decide
    · exact digits_solid (by decide) (by decide) _ char digit
  simp only [List.forall_mem_cons, List.not_mem_nil, false_implies, implies_true, and_true]
    at unbroken
  simp only [fieldsOf, List.forall_mem_cons, List.not_mem_nil, false_implies, implies_true, and_true]
  exact ⟨each _ _ (solid_of_all rfl) id,
    each _ _ (solid_of_all rfl) (unbroken_of_solid (pointerText_solid _)),
    each _ _ (solid_of_all rfl) (unbroken_of_solid (pointerText_solid _)),
    each _ _ (solid_of_all rfl) (unbroken_of_solid (pointerText_solid _)),
    each _ _ (solid_of_all rfl) (unbroken_of_solid (statusText_solid probe)),
    each _ _ (solid_of_all rfl) unbroken.1,
    each _ _ (solid_of_all rfl) unbroken.2.1,
    each _ _ (solid_of_all rfl) (unbroken_of_solid (digits_solid (by decide) (by decide) _)),
    each _ _ (solid_of_all rfl) unbroken.2.2,
    each _ _ (solid_of_all rfl) (unbroken_of_solid fun char member => (toString_solid _ char member).1)⟩

theorem unbroken_recordOf {probe : Probe}
    (unbroken : ∀ text ∈ [probe.name, probe.file, probe.func], Unbroken text) :
    Unbroken (recordOf probe) := by
  have between : Unbroken fieldDelimiter := by decide
  refine forall_mem_intercalate between ?_
  intro field listed
  obtain ⟨entry, member, rfl⟩ := List.mem_map.mp listed
  exact unbroken_fieldsOf unbroken entry member

end Records

section Load

variable {workspace : Option (List Char)} {target : Target}

def recordsOfTarget (target : Target) : List (List Char) :=
  ["pid: ".toList ++ Nat.toDigits 10 target.pid,
    "port: ".toList ++ Nat.toDigits 10 target.listenerPort.toNat,
    "binary: ".toList ++ target.executablePath,
    "tscHz: ".toList ++ Nat.toDigits 10 target.tscHz.toNat] ++ target.probes.map recordOf

theorem text_foldl_logProbe (probes : List Probe) (text : List Char) :
    (probes.foldl (fun stream probe => logProbe stream probe none) ⟨text, false, 0, ' '⟩).text =
      text ++ (probes.map recordOf).flatMap fun record => record ++ ['\n'] := by
  induction probes generalizing text with
  | nil => simp
  | cons probe probes ih => simp [logProbe_eq, ih]

theorem log_eq (target : Target) :
    Framework.log target = (recordsOfTarget target).flatMap fun record => record ++ ['\n'] := by
  have number : ∀ text value, OStream.number ⟨text, false, 0, ' '⟩ value =
      ⟨text ++ Nat.toDigits 10 value, false, 0, ' '⟩ := fun text value => put_eq text _
  have fresh : OStream.new = ⟨[], false, 0, ' '⟩ := rfl
  simp only [Framework.log, fresh, put_eq, number, OStream.endl, text_foldl_logProbe]
  simp [recordsOfTarget]

/-- What is logged can be told apart: no line ends within a name or a path. -/
structure Readable (workspace : Option (List Char)) (target : Target) : Prop where
  listable : Listable workspace target.probes
  unbroken : ∀ probe ∈ target.probes, ∀ text ∈ [probe.name, probe.file, probe.func], Unbroken text
  executablePath : Unbroken target.executablePath

theorem unbroken_recordsOfTarget (readable : Readable workspace target) :
    ∀ record ∈ recordsOfTarget target, Unbroken record := by
  have numbered : ∀ (field : List Char) (value : Nat), Unbroken field →
      Unbroken (field ++ Nat.toDigits 10 value) := by
    intro field value unbroken
    exact unbroken.append (unbroken_of_solid (digits_solid (by decide) (by decide) value))
  intro record member
  rcases List.mem_append.mp member with front | isProbe
  · simp only [List.mem_cons, List.not_mem_nil, or_false] at front
    rcases front with rfl | rfl | rfl | rfl
    · exact numbered _ _ (by decide)
    · exact numbered _ _ (by decide)
    · exact Unbroken.append (by decide) readable.executablePath
    · exact numbered _ _ (by decide)
  · obtain ⟨probe, inside, rfl⟩ := List.mem_map.mp isProbe
    exact unbroken_recordOf (readable.unbroken probe inside)

theorem valueOf_field {field key : List Char} (full : key ≠ [])
    (solid : ∀ char ∈ key, isSpace char = false) (value : List Char) :
    AppInfo.valueOf field (key ++ ' ' :: value) =
      match words value with
      | [] => .error (.failedToLoad field (key ++ ' ' :: value))
      | word :: _ => .ok word := by
  rw [AppInfo.valueOf, words_append_space (by decide), words_of_solid full solid,
    List.singleton_append, List.getElem?_cons_succ]
  cases words value <;> rfl

theorem valueOf_number {field key : List Char} (full : key ≠ [])
    (solid : ∀ char ∈ key, isSpace char = false) (number : Nat) :
    AppInfo.valueOf field (key ++ ' ' :: Nat.toDigits 10 number) = .ok (Nat.toDigits 10 number) := by
  rw [valueOf_field full solid, words_of_solid Nat.toDigits_ne_nil
    (digits_solid (by decide) (by decide) number)]

theorem load_log (readable : Readable workspace target) {word : List Char}
    {others : List (List Char)} (named : words target.executablePath = word :: others) :
    AppInfo.load workspace (Framework.log target) =
      .ok {
        pid := Nat.toDigits 10 target.pid
        port := Nat.toDigits 10 target.listenerPort.toNat
        executablePath := word
        executableName := Xpedite.Framework.ProbeAdmin.basename word
        tscHz := target.tscHz.toNat
        probes := target.probes.map (parsedOf workspace) } := by
  have lines : splitlines (universalNewlines (Framework.log target)) =
      ("pid:".toList ++ ' ' :: Nat.toDigits 10 target.pid) ::
        ("port:".toList ++ ' ' :: Nat.toDigits 10 target.listenerPort.toNat) ::
        ("binary:".toList ++ ' ' :: target.executablePath) ::
        ("tscHz:".toList ++ ' ' :: Nat.toDigits 10 target.tscHz.toNat) ::
        target.probes.map recordOf := by
    rw [log_eq, splitlines_flatMap (unbroken_recordsOfTarget readable)]
    rfl
  have built := buildFromRecords_logProbes readable.listable
  rw [recordsOf_logProbes readable.listable.clean] at built
  have pid := @valueOf_number "pid".toList "pid:".toList (by decide) (solid_of_all rfl) target.pid
  have port := @valueOf_number "port".toList "port:".toList (by decide) (solid_of_all rfl)
    target.listenerPort.toNat
  have path := @valueOf_field "binary path".toList "binary:".toList (by decide) (solid_of_all rfl)
    target.executablePath
  have tscHz := @valueOf_number "tscHz".toList "tscHz:".toList (by decide) (solid_of_all rfl)
    target.tscHz.toNat
  rw [named] at path
  have hertz : int 10 (Nat.toDigits 10 target.tscHz.toNat) = some (target.tscHz.toNat : Int) :=
    int_decimal target.tscHz.toNat
  rw [AppInfo.load, lines]
  dsimp only
  rw [bind_of_eq_ok pid, bind_of_eq_ok port, bind_of_eq_ok path, bind_of_eq_ok tscHz, hertz, built]
  rfl

end Load

section Attribution

variable {workspace : Option (List Char)} {target : Target} {φ loader : Type}

def probeAt (target : Target) (site : UInt64) : Option Probe :=
  target.probes.find? fun probe => probe.recorderReturnSite = site

theorem hexText_injective {first second : UInt64}
    (same : hexText first.toNat = hexText second.toNat) : first = second :=
  UInt64.toNat_inj.mp (toDigits_sixteen_injective (List.cons.inj (List.cons.inj same).2).2)

theorem get_parsedOf (workspace : Option (List Char)) (probes : List Probe) (site : UInt64) :
    OrderedDict.get (hexText site.toNat) (probes.map (parsedOf workspace)) =
      (probes.find? fun probe => probe.recorderReturnSite = site).map (entryOf workspace) := by
  induction probes with
  | nil => rfl
  | cons probe probes ih =>
      rw [List.map_cons, parsedOf, OrderedDict.get, List.find?_cons]
      by_cases here : probe.recorderReturnSite = site
      · simp [here]
      · have apart : hexText probe.recorderReturnSite.toNat ≠ hexText site.toNat :=
          fun same => here (hexText_injective same)
        simp [here, apart, ih]

theorem probe_foldl_addPmc {π : Type} (values : List UInt64) (counter : Counter π) :
    (values.foldl (fun counter value => counter.addPmc value.toNat) counter).probe =
      counter.probe := by
  induction values generalizing counter with
  | nil => rfl
  | cons value values ih => exact ih (counter.addPmc value.toNat)

theorem loadSample_probe (collaborators : Collaborators AnchoredProbe φ loader)
    (threadId : List Char) (target : Target) (extractor : Extractor φ loader) (sample : Reading) :
    let loaded := loadSample collaborators threadId
      (fun site => OrderedDict.get site (target.probes.map (parsedOf workspace))) extractor sample
    loaded.1.map Counter.probe = (probeAt target sample.returnSite).map (entryOf workspace) ∧
      loaded.2.orphanedSamplesCount = extractor.orphanedSamplesCount +
        if (probeAt target sample.returnSite).isNone then 1 else 0 := by
  have found : OrderedDict.get (hexText sample.returnSite.toNat)
      (target.probes.map (parsedOf workspace)) =
        (probeAt target sample.returnSite).map (entryOf workspace) := get_parsedOf _ _ _
  simp only [loadSample, found]
  cases probeAt target sample.returnSite with
  | none => exact ⟨rfl, rfl⟩
  | some probe => exact ⟨congrArg some (probe_foldl_addPmc _ _), rfl⟩

theorem loadSamples_probes (collaborators : Collaborators AnchoredProbe φ loader)
    (threadId : List Char) (target : Target) (extractor : Extractor φ loader)
    (samples : List Reading) :
    let loaded := Samples.loadSamples collaborators threadId
      (fun site => OrderedDict.get site (target.probes.map (parsedOf workspace))) extractor samples
    loaded.1.map (Option.map Counter.probe) =
        samples.map (fun sample => (probeAt target sample.returnSite).map (entryOf workspace)) ∧
      loaded.2.orphanedSamplesCount = extractor.orphanedSamplesCount +
        samples.countP fun sample => (probeAt target sample.returnSite).isNone := by
  induction samples generalizing extractor with
  | nil => simp [Samples.loadSamples]
  | cons sample samples ih =>
      obtain ⟨probe, orphaned⟩ := @loadSample_probe workspace φ loader collaborators threadId target
        extractor sample
      obtain ⟨probes, later⟩ := ih (loadSample collaborators threadId
        (fun site => OrderedDict.get site (target.probes.map (parsedOf workspace))) extractor
        sample).2
      simp only [Samples.loadSamples, List.map_cons, List.countP_cons]
      refine ⟨by rw [probe, probes], ?_⟩
      rw [later, orphaned]
      omega

/--
The profiler reads of a target what the target logged: the process, the port and the probes, so
that each sample goes to the probe it was taken at or is counted as an orphan.  The path of the
executable is kept exactly if there is no blank in it.
-/
theorem target_is_loaded (readable : Readable workspace target)
    (named : words target.executablePath ≠ []) :
    ∃ info, AppInfo.load workspace (Framework.log target) = .ok info ∧
      info.pid = Nat.toDigits 10 target.pid ∧
      info.port = Nat.toDigits 10 target.listenerPort.toNat ∧
      info.tscHz = target.tscHz.toNat ∧
      (words target.executablePath).head? = some info.executablePath ∧
      (info.executablePath = target.executablePath ↔
        ∀ char ∈ target.executablePath, isSpace char = false) ∧
      ∀ (collaborators : Collaborators AnchoredProbe φ loader) threadId extractor samples,
        let loaded := Samples.loadSamples collaborators threadId
          (fun site => OrderedDict.get site info.probes) extractor samples
        loaded.1.map (Option.map Counter.probe) =
            samples.map (fun sample => (probeAt target sample.returnSite).map (entryOf workspace)) ∧
          loaded.2.orphanedSamplesCount = extractor.orphanedSamplesCount +
            samples.countP fun sample => (probeAt target sample.returnSite).isNone := by
  obtain ⟨word, others, split⟩ := List.exists_cons_of_ne_nil named
  refine ⟨_, load_log readable split, rfl, rfl, rfl, congrArg List.head? split, ?_, ?_⟩
  · obtain ⟨full, solid⟩ := mem_words (split ▸ List.mem_cons_self : word ∈ words _)
    constructor
    · intro same
      rw [← same]
      exact solid
    · intro solidPath
      have nonempty : target.executablePath ≠ [] := by
        intro empty
        rw [empty] at named
        exact named (by simp [words])
      rw [words_of_solid nonempty solidPath] at split
      exact (List.cons.inj split).1.symm
  · intro collaborators threadId extractor samples
    exact loadSamples_probes collaborators threadId target extractor samples

end Attribution

/-- The target with one probe, in a directory that has a blank in its name. -/
def orderTarget : Target where
  pid := 4711
  listenerPort := 33041
  executablePath := "/opt/order book/bin/app".toList
  tscHz := 2400000000
  probes := [orderProbe 0x3]

theorem readable_orderTarget : Readable (some "/ws".toList) orderTarget where
  listable := listable_orderProbe 0x3
  unbroken := by
    intro probe listed
    rw [List.mem_singleton.mp listed]
    have texts : ∀ text ∈ ["Order=New".toList, "/ws/app/order.C".toList,
        "void onOrder(int)".toList], Unbroken text := by decide
    exact texts
  executablePath := by decide

theorem target_is_loaded_orderTarget :
    ∃ info, AppInfo.load (some "/ws".toList) (Framework.log orderTarget) = .ok info ∧
      info.pid = "4711".toList ∧ info.tscHz = 2400000000 ∧
      info.executablePath = "/opt/order".toList ∧
      info.executablePath ≠ orderTarget.executablePath := by
  have named : words orderTarget.executablePath ≠ [] := by decide +kernel
  obtain ⟨info, loaded, pid, -, tscHz, first, path, -⟩ :=
    @target_is_loaded _ _ Unit Unit readable_orderTarget named
  have word : (words orderTarget.executablePath).head? = some "/opt/order".toList := by
    decide +kernel
  refine ⟨info, loaded, pid.trans (by decide), tscHz, Option.some_inj.mp (first.symm.trans word), ?_⟩
  intro same
  exact absurd (path.mp same ' ' (by decide)) (by decide)

end Xpedite.Probes
