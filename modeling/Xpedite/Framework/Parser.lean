import Xpedite.Framework.Disconnect
import Xpedite.Framework.ParserCore

/-!
Which frames are answered.  A number of `BeginProfile` that cannot be converted and an index
of `ActivatePmu` that is not one of a fixed counter throw in functions that are `noexcept`, and a
list of such indices is copied to the stack.
-/

namespace Xpedite.Framework

open Lib

def Outcome.Answers (outcome : Outcome Response) : Prop :=
  ∃ next response, outcome = .returns next response

namespace RequestParser

def Convertible (argument : List Char × List Char) : Prop :=
  (argument.1 = argProfilePollInterval → (stoi argument.2).isSome = true) ∧
    (argument.1 = argProfileSamplesDataCapacity → (stol argument.2).isSome = true)

/-- The indices of a list of fixed counters, as the bytes they are passed on in. -/
def FixedCounters (argument : List Char × List Char) : Prop :=
  argument.1 = argPmuFixed → ∀ token ∈ strtok ',' argument.2, UInt8.ofInt (atoi token) < 3

def ArrayFits (environment : Environment) (argument : List Char × List Char) : Prop :=
  argument.1 = argPmuFixed → argument.2.length + 1 ≤ environment.stackRoom

/-- What is wanted of a request, and of the system it is executed on. -/
structure Answerable (environment : Environment) (state : State) (req : List Char)
    (args : List (List Char)) : Prop where
  convertible : req = reqProfileActivation → ∀ argument ∈ argumentPairs args, Convertible argument
  collectorBuilds : req = reqProfileActivation → state.collector = none →
    state.pollInterval ≠ 0 → (∃ value, (argProfileSamplesFilePattern, value) ∈ argumentPairs args) →
    environment.collectorBuilds = true
  fixedCounters : req = reqPmuActivation → ∀ argument ∈ argumentPairs args, FixedCounters argument
  arrays : req = reqPmuActivation → ∀ argument ∈ argumentPairs args, ArrayFits environment argument
  lastPoll : req = reqProfileDeactivation → state.collector ≠ none →
    environment.samplesOverflow = false

theorem mem_of_mem_argumentPairs {α : Type} {args : List α} {name value : α}
    (listed : (name, value) ∈ argumentPairs args) : value ∈ args := by
  induction args using argumentPairs.induct with
  | case1 first second rest ih =>
      rw [argumentPairs, List.mem_cons] at listed
      rcases listed with same | later
      · cases same
        exact List.mem_cons_of_mem _ List.mem_cons_self
      · exact List.mem_cons_of_mem _ (List.mem_cons_of_mem _ (ih later))
  | case2 args short =>
      rw [argumentPairs] at listed
      · cases listed
      · exact short

theorem isSome_extractProfile (profile : ProfileArguments) (argument : List Char × List Char) :
    (extractProfile profile argument).isSome = true ↔ Convertible argument := by
  have patternInterval : argProfileSamplesFilePattern ≠ argProfilePollInterval := by decide
  have patternCapacity : argProfileSamplesFilePattern ≠ argProfileSamplesDataCapacity := by decide
  have intervalCapacity : argProfilePollInterval ≠ argProfileSamplesDataCapacity := by decide
  rw [extractProfile, Convertible]
  split
  · rename_i pattern
    rw [pattern]
    exact iff_of_true rfl ⟨fun same => absurd same patternInterval,
      fun same => absurd same patternCapacity⟩
  · split
    · rename_i interval
      rw [interval, Option.isSome_map]
      exact ⟨fun converts => ⟨fun _ => converts, fun same => absurd same intervalCapacity⟩,
        fun both => both.1 rfl⟩
    · rename_i notInterval
      split
      · rename_i capacity
        rw [capacity, Option.isSome_map]
        exact ⟨fun converts => ⟨fun same => absurd same.symm intervalCapacity, fun _ => converts⟩,
          fun both => both.2 rfl⟩
      · rename_i notCapacity
        exact iff_of_true rfl ⟨fun same => absurd same notInterval,
          fun same => absurd same notCapacity⟩

theorem isSome_parseProfile (args : List (List Char)) :
    (parseProfile args).isSome = true ↔ ∀ argument ∈ argumentPairs args, Convertible argument :=
  isSome_foldlM_iff isSome_extractProfile (argumentPairs args) ⟨[], 0, 0⟩

theorem extractProfile_pattern {profile next : ProfileArguments}
    {argument : List Char × List Char} (extracted : extractProfile profile argument = some next) :
    next.samplesFilePattern =
      if argument.1 = argProfileSamplesFilePattern then argument.2
      else profile.samplesFilePattern := by
  rw [extractProfile] at extracted
  split at extracted
  · rename_i pattern
    cases extracted
    rw [if_pos pattern]
  · rename_i other
    rw [if_neg other]
    split at extracted
    · obtain ⟨interval, -, rfl⟩ := Option.map_eq_some_iff.mp extracted
      rfl
    · split at extracted
      · obtain ⟨capacity, -, rfl⟩ := Option.map_eq_some_iff.mp extracted
        rfl
      · cases extracted
        rfl

theorem foldlM_pattern {pairs : List (List Char × List Char)}
    (solid : ∀ argument ∈ pairs, argument.2 ≠ []) {profile final : ProfileArguments}
    (extracted : pairs.foldlM extractProfile profile = some final) :
    final.samplesFilePattern = [] ↔
      profile.samplesFilePattern = [] ∧ ∀ value, (argProfileSamplesFilePattern, value) ∉ pairs := by
  induction pairs generalizing profile with
  | nil =>
      cases extracted
      simp
  | cons argument pairs ih =>
      rw [List.foldlM_cons] at extracted
      obtain ⟨next, first, rest⟩ := Option.bind_eq_some_iff.mp extracted
      obtain ⟨name, value⟩ := argument
      rw [List.forall_mem_cons] at solid
      rw [ih solid.2 rest, extractProfile_pattern first]
      split
      · rename_i pattern
        refine iff_of_false (fun both => solid.1 both.1) ?_
        intro both
        apply both.2 value
        rw [← pattern]
        exact List.mem_cons_self
      · rename_i other
        apply and_congr_right
        intro _
        apply forall_congr'
        intro sought
        have differs : (argProfileSamplesFilePattern, sought) ≠ (name, value) := by
          intro same
          exact other (congrArg Prod.fst same).symm
        rw [List.mem_cons, or_iff_right differs]

theorem parseProfile_pattern {args : List (List Char)} (solid : ∀ arg ∈ args, arg ≠ [])
    {profile : ProfileArguments} (parsed : parseProfile args = some profile) :
    profile.samplesFilePattern ≠ [] ↔
      ∃ value, (argProfileSamplesFilePattern, value) ∈ argumentPairs args := by
  have values : ∀ argument ∈ argumentPairs args, argument.2 ≠ [] := by
    intro argument listed
    exact solid argument.2 (mem_of_mem_argumentPairs listed)
  rw [Ne, foldlM_pattern values parsed]
  simp

theorem foldl_extractPmu (pairs : List (List Char × List Char)) (pmu : PmuArguments) (index : Int) :
    index ∈ (pairs.foldl extractPmu pmu).fixedEventIndices ↔
      index ∈ pmu.fixedEventIndices ∨ ∃ argument ∈ pairs, argument.1 = argPmuFixed ∧
        ∃ token ∈ strtok ',' argument.2, atoi token = index := by
  have countFixed : argPmuCount ≠ argPmuFixed := by decide
  induction pairs generalizing pmu with
  | nil => simp
  | cons argument pairs ih =>
      refine (ih (extractPmu pmu argument)).trans ?_
      rw [extractPmu]
      split
      · rename_i count
        simp [count, countFixed]
      · split
        · rename_i fixed
          simp only [List.mem_append, List.mem_map, List.mem_cons, exists_eq_or_imp, fixed,
            true_and]
          exact or_assoc
        · rename_i other
          simp [other]

theorem fixedCounters_iff (args : List (List Char)) :
    (∀ index ∈ (parsePmu args).fixedEventIndices, UInt8.ofInt index < 3) ↔
      ∀ argument ∈ argumentPairs args, FixedCounters argument := by
  constructor
  · intro all argument listed fixed token present
    apply all
    exact (foldl_extractPmu _ _ _).mpr (.inr ⟨argument, listed, fixed, token, present, rfl⟩)
  · intro all index listed
    rcases (foldl_extractPmu _ _ _).mp listed with none_ | ⟨argument, present, fixed, token, some_, rfl⟩
    · cases none_
    · exact all argument present fixed token some_

theorem isSome_enableFixedPMU (state : State) (index : Int) :
    (Handler.enableFixedPMU state index).isSome = true ↔ UInt8.ofInt index < 3 := by
  rw [Handler.enableFixedPMU, Option.isSome_map, Control.enableFixedPmc, Option.isSome_map]
  exact FixedPmcSet.isSome_enable _ _

theorem pmuActivation_answers (environment : Environment) (state : State) (gpEventsCount : Int)
    (fixedEventIndices : List Int) :
    (execute environment state (.pmuActivation gpEventsCount fixedEventIndices)).Answers ↔
      ∀ index ∈ fixedEventIndices, UInt8.ofInt index < 3 := by
  rw [← isSome_foldlM_iff isSome_enableFixedPMU fixedEventIndices
    (Handler.enableGpPMU state gpEventsCount), execute]
  split
  · rename_i refused
    rw [refused]
    refine iff_of_false ?_ Bool.false_ne_true
    rintro ⟨next, response, returned⟩
    cases returned
  · rename_i reached enabled
    rw [enabled]
    exact iff_of_true ⟨_, _, rfl⟩ rfl

theorem perfEventsActivation_answers (environment : Environment) (state : State)
    (request : PMUCtlRequest) :
    (execute environment state (.perfEventsActivation request)).Answers := by
  simp only [execute]
  rcases state.control.enablePerfEvents_cases request environment.perfEventsBuild with
    ⟨-, next, enabled, -⟩ | ⟨-, pmu, enabled, -⟩
  · rw [enabled]
    exact ⟨_, _, rfl⟩
  · rw [enabled]
    exact ⟨_, _, rfl⟩

theorem profileActivation_answers (environment : Environment) (state : State)
    (samplesFilePattern : List Char) (pollInterval : UInt32) (samplesDataCapacity : UInt64) :
    (execute environment state (.profileActivation samplesFilePattern pollInterval
        samplesDataCapacity none none)).Answers ↔
      (state.collector = none → state.pollInterval ≠ 0 → samplesFilePattern ≠ [] →
        environment.collectorBuilds = true) := by
  change (respond (Handler.beginProfile environment state samplesFilePattern pollInterval
    samplesDataCapacity)).Answers ↔ _
  rw [Handler.beginProfile]
  split
  · rename_i active
    refine iff_of_true ⟨_, _, rfl⟩ ?_
    intro none_
    rw [Handler.isProfileActive, none_] at active
    cases active
  · rename_i inactive
    split
    · rename_i empty
      refine iff_of_true ⟨_, _, rfl⟩ ?_
      intro _ _ solid
      exact absurd (List.isEmpty_iff.mp empty) solid
    · rename_i solid
      split
      · rename_i zero
        exact iff_of_true ⟨_, _, rfl⟩ (fun _ nonzero => absurd zero nonzero)
      · rename_i nonzero
        split
        · rename_i unbuilt
          constructor
          · rintro ⟨next, response, returned⟩
            cases returned
          · intro wanted
            have none_ : state.collector = none := by
              simpa [Handler.isProfileActive] using inactive
            rw [wanted none_ nonzero (fun empty => solid (List.isEmpty_iff.mpr empty))] at unbuilt
            cases unbuilt
        · rename_i built
          have builds : environment.collectorBuilds = true := by simpa using built
          split
          · exact iff_of_true ⟨_, _, rfl⟩ (fun _ _ _ => builds)
          · exact iff_of_true ⟨_, _, rfl⟩ (fun _ _ _ => builds)

theorem profileDeactivation_answers (environment : Environment) (state : State) :
    (execute environment state .profileDeactivation).Answers ↔
      (state.collector ≠ none → environment.samplesOverflow = false) := by
  change (respond (Handler.endProfile environment state)).Answers ↔ _
  rw [Handler.endProfile]
  split
  · rename_i none_
    exact iff_of_true ⟨_, _, rfl⟩ (fun some_ => absurd none_ some_)
  · rename_i collector active
    split
    · rename_i overflow
      constructor
      · rintro ⟨next, response, returned⟩
        cases returned
      · intro wanted
        have some_ : state.collector ≠ none := by
          intro none_
          exact absurd (active.symm.trans none_) (by simp)
        rw [wanted some_] at overflow
        cases overflow
    · rename_i fits
      exact iff_of_true ⟨_, _, rfl⟩ (fun _ => Bool.eq_false_of_not_eq_true fits)

section Arguments

variable (environment : Environment) (state : State)

def Served (req : List Char) (args : List (List Char)) : Prop :=
  ∃ request, parseArgs req args = some request ∧ (execute environment state request).Answers

theorem served_other {req : List Char} (args : List (List Char))
    (notProfile : req ≠ reqProfileActivation) (notPmu : req ≠ reqPmuActivation)
    (notEnd : req ≠ reqProfileDeactivation) : Served environment state req args := by
  rw [Served, parseArgs]
  split
  · exact ⟨_, rfl, _, _, rfl⟩
  · split
    · exact ⟨_, rfl, _, _, rfl⟩
    · split
      · exact ⟨_, rfl, _, _, rfl⟩
      · split
        · split
          · exact ⟨_, rfl, _, _, rfl⟩
          · exact ⟨_, rfl, _, _, rfl⟩
        · rw [if_neg (fun both => notPmu both.2)]
          split
          · split
            · exact ⟨_, rfl, perfEventsActivation_answers environment state _⟩
            · exact ⟨_, rfl, _, _, rfl⟩
          · rw [if_neg (fun both => notProfile both.2)]
            exact ⟨_, rfl, _, _, rfl⟩

theorem parseArgs_profileActivation (args : List (List Char)) :
    parseArgs reqProfileActivation args =
      if args ≠ [] then
        (parseProfile args).map fun profile =>
          .profileActivation profile.samplesFilePattern profile.pollInterval
            profile.samplesDataCapacity none none
      else some (.invalid ("Invalid Request: " ++ String.ofList reqProfileActivation)) := by
  have others : reqProfileActivation ≠ reqPing ∧ reqProfileActivation ≠ reqTscHz ∧
      reqProfileActivation ≠ reqProbeList ∧ reqProfileActivation ≠ reqProbeActivation ∧
      reqProfileActivation ≠ reqProbeDeactivation ∧ reqProfileActivation ≠ reqPmuActivation ∧
      reqProfileActivation ≠ reqPerfEventsActivation ∧
      reqProfileActivation ≠ reqProfileDeactivation := by decide
  simp only [parseArgs, others, or_self, and_false, and_true, if_false]

theorem parseArgs_pmuActivation (args : List (List Char)) :
    parseArgs reqPmuActivation args =
      if args ≠ [] then
        some (.pmuActivation (parsePmu args).gpEventsCount (parsePmu args).fixedEventIndices)
      else some (.invalid ("Invalid Request: " ++ String.ofList reqPmuActivation)) := by
  have others : reqPmuActivation ≠ reqPing ∧ reqPmuActivation ≠ reqTscHz ∧
      reqPmuActivation ≠ reqProbeList ∧ reqPmuActivation ≠ reqProbeActivation ∧
      reqPmuActivation ≠ reqProbeDeactivation ∧ reqPmuActivation ≠ reqPerfEventsActivation ∧
      reqPmuActivation ≠ reqProfileActivation ∧ reqPmuActivation ≠ reqProfileDeactivation := by
    decide
  simp only [parseArgs, others, or_self, and_false, and_true, if_false]

theorem parseArgs_profileDeactivation (args : List (List Char)) :
    parseArgs reqProfileDeactivation args = some .profileDeactivation := by
  have others : reqProfileDeactivation ≠ reqPing ∧ reqProfileDeactivation ≠ reqTscHz ∧
      reqProfileDeactivation ≠ reqProbeList ∧ reqProfileDeactivation ≠ reqProbeActivation ∧
      reqProfileDeactivation ≠ reqProbeDeactivation ∧ reqProfileDeactivation ≠ reqPmuActivation ∧
      reqProfileDeactivation ≠ reqPerfEventsActivation ∧
      reqProfileDeactivation ≠ reqProfileActivation := by decide
  simp only [parseArgs, others, or_self, and_false, if_false, if_true]

theorem served_profileActivation {args : List (List Char)} (solid : ∀ arg ∈ args, arg ≠ []) :
    Served environment state reqProfileActivation args ↔
      (∀ argument ∈ argumentPairs args, Convertible argument) ∧
        (state.collector = none → state.pollInterval ≠ 0 →
          (∃ value, (argProfileSamplesFilePattern, value) ∈ argumentPairs args) →
          environment.collectorBuilds = true) := by
  rw [Served, parseArgs_profileActivation, ← isSome_parseProfile]
  cases args with
  | nil =>
      refine iff_of_true ⟨_, rfl, _, _, rfl⟩ ⟨rfl, ?_⟩
      rintro _ _ ⟨value, listed⟩
      cases listed
  | cons arg args =>
      rw [if_pos (List.cons_ne_nil arg args)]
      cases parsed : parseProfile (arg :: args) with
      | none =>
          refine iff_of_false ?_ (fun both => Bool.false_ne_true both.1)
          rintro ⟨request, absent, -⟩
          cases absent
      | some profile =>
          rw [← parseProfile_pattern solid parsed, Option.map_some, Option.isSome_some]
          constructor
          · rintro ⟨request, same, answers⟩
            cases same
            exact ⟨rfl, (profileActivation_answers _ _ _ _ _).mp answers⟩
          · rintro ⟨-, wanted⟩
            exact ⟨_, rfl, (profileActivation_answers _ _ _ _ _).mpr wanted⟩

theorem served_pmuActivation (args : List (List Char)) :
    Served environment state reqPmuActivation args ↔
      ∀ argument ∈ argumentPairs args, FixedCounters argument := by
  rw [Served, parseArgs_pmuActivation, ← fixedCounters_iff]
  cases args with
  | nil =>
      refine iff_of_true ⟨_, rfl, _, _, rfl⟩ ?_
      intro index listed
      cases listed
  | cons arg args =>
      rw [if_pos (List.cons_ne_nil arg args), ← pmuActivation_answers environment state]
      constructor
      · rintro ⟨request, same, answers⟩
        cases same
        exact answers
      · intro answers
        exact ⟨_, rfl, answers⟩

theorem served_profileDeactivation (args : List (List Char)) :
    Served environment state reqProfileDeactivation args ↔
      (state.collector ≠ none → environment.samplesOverflow = false) := by
  rw [Served, parseArgs_profileDeactivation, ← profileDeactivation_answers]
  constructor
  · rintro ⟨request, same, answers⟩
    cases same
    exact answers
  · intro answers
    exact ⟨_, rfl, answers⟩

theorem served_iff {req : List Char} {args : List (List Char)} (solid : ∀ arg ∈ args, arg ≠ []) :
    (req = reqPmuActivation → ∀ argument ∈ argumentPairs args, ArrayFits environment argument) ∧
        Served environment state req args ↔
      Answerable environment state req args := by
  have profilePmu : reqProfileActivation ≠ reqPmuActivation := by decide
  have profileEnd : reqProfileActivation ≠ reqProfileDeactivation := by decide
  have pmuEnd : reqPmuActivation ≠ reqProfileDeactivation := by decide
  by_cases profile : req = reqProfileActivation
  · subst profile
    rw [served_profileActivation environment state solid]
    constructor
    · rintro ⟨-, convertible, builds⟩
      exact ⟨fun _ => convertible, fun _ => builds, fun same => absurd same profilePmu,
        fun same => absurd same profilePmu, fun same => absurd same profileEnd⟩
    · intro answerable
      exact ⟨fun same => absurd same profilePmu, answerable.convertible rfl,
        answerable.collectorBuilds rfl⟩
  · by_cases pmu : req = reqPmuActivation
    · subst pmu
      rw [served_pmuActivation]
      constructor
      · rintro ⟨arrays, fixedCounters⟩
        exact ⟨fun same => absurd same profile, fun same => absurd same profile,
          fun _ => fixedCounters, arrays, fun same => absurd same pmuEnd⟩
      · intro answerable
        exact ⟨answerable.arrays, answerable.fixedCounters rfl⟩
    · by_cases ends : req = reqProfileDeactivation
      · subst ends
        rw [served_profileDeactivation]
        constructor
        · rintro ⟨-, lastPoll⟩
          exact ⟨fun same => absurd same profile, fun same => absurd same profile,
            fun same => absurd same pmu, fun same => absurd same pmu, fun _ => lastPoll⟩
        · intro answerable
          exact ⟨answerable.arrays, answerable.lastPoll rfl⟩
      · refine iff_of_true ⟨fun same => absurd same pmu, ?_⟩ ?_
        · exact served_other environment state args profile pmu ends
        · exact ⟨fun same => absurd same profile, fun same => absurd same profile,
            fun same => absurd same pmu, fun same => absurd same pmu, fun same => absurd same ends⟩

end Arguments

end RequestParser

open RequestParser

theorem foldl_optSize_le_iff (pairs : List (List Char × List Char)) (need room : Nat) :
    pairs.foldl (fun need argument => max need (optSize argument)) need ≤ room ↔
      need ≤ room ∧ ∀ argument ∈ pairs, optSize argument ≤ room := by
  induction pairs generalizing need with
  | nil => simp
  | cons argument pairs ih =>
      rw [List.foldl_cons, ih, List.forall_mem_cons, Nat.max_le, and_assoc]

theorem arrayFits_iff (environment : Environment) (argument : List Char × List Char) :
    optSize argument ≤ environment.stackRoom ↔ ArrayFits environment argument := by
  rw [optSize, ArrayFits]
  split
  · rename_i fixed
    simp only [fixed, true_implies]
  · rename_i other
    exact iff_of_true (Nat.zero_le _) (fun same => absurd same other)

theorem stackNeed_le_iff (environment : Environment) {frame : List UInt8} {req : List Char}
    {args : List (List Char)} (split : tokens frame = req :: args) :
    stackNeed frame ≤ environment.stackRoom ↔
      (req = reqPmuActivation → ∀ argument ∈ argumentPairs args, ArrayFits environment argument) := by
  rw [stackNeed, split]
  dsimp only
  by_cases pmu : req = reqPmuActivation
  · rw [if_pos pmu, foldl_optSize_le_iff]
    simp only [pmu, true_implies, Nat.zero_le, true_and, arrayFits_iff]
  · rw [if_neg pmu]
    exact iff_of_true (Nat.zero_le _) (fun same => absurd same pmu)

theorem parse_of_parseFrame {environment : Environment} {frame : List UInt8} {request : Request}
    (accepted : parseFrame environment frame = some request) : parse frame = some request := by
  rw [parseFrame] at accepted
  split at accepted
  · cases accepted
  · exact accepted

/-- Nothing but a request for counters needs an array. -/
theorem parseFrame_of_tokens (environment : Environment) {frame : List UInt8} {req : List Char}
    {args : List (List Char)} (split : tokens frame = req :: args)
    (other : req ≠ reqPmuActivation) : parseFrame environment frame = parseArgs req args := by
  have none_ : stackNeed frame = 0 := by
    rw [stackNeed, split]
    exact if_neg other
  rw [parseFrame, none_, if_neg (Nat.not_lt_zero _), parse, split]

/-- A frame is answered exactly if its tokens are those of an answerable request, or none. -/
theorem executeFrame_answers_iff (environment : Environment) (state : State) (frame : List UInt8) :
    (executeFrame environment state frame).Answers ↔
      ∀ req args, tokens frame = req :: args → Answerable environment state req args := by
  cases split : tokens frame with
  | nil =>
      have parsed : parseFrame environment frame = some (.invalid "Empty request ...") := by
        have none_ : stackNeed frame = 0 := by rw [stackNeed, split]
        rw [parseFrame, none_, if_neg (Nat.not_lt_zero _), parse, split]
      rw [executeFrame, parsed]
      refine iff_of_true ⟨_, _, rfl⟩ ?_
      intro req args listed
      cases listed
  | cons req args =>
      have solid : ∀ arg ∈ args, arg ≠ [] := by
        intro arg listed
        apply ne_nil_of_mem_strtok
        rw [tokens] at split
        rw [split]
        exact List.mem_cons_of_mem req listed
      have served : (executeFrame environment state frame).Answers ↔
          stackNeed frame ≤ environment.stackRoom ∧ Served environment state req args := by
        rw [executeFrame, parseFrame, parse, split, Served]
        by_cases fits : stackNeed frame ≤ environment.stackRoom
        · rw [if_neg (Nat.not_lt.mpr fits)]
          dsimp only
          cases parseArgs req args with
          | none =>
              refine iff_of_false ?_ ?_
              · rintro ⟨next, response, returned⟩
                cases returned
              · rintro ⟨-, request, absent, -⟩
                cases absent
          | some request => simp [fits]
        · rw [if_pos (Nat.not_le.mp fits)]
          refine iff_of_false ?_ (fun both => fits both.1)
          rintro ⟨next, response, returned⟩
          cases returned
      rw [served, stackNeed_le_iff environment split, served_iff environment state solid]
      constructor
      · intro answerable other others same
        cases same
        exact answerable
      · intro all
        exact all req args rfl

theorem fromClient_of_parse {frame : List UInt8} {request : Request}
    (parsed : parse frame = some request) : request.FromClient := by
  rw [parse] at parsed
  split at parsed
  · cases parsed
    trivial
  · rw [parseArgs] at parsed
    split at parsed
    · cases parsed
      trivial
    · split at parsed
      · cases parsed
        trivial
      · split at parsed
        · cases parsed
          trivial
        · split at parsed
          · dsimp only at parsed
            split at parsed
            · cases parsed
              trivial
            · cases parsed
              trivial
          · split at parsed
            · cases parsed
              trivial
            · split at parsed
              · split at parsed
                · cases parsed
                  trivial
                · cases parsed
                  trivial
              · split at parsed
                · obtain ⟨profile, -, rfl⟩ := Option.map_eq_some_iff.mp parsed
                  exact ⟨rfl, rfl⟩
                · split at parsed
                  · cases parsed
                    trivial
                  · cases parsed
                    trivial

def frameOf (text : String) : List UInt8 := text.toList.map fun char => UInt8.ofNat char.toNat

example : executeFrame willing (State.new []) (frameOf "Ping") =
    .returns (State.new []) (.value "hello") := by rfl

/-- A poll interval that is no number, and a fixed counter that does not exist. -/
theorem executeFrame_terminates :
    executeFrame willing (State.new []) (frameOf "BeginProfile --pollInterval abc") = .terminates ∧
      executeFrame willing (State.new []) (frameOf "ActivatePmu --fixedCtrList 7") = .terminates := by
  constructor
  · rfl
  · rfl

end Xpedite.Framework
