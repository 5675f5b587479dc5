import Xpedite.Framework.Parser
import Xpedite.Framework.Probes

/-!
Probes that are activated by their location: from `ProbeAdmin._updateProbe`, which sends the
base name of a file and a line, to `Probe::matchLocation`, which looks for the name anywhere
in the path of a probe.
-/

namespace Xpedite.Framework

open Lib RequestParser

/-- The probe stands on this line of the file, whatever directory the file is in. -/
def Probe.AtPlace (probe : Probe) (file : List Char) (line : UInt32) : Prop :=
  (probe.file = file ∨ '/' :: file <:+ probe.file) ∧ probe.line = line

instance (probe : Probe) (file : List Char) (line : UInt32) : Decidable (probe.AtPlace file line) :=
  inferInstanceAs (Decidable (_ ∧ _))

def Command.req : Command → List Char
  | .enable => reqProbeActivation
  | .disable => reqProbeDeactivation

def Command.targetState : Command → Bool
  | .enable => true
  | .disable => false

namespace ProbeAdmin

def basename (filePath : List Char) : List Char :=
  (filePath.reverse.takeWhile (· ≠ '/')).reverse

def updateProbe (filePath : List Char) (lineNo : Nat) (targetState : Bool) : List Char :=
  (if targetState then "ActivateProbe".toList else "DeactivateProbe".toList) ++
    " --file ".toList ++ basename filePath ++ " --line ".toList ++ Nat.toDigits 10 lineNo

end ProbeAdmin

theorem Command.apply_eq (command : Command) (probe : Probe) :
    command.apply probe =
      if probe.patchable then { probe with active := command.targetState } else probe := by
  cases command with
  | enable => rfl
  | disable => rfl

theorem setActive_eq_self_iff (probe : Probe) (active : Bool) :
    { probe with active := active } = probe ↔ probe.active = active := by
  constructor
  · intro same
    rw [← same]
  · rintro rfl
    rfl

section Tokens

theorem zero_notMem_of_mem_tokens {frame : List UInt8} {token : List Char}
    (listed : token ∈ tokens frame) : '\x00' ∉ token := by
  intro zero
  have inside := mem_of_mem_splitOn (List.mem_of_mem_filter listed) zero
  have other := List.mem_takeWhile_imp inside
  cases other

theorem cStr_of_notMem {text : List Char} (clean : '\x00' ∉ text) : cStr text = text := by
  rw [cStr, List.takeWhile_eq_self_iff]
  intro char member
  apply decide_eq_true
  rintro rfl
  exact clean member

theorem file_foldl_extractProbeKey (pairs : List (List Char × List Char)) (key : ProbeKey) :
    (pairs.foldl extractProbeKey key).file = key.file ∨
      ∃ name, (name, (pairs.foldl extractProbeKey key).file) ∈ pairs := by
  induction pairs generalizing key with
  | nil => exact .inl rfl
  | cons pair pairs ih =>
      rw [List.foldl_cons]
      rcases ih (extractProbeKey key pair) with kept | ⟨name, later⟩
      · rw [kept]
        rw [extractProbeKey]
        split
        case isTrue => exact .inr ⟨pair.1, List.mem_cons_self⟩
        case isFalse =>
            split
            case isTrue => exact .inl rfl
            case isFalse =>
                split
                case isTrue => exact .inl rfl
                case isFalse => exact .inl rfl
      · exact .inr ⟨name, List.mem_cons_of_mem pair later⟩

theorem file_parseProbeKey_mem {args : List (List Char)} (given : (parseProbeKey args).file ≠ []) :
    (parseProbeKey args).file ∈ args := by
  rcases file_foldl_extractProbeKey (argumentPairs args) ⟨[], [], 0⟩ with absent | ⟨name, listed⟩
  · exact absurd absent given
  · exact mem_of_mem_argumentPairs listed

theorem parseArgs_command (command : Command) {args : List (List Char)} (given : args ≠ []) :
    parseArgs command.req args = some (match command with
      | .enable => .probeActivation [parseProbeKey args]
      | .disable => .probeDeactivation [parseProbeKey args]) := by
  have notPing : command.req ≠ reqPing := by cases command <;> decide
  have notTsc : command.req ≠ reqTscHz := by cases command <;> decide
  have notList : command.req ≠ reqProbeList := by cases command <;> decide
  cases command with
  | enable =>
      rw [parseArgs, if_neg notPing, if_neg notTsc, if_neg notList, if_pos ⟨given, .inl rfl⟩]
      rfl
  | disable =>
      rw [parseArgs, if_neg notPing, if_neg notTsc, if_neg notList, if_pos ⟨given, .inr rfl⟩]
      rfl

end Tokens

section Client

open ProbeAdmin

theorem noBlank_of_all {token : List Char}
    (checked : token.all (fun char => char != ' ' && char != '\x00') = true) :
    ∀ char ∈ token, char ≠ ' ' ∧ char ≠ '\x00' := by
  intro char inside
  have passes := List.all_eq_true.mp checked char inside
  simpa only [Bool.and_eq_true, bne_iff_ne] using passes

theorem updateProbe_eq (command : Command) (filePath : List Char) (lineNo : Nat) :
    updateProbe filePath lineNo command.targetState = [' '].intercalate
      [command.req, argFile, basename filePath, argLine, Nat.toDigits 10 lineNo] := by
  have cmd : (if command.targetState then "ActivateProbe".toList else "DeactivateProbe".toList) =
      command.req := by
    cases command with
    | enable => rfl
    | disable => rfl
  have fileOption : " --file ".toList = [' '] ++ argFile ++ [' '] := by decide
  have lineOption : " --line ".toList = [' '] ++ argLine ++ [' '] := by decide
  rw [updateProbe, cmd, fileOption, lineOption]
  simp only [List.intercalate, List.intersperse, List.flatten_cons, List.flatten_nil,
    List.append_assoc, List.append_nil, List.nil_append, List.cons_append]

theorem ofInt_atoi_toDigits {lineNo : Nat} (small : lineNo < 2 ^ 32) :
    UInt32.ofInt (atoi (Nat.toDigits 10 lineNo)) = UInt32.ofNat lineNo := by
  have wide : (lineNo : Int) % 2 ^ 32 = lineNo := Int.emod_eq_of_lt (by omega) (by omega)
  have reduced : ((lineNo : Int).bmod (2 ^ 32)) % 2 ^ 32 = lineNo := Int.bmod_emod.trans wide
  rw [atoi_toDigits lineNo (by omega), UInt32.ofInt, reduced, Int.toNat_natCast]

theorem noBlank_toDigits (number : Nat) :
    ∀ char ∈ Nat.toDigits 10 number, char ≠ ' ' ∧ char ≠ '\x00' := by
  intro char member
  have numeric : char.isDigit = true := Nat.isDigit_of_mem_toDigits (by decide) (by decide) member
  constructor
  · rintro rfl
    cases numeric
  · rintro rfl
    cases numeric

/-- What the client sends has the base name of the file and the line for its key. -/
theorem parseProbeKey_updateProbe (command : Command) {filePath : List Char} {lineNo : Nat}
    {frame : List UInt8}
    (text : frame.map (fun byte => Char.ofNat byte.toNat) =
      updateProbe filePath lineNo command.targetState)
    (named : basename filePath ≠ [])
    (clean : ∀ char ∈ basename filePath, char ≠ ' ' ∧ char ≠ '\x00') (small : lineNo < 2 ^ 32) :
    ∃ args, tokens frame = command.req :: args ∧
      parseProbeKey args = ⟨[], basename filePath, UInt32.ofNat lineNo⟩ := by
  let args := [argFile, basename filePath, argLine, Nat.toDigits 10 lineNo]
  have words : ∀ token ∈ command.req :: args,
      token ≠ [] ∧ ∀ char ∈ token, char ≠ ' ' ∧ char ≠ '\x00' := by
    intro token listed
    simp only [args, List.mem_cons, List.not_mem_nil, or_false] at listed
    rcases listed with rfl | rfl | rfl | rfl | rfl
    · cases command with
      | enable => exact ⟨List.cons_ne_nil _ _, noBlank_of_all rfl⟩
      | disable => exact ⟨List.cons_ne_nil _ _, noBlank_of_all rfl⟩
    · exact ⟨List.cons_ne_nil _ _, noBlank_of_all rfl⟩
    · exact ⟨named, clean⟩
    · exact ⟨List.cons_ne_nil _ _, noBlank_of_all rfl⟩
    · exact ⟨Nat.toDigits_ne_nil, noBlank_toDigits lineNo⟩
  refine ⟨args, ?_, ?_⟩
  · have whole : cStr ([' '].intercalate (command.req :: args)) =
        [' '].intercalate (command.req :: args) := by
      apply cStr_of_notMem
      intro zero
      rcases mem_intercalate zero with blank | ⟨token, listed, inside⟩
      · cases blank
      · exact ((words token listed).2 _ inside).2 rfl
    rw [tokens, text, updateProbe_eq, whole, strtok_intercalate]
    · exact fun token listed space => ((words token listed).2 ' ' space).1 rfl
    · exact fun token listed => (words token listed).1
  · rw [← ofInt_atoi_toDigits small]
    rfl

end Client

section Requests

variable (environment : Environment) (state : State)

def SetsExactly (frame : List UInt8) (file : List Char) (line : UInt32) (active : Bool) : Prop :=
  ∃ after, executeFrame environment state frame = .returns after (.value "") ∧
    after.probes = state.probes.map fun probe =>
      if probe.AtPlace file line then { probe with active := active } else probe

variable {environment state} {frame : List UInt8} {command : Command} {args : List (List Char)}

theorem executeFrame_probeCtl (sent : tokens frame = command.req :: args) (given : args ≠ []) :
    ∃ after, executeFrame environment state frame = .returns after (.value "") ∧
      after.probes = probeCtl command ((parseProbeKey args).pointed
        (environment.dangling 0 (parseProbeKey args).name)) state.probes := by
  have other : command.req ≠ reqPmuActivation := by cases command <;> decide
  rw [executeFrame, parseFrame_of_tokens environment sent other,
    parseArgs_command command given]
  cases command with
  | enable => exact ⟨_, rfl, rfl⟩
  | disable => exact ⟨_, rfl, rfl⟩

variable {file : List Char} {line : UInt32}

theorem match_location (clean : '\x00' ∉ file) (named : file ≠ []) (placed : line ≠ 0)
    (probe : Probe) :
    probe.match ⟨[], file, line⟩ = true ↔ file <:+: probe.file ∧ probe.line = line := by
  simp [Probe.match, Probe.matchName, Probe.matchLocation, cStr_of_notMem clean, named, placed]

theorem Probe.AtPlace.contained {probe : Probe} (atPlace : probe.AtPlace file line) :
    file <:+: probe.file := by
  rcases atPlace.1 with same | ends
  · rw [same]
  · exact (List.suffix_cons '/' file).isInfix.trans ends.isInfix

/--
The probes at the place are set if they can be, and the other ones are left alone if the file
name is not within their path, or on another line.
-/
theorem setsExactly_iff (sent : tokens frame = command.req :: args)
    (key : parseProbeKey args = ⟨[], file, line⟩) (named : file ≠ []) (placed : line ≠ 0) :
    SetsExactly environment state frame file line command.targetState ↔
      ∀ probe ∈ state.probes,
        (probe.AtPlace file line → probe.patchable = true ∨ probe.active = command.targetState) ∧
        (¬probe.AtPlace file line → file <:+: probe.file → probe.line = line →
          probe.patchable = false ∨ probe.active = command.targetState) := by
  have given : args ≠ [] := by
    rintro rfl
    exact named (congrArg ProbeKey.file key).symm
  have listed : file ∈ args := by
    have member := @file_parseProbeKey_mem args
    rw [key] at member
    exact member named
  have clean : '\x00' ∉ file := by
    apply @zero_notMem_of_mem_tokens frame
    rw [sent]
    exact List.mem_cons_of_mem command.req listed
  obtain ⟨after, run, probes⟩ := @executeFrame_probeCtl environment state _ _ _
    sent given
  have returned : SetsExactly environment state frame file line command.targetState ↔
      after.probes = state.probes.map fun probe =>
        if probe.AtPlace file line then { probe with active := command.targetState } else probe := by
    rw [SetsExactly, run]
    constructor
    · rintro ⟨next, same, set⟩
      cases same
      exact set
    · intro set
      exact ⟨after, rfl, set⟩
  rw [returned, probes, probeCtl_eq, key, ProbeKey.pointed_nameless rfl, List.map_inj_left]
  apply forall₂_congr
  intro probe _
  have matched := match_location clean named placed probe
  rw [command.apply_eq]
  by_cases atPlace : probe.AtPlace file line
  · rw [if_pos (matched.mpr ⟨atPlace.contained, atPlace.2⟩), if_pos atPlace]
    by_cases patchable : probe.patchable = true
    · rw [if_pos patchable]
      simp [atPlace, patchable]
    · rw [if_neg patchable, eq_comm, setActive_eq_self_iff]
      simp [atPlace, patchable]
  · rw [if_neg atPlace]
    by_cases found : file <:+: probe.file ∧ probe.line = line
    · rw [if_pos (matched.mpr found)]
      by_cases patchable : probe.patchable = true
      · rw [if_pos patchable, setActive_eq_self_iff]
        simp [atPlace, found, patchable]
      · rw [if_neg patchable]
        simp [atPlace, patchable]
    · rw [if_neg (fun hit => found (matched.mp hit))]
      refine iff_of_true rfl ⟨fun here => absurd here atPlace, ?_⟩
      intro _ inside sameLine
      exact absurd ⟨inside, sameLine⟩ found

/-- On line 10 the first file has a probe, and the second one, whose name contains the first. -/
def orderProbes : List Probe :=
  [⟨[], "/src/order.C".toList, 10, true, false⟩, ⟨[], "/src/reorder.C".toList, 10, true, false⟩]

def activateByFile : List UInt8 := frameOf "ActivateProbe --file order.C --line 10"

theorem setsExactly_iff_order :
    SetsExactly willing (State.new orderProbes) activateByFile "order.C".toList 10 true ↔
      ∀ probe ∈ orderProbes,
        (probe.AtPlace "order.C".toList 10 → probe.patchable = true ∨ probe.active = true) ∧
        (¬probe.AtPlace "order.C".toList 10 → "order.C".toList <:+: probe.file → probe.line = 10 →
          probe.patchable = false ∨ probe.active = true) :=
  @setsExactly_iff _ _ _ .enable ["--file".toList, "order.C".toList, "--line".toList, "10".toList]
    _ _ (by decide) (by decide) (by decide) (by decide)

/-- The request for a probe of `order.C` activates one of `reorder.C` too. -/
theorem not_setsExactly_reorder :
    ¬SetsExactly willing (State.new orderProbes) activateByFile "order.C".toList 10 true := by
  rintro ⟨after, run, exact⟩
  obtain ⟨next, other, both⟩ := @executeFrame_probeCtl willing
    (State.new orderProbes) activateByFile .enable
    ["--file".toList, "order.C".toList, "--line".toList, "10".toList] (by decide) (by decide)
  rw [run] at other
  cases other
  rw [exact] at both
  exact absurd both (by decide)

end Requests

end Xpedite.Framework
