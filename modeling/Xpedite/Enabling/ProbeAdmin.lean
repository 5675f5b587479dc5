import Xpedite.Enabling.ProbeAdminCore
import Xpedite.Lib.Fallible
import Xpedite.Probes.CallSite
import Xpedite.Probes.Listing

/-!
Probes that are enabled by their names, from the profiler to the target and back: the names are
looked up in a list of the target, the commands carry base names and lines, and what came of them
is read from a second list.
-/

namespace Xpedite.Enabling

open Lib
open Framework (Command ProbeKey State executeFrame match_location probeCtl)
open Framework.ProbeAdmin (basename)
open Probes (AnchoredProbe Listable entryOf logProbes)
open Probes.ProbeFactory (trimWorkspace)
open Timelines (Location)

section Calls

variable {α β : Type} {first : Call α} {next : α → Call β} {connection later : Connection}

theorem bind_of_ok {value : α} (done : first connection = (.ok value, later)) :
    (first >>= next) connection = next value later := by
  have run : (first >>= next) connection =
      (ExceptT.bindCont next (first connection).1 : StateM Connection _) (first connection).2 := rfl
  rw [run, done]
  rfl

theorem bind_of_error {failure : ProbeFailure} (raised : first connection = (.error failure, later)) :
    (first >>= next) connection = (.error failure, later) := by
  have run : (first >>= next) connection =
      (ExceptT.bindCont next (first connection).1 : StateM Connection _) (first connection).2 := rfl
  rw [run, raised]
  rfl

end Calls

def liveProbes (target : Target) (state : State) : List AnchoredProbe :=
  (listing target.sites state).map (entryOf target.workspace)

def fileName (target : Target) (probe : Framework.Probe) : List Char :=
  basename (trimWorkspace probe.file target.workspace)

/-- The list of probes can be read, and the file names in it can be sent. -/
structure Queryable (target : Target) (probes : List Framework.Probe) : Prop where
  sized : target.sites.length = probes.length
  distinct : (target.sites.map Site.recorderReturnSite).Nodup
  nonNull : ∀ site ∈ target.sites, site.recorderReturnSite ≠ 0
  functions : ∀ site ∈ target.sites, IsAscii site.func ∧ '\n' ∉ site.func ∧ '|' ∉ site.func
  texts : ∀ probe ∈ probes, ∀ text ∈ [probe.name, probe.file],
    IsAscii text ∧ '\n' ∉ text ∧ '|' ∉ text
  solid : ∀ probe ∈ probes, fileName target probe ≠ [] ∧
    ∀ char ∈ fileName target probe, char ≠ ' ' ∧ char ≠ '\x00'
  placed : ∀ probe ∈ probes, probe.line ≠ 0

section Listing

variable {target : Target} {state : State}

theorem Queryable.listable (queryable : Queryable target state.probes) :
    Listable target.workspace (listing target.sites state) where
  distinct := by
    have sites : (listing target.sites state).map Probes.Probe.recorderReturnSite =
        target.sites.map Site.recorderReturnSite := by
      have first := List.map_fst_zip (Nat.le_of_eq queryable.sized)
      conv_rhs => rw [← first]
      rw [listing, List.map_map, List.map_map]
      rfl
    rw [sites]
    exact queryable.distinct
  nonNull := by
    intro probe listed
    obtain ⟨entry, member, rfl⟩ := List.mem_map.mp listed
    exact queryable.nonNull entry.1 (List.of_mem_zip member).1
  clean := by
    intro probe listed
    obtain ⟨entry, member, rfl⟩ := List.mem_map.mp listed
    have texts := queryable.texts entry.2 (List.of_mem_zip member).2
    have function := queryable.functions entry.1 (List.of_mem_zip member).1
    simp only [List.forall_mem_cons, Site.listed] at texts ⊢
    exact ⟨texts.1.2, texts.2.1.2, function.2, List.forall_mem_nil _⟩
  located := by
    intro probe listed
    obtain ⟨entry, member, rfl⟩ := List.mem_map.mp listed
    have solid := queryable.solid entry.2 (List.of_mem_zip member).2
    intro empty
    apply solid.1
    have trimmed : trimWorkspace entry.2.file target.workspace = [] := empty
    rw [fileName, trimmed]
    rfl

theorem parseFrame_listProbes (environment : Framework.Environment) :
    Framework.parseFrame environment (utf8 "ListProbes".toList) = some .probeList := by
  have token : Framework.RequestParser.tokens (utf8 "ListProbes".toList) =
      ["ListProbes".toList] := by
    decide +kernel
  have other : "ListProbes".toList ≠ Framework.RequestParser.reqPmuActivation := by decide
  rw [Framework.parseFrame_of_tokens environment token other]
  rfl

theorem admin_listProbes (connection : Connection) :
    ProbeAdmin.admin target "ListProbes".toList connection =
      (.ok (logProbes (listing target.sites connection.state)), connection) := by
  rw [ProbeAdmin.admin, executeFrame, parseFrame_listProbes]
  simp [Framework.execute, Session.adminResult]

theorem listing_ne_nil (sized : target.sites.length = state.probes.length)
    (full : state.probes ≠ []) : listing target.sites state ≠ [] := by
  rw [listing, ne_eq, List.map_eq_nil_iff, List.zip_eq_nil_iff]
  rintro (empty | empty)
  · rw [empty, List.length_nil] at sized
    exact full (List.eq_nil_of_length_eq_zero sized.symm)
  · exact full empty

theorem logProbes_ne_nil {probes : List Probes.Probe} (full : probes ≠ []) :
    logProbes probes ≠ [] := by
  obtain ⟨first, rest, rfl⟩ := List.exists_cons_of_ne_nil full
  rw [Probes.logProbes_eq, List.flatMap_cons]
  simp

theorem getProbes_eq {connection : Connection} (queryable : Queryable target connection.state.probes)
    (full : connection.state.probes ≠ []) :
    ProbeAdmin.getProbes target connection =
      (.ok (liveProbes target connection.state), connection) := by
  have text := logProbes_ne_nil (listing_ne_nil queryable.sized full)
  have built := Probes.buildFromRecords_logProbes queryable.listable
  rw [ProbeAdmin.getProbes, bind_of_ok (admin_listProbes connection), if_neg text, built]
  simp [liveProbes, Probes.parsedOf, Function.comp_def]
  rfl

theorem getProbes_empty {connection : Connection} (none_ : connection.state.probes = []) :
    ProbeAdmin.getProbes target connection = (.error .noProbes, connection) := by
  have text : logProbes (listing target.sites connection.state) = [] := by
    rw [listing, none_, List.zip_nil_right]
    rfl
  rw [ProbeAdmin.getProbes, bind_of_ok (admin_listProbes connection), if_pos text]
  rfl

end Listing

section Updates

variable {target : Target} {connection : Connection} {anchoredProbe : AnchoredProbe}

theorem map_utf8 {text : List Char} (ascii : IsAscii text) :
    (utf8 text).map (fun byte => Char.ofNat byte.toNat) = text := by
  have same : ∀ char ∈ text, Char.ofNat (UInt8.ofNat char.toNat).toNat = id char := by
    intro char member
    have small : char.toNat < 256 := by
      have bound : char.val.toNat ≤ 127 := UInt32.le_iff_toNat_le.mp (ascii char member)
      exact Nat.lt_of_le_of_lt bound (by omega)
    rw [UInt8.toNat_ofNat_of_lt' small, Char.ofNat_toNat, id_eq]
  rw [Transport.utf8_eq_map ascii, List.map_map]
  exact (List.map_congr_left same).trans (List.map_id text)

structure Sendable (anchoredProbe : AnchoredProbe) : Prop where
  ascii : IsAscii (basename anchoredProbe.filePath)
  named : basename anchoredProbe.filePath ≠ []
  solid : ∀ char ∈ basename anchoredProbe.filePath, char ≠ ' ' ∧ char ≠ '\x00'
  placed : anchoredProbe.lineNo.toNat ≠ 0
  small : anchoredProbe.lineNo.toNat < 2 ^ 32

def keyOf (anchoredProbe : AnchoredProbe) : ProbeKey :=
  ⟨[], basename anchoredProbe.filePath, UInt32.ofNat anchoredProbe.lineNo.toNat⟩

theorem isAscii_updateProbe (sendable : Sendable anchoredProbe) (targetState : Bool) :
    IsAscii (Framework.ProbeAdmin.updateProbe anchoredProbe.filePath anchoredProbe.lineNo.toNat
      targetState) := by
  have command : IsAscii (if targetState then "ActivateProbe".toList else "DeactivateProbe".toList) := by
    cases targetState <;> simp [IsAscii]
  have options : IsAscii " --file ".toList ∧ IsAscii " --line ".toList := by simp [IsAscii]
  have digits := Transport.Datagram.isAscii_of_isDigit fun char member =>
    @Nat.isDigit_of_mem_toDigits 10 anchoredProbe.lineNo.toNat char (by decide) (by decide) member
  rw [Framework.ProbeAdmin.updateProbe]
  intro char member
  simp only [List.mem_append] at member
  rcases member with (((inCommand | inFile) | inName) | inLine) | inDigits
  · exact command char inCommand
  · exact options.1 char inFile
  · exact sendable.ascii char inName
  · exact options.2 char inLine
  · exact digits char inDigits

theorem updateProbe_eq (command : Command) (sendable : Sendable anchoredProbe) :
    ∃ after, ProbeAdmin.updateProbe target command.targetState anchoredProbe connection =
        (.ok (), { connection with state := after }) ∧
      after.probes = probeCtl command (keyOf anchoredProbe) connection.state.probes := by
  have text := map_utf8 (isAscii_updateProbe sendable command.targetState)
  obtain ⟨args, sent, key⟩ := Framework.parseProbeKey_updateProbe command text sendable.named
    sendable.solid sendable.small
  have given : args ≠ [] := by
    rintro rfl
    exact sendable.named (congrArg ProbeKey.file key).symm
  obtain ⟨after, executed, probes⟩ := @Framework.executeFrame_probeCtl
    { target.environment with
      probeListing := String.ofList (logProbes (listing target.sites connection.state)) }
    connection.state _ _ _ sent given
  refine ⟨after, ?_, probes.trans (by rw [key]; rfl)⟩
  have called : ProbeAdmin.admin target (Framework.ProbeAdmin.updateProbe anchoredProbe.filePath
      anchoredProbe.lineNo.toNat command.targetState) connection =
        (.ok [], { connection with state := after }) := by
    rw [ProbeAdmin.admin]
    dsimp only
    rw [executed]
    rfl
  rw [ProbeAdmin.updateProbe, bind_of_ok called]
  rfl

theorem updates_eq (command : Command) {anchoredProbes : List AnchoredProbe}
    (sendable : ∀ probe ∈ anchoredProbes, Sendable probe) (connection : Connection) :
    ∃ after, anchoredProbes.forM (ProbeAdmin.updateProbe target command.targetState) connection =
        (.ok (), { connection with state := after }) ∧
      after.probes = connection.state.probes.map fun live =>
        if (anchoredProbes.map keyOf).any live.match then command.apply live else live := by
  suffices folded : ∃ after,
      anchoredProbes.forM (ProbeAdmin.updateProbe target command.targetState) connection =
        (.ok (), { connection with state := after }) ∧
      after.probes = (anchoredProbes.map keyOf).foldl
        (fun probes key => probeCtl command key probes) connection.state.probes by
    obtain ⟨after, run, probes⟩ := folded
    exact ⟨after, run, probes.trans (Framework.foldl_probeCtl command _ _)⟩
  induction anchoredProbes generalizing connection with
  | nil => exact ⟨connection.state, rfl, rfl⟩
  | cons probe rest ih =>
      obtain ⟨next, sent, probes⟩ := @updateProbe_eq target connection probe command
        (sendable probe List.mem_cons_self)
      obtain ⟨after, run, folded⟩ := ih
        (fun other listed => sendable other (List.mem_cons_of_mem probe listed))
        { connection with state := next }
      refine ⟨after, ?_, ?_⟩
      · exact (bind_of_ok sent).trans run
      · rw [folded, List.map_cons, List.foldl_cons, probes]

end Updates

section Check

open ProbeAdmin

theorem foldl_addError (errors : Nat × List Char) (messages : List (List Char)) :
    (messages.foldl addError errors).1 = errors.1 + messages.length := by
  induction messages generalizing errors with
  | nil => rfl
  | cons message messages ih =>
      rw [List.foldl_cons, ih, addError, List.length_cons]
      omega

theorem problem_eq_none_iff (targetState : Bool) (probeMap : ProbeMap) (probe : AnchoredProbe) :
    problem targetState probeMap probe = none ↔
      LooseDict.get Location.eq (AnchoredProbe.location probe) probeMap = some targetState := by
  rw [problem]
  cases LooseDict.get Location.eq (AnchoredProbe.location probe) probeMap with
  | none => simp
  | some isActive =>
      dsimp only
      split
      case isTrue differ => simpa using differ
      case isFalse same =>
        rw [not_not] at same
        simp [same]

theorem check_eq_zero_iff {targetState : Bool} {probes anchoredProbes : List AnchoredProbe}
    (full : probes ≠ []) :
    (check targetState probes anchoredProbes).1 = 0 ↔ ∀ probe ∈ anchoredProbes,
      LooseDict.get Location.eq (AnchoredProbe.location probe) (probeMap probes) =
        some targetState := by
  rw [check, if_neg full, foldl_addError, Nat.zero_add, List.length_eq_zero_iff,
    List.filterMap_eq_nil_iff]
  exact forall₂_congr fun probe _ => problem_eq_none_iff _ _ _

/-- The probes that compare equal have one file name and one line. -/
def place (location : Location) : String × Nat := (location.fileName, location.lineNo)

theorem place_eq_of_eq (first second : Location) (same : first.eq second = true) :
    place first = place second := by
  rw [Location.eq] at same
  split at same
  case isTrue => cases same
  case isFalse alike =>
    simp only [not_or, not_not] at alike
    rw [place, place, alike.1, alike.2]

theorem get_probeMap {probes : List AnchoredProbe} {probe : AnchoredProbe} (listed : probe ∈ probes)
    (uniform : ∀ other ∈ probes,
      place (AnchoredProbe.location other) = place (AnchoredProbe.location probe) →
        other.isActive = probe.isActive) :
    LooseDict.get Location.eq (AnchoredProbe.location probe) (probeMap probes) =
      some probe.isActive := by
  have folded : probeMap probes =
      (probes.map fun probe => (AnchoredProbe.location probe, probe.isActive)).foldl
        (fun dict entry => LooseDict.update Location.eq entry.1 entry.2 dict) [] := by
    rw [probeMap, List.foldl_map]
  rw [folded]
  apply LooseDict.get_foldl_of_uniform place_eq_of_eq Location.eq_self
  · exact List.mem_map.mpr ⟨probe, listed, rfl⟩
  · intro entry member
    obtain ⟨other, inside, rfl⟩ := List.mem_map.mp member
    exact uniform other inside

end Check

section Effects

variable {target : Target}

theorem isActive_listed (site : Site) (probe : Framework.Probe) :
    (site.listed probe).isActive = probe.active := by
  have bit : (1 : UInt32) <<< (0 : UInt32) = 1 := by decide
  rw [Probes.Probe.isActive, Probes.CallSiteAttr.isActive, Probes.CallSiteAttr.has, Site.listed, bit]
  cases probe.active with
  | false => simp [Probes.Patching.and_not_one_and_one]
  | true => simp [Probes.Patching.or_one_and_one]

def StandsAt (target : Target) (anchoredProbe : AnchoredProbe) (live : Framework.Probe) : Prop :=
  anchoredProbe.filePath = trimWorkspace live.file target.workspace ∧
    anchoredProbe.lineNo = live.line.toNat

def SamePlace (target : Target) (first second : Framework.Probe) : Prop :=
  fileName target first = fileName target second ∧ first.line = second.line

def Activatable (probe : Framework.Probe) : Prop := probe.patchable = true ∨ probe.active = true

theorem activate_active_iff (probe : Framework.Probe) :
    probe.activate.active = true ↔ Activatable probe := by
  rw [Framework.Probe.activate, Activatable]
  cases patchable : probe.patchable <;> simp

theorem suffix_trimWorkspace (file : List Char) (workspace : Option (List Char)) :
    trimWorkspace file workspace <:+ file := by
  unfold trimWorkspace
  cases workspace with
  | none =>
      dsimp only
      split
      case h_1 rest => exact List.suffix_cons '/' rest
      case h_2 => exact List.suffix_rfl
  | some workspace =>
      have kept : (if workspace ≠ [] ∧ workspace.isPrefixOf file then file.drop workspace.length
          else file) <:+ file := by
        split
        · exact List.drop_suffix _ _
        · exact List.suffix_rfl
      dsimp only
      split
      case h_1 rest slash =>
        rw [slash] at kept
        exact (List.suffix_cons '/' rest).trans kept
      case h_2 => exact kept

theorem suffix_basename (filePath : List Char) : basename filePath <:+ filePath := by
  have front := List.takeWhile_prefix (· ≠ '/') (l := filePath.reverse)
  rw [basename, ← List.reverse_prefix, List.reverse_reverse]
  exact front

theorem fileName_within (target : Target) (live : Framework.Probe) : fileName target live <:+: live.file :=
  ((suffix_basename _).trans (suffix_trimWorkspace _ _)).isInfix

variable {probes : List Framework.Probe} {anchoredProbe : AnchoredProbe} {live : Framework.Probe}

theorem StandsAt.sendable (stands : StandsAt target anchoredProbe live)
    (queryable : Queryable target probes) (listed : live ∈ probes) : Sendable anchoredProbe := by
  have solid := queryable.solid live listed
  have placed := queryable.placed live listed
  have ascii := (queryable.texts live listed live.file (by simp)).1
  have name : basename anchoredProbe.filePath = fileName target live := by
    rw [stands.1]
    rfl
  have line : anchoredProbe.lineNo.toNat = live.line.toNat := by
    rw [stands.2, Int.toNat_natCast]
  refine ⟨?_, ?_, ?_, ?_, ?_⟩
  · rw [name]
    exact fun char member => ascii char ((fileName_within target live).subset member)
  · rw [name]
    exact solid.1
  · rw [name]
    exact solid.2
  · rw [line]
    exact fun zero => placed (UInt32.toNat_inj.mp zero)
  · rw [line]
    exact live.line.toNat_lt

theorem match_keyOf_iff (stands : StandsAt target anchoredProbe live)
    (queryable : Queryable target probes) (listed : live ∈ probes) (other : Framework.Probe) :
    other.match (keyOf anchoredProbe) = true ↔
      fileName target live <:+: other.file ∧ other.line = live.line := by
  have solid := queryable.solid live listed
  have name : basename anchoredProbe.filePath = fileName target live := by
    rw [stands.1]
    rfl
  have line : UInt32.ofNat anchoredProbe.lineNo.toNat = live.line := by
    rw [stands.2, Int.toNat_natCast, UInt32.ofNat_toNat]
  have clean : '\x00' ∉ fileName target live := fun zero => (solid.2 _ zero).2 rfl
  rw [keyOf, name, line, match_location clean solid.1 (queryable.placed live listed)]

theorem match_keyOf (stands : StandsAt target anchoredProbe live)
    (queryable : Queryable target probes) (listed : live ∈ probes) {other : Framework.Probe}
    (together : SamePlace target other live) : other.match (keyOf anchoredProbe) = true := by
  rw [match_keyOf_iff stands queryable listed, ← together.1]
  exact ⟨fileName_within target other, together.2⟩

/-- What the commands for these probes leave of a probe. -/
def reach (anchoredProbes : List AnchoredProbe) (live : Framework.Probe) : Framework.Probe :=
  if (anchoredProbes.map keyOf).any live.match then live.activate else live

theorem activate_keeps (live : Framework.Probe) :
    live.activate.name = live.name ∧ live.activate.file = live.file ∧
      live.activate.line = live.line := by
  rw [Framework.Probe.activate]
  split
  · exact ⟨rfl, rfl, rfl⟩
  · exact ⟨rfl, rfl, rfl⟩

theorem reach_keeps (anchoredProbes : List AnchoredProbe) (live : Framework.Probe) :
    (reach anchoredProbes live).name = live.name ∧ (reach anchoredProbes live).file = live.file ∧
      (reach anchoredProbes live).line = live.line := by
  rw [reach]
  split
  · exact activate_keeps live
  · exact ⟨rfl, rfl, rfl⟩

theorem Queryable.reached (queryable : Queryable target probes)
    (anchoredProbes : List AnchoredProbe) :
    Queryable target (probes.map (reach anchoredProbes)) := by
  have keeps := reach_keeps anchoredProbes
  refine ⟨?_, queryable.distinct, queryable.nonNull, queryable.functions, ?_, ?_, ?_⟩
  · rw [List.length_map]
    exact queryable.sized
  · rw [List.forall_mem_map]
    intro live listed
    rw [(keeps live).1, (keeps live).2.1]
    exact queryable.texts live listed
  · rw [List.forall_mem_map]
    intro live listed
    rw [fileName, (keeps live).2.1]
    exact queryable.solid live listed
  · rw [List.forall_mem_map]
    intro live listed
    rw [(keeps live).2.2]
    exact queryable.placed live listed

/-- Probes of one place are alike in that they can be activated. -/
def Uniform (target : Target) (probes : List Framework.Probe) : Prop :=
  ∀ first ∈ probes, ∀ second ∈ probes, SamePlace target first second →
    (Activatable first ↔ Activatable second)

variable {anchoredProbes : List AnchoredProbe} {state after : State}

structure EntryOf (target : Target) (entry : AnchoredProbe) (live : Framework.Probe) : Prop where
  stands : StandsAt target entry live
  sysName : entry.sysName = live.name
  isActive : entry.isActive = live.active

theorem entryOf_listed (site : Site) (live : Framework.Probe) :
    EntryOf target (entryOf target.workspace (site.listed live)) live :=
  ⟨⟨rfl, rfl⟩, rfl, isActive_listed site live⟩

theorem mem_liveProbes {entry : AnchoredProbe} (listed : entry ∈ liveProbes target state) :
    ∃ live ∈ state.probes, EntryOf target entry live := by
  obtain ⟨probe, inside, rfl⟩ := List.mem_map.mp listed
  obtain ⟨⟨site, live⟩, member, rfl⟩ := List.mem_map.mp inside
  exact ⟨live, (List.of_mem_zip member).2, entryOf_listed site live⟩

theorem exists_liveProbe (sized : target.sites.length = state.probes.length)
    (present : live ∈ state.probes) : ∃ entry ∈ liveProbes target state, EntryOf target entry live := by
  rw [← List.map_snd_zip (Nat.le_of_eq sized.symm)] at present
  obtain ⟨⟨site, probe⟩, member, rfl⟩ := List.mem_map.mp present
  refine ⟨_, ?_, entryOf_listed site probe⟩
  exact List.mem_map_of_mem (List.mem_map.mpr ⟨_, member, rfl⟩)

theorem standsAt_reach {anchoredProbe : AnchoredProbe} :
    StandsAt target anchoredProbe (reach anchoredProbes live) ↔
      StandsAt target anchoredProbe live := by
  have keeps := reach_keeps anchoredProbes live
  rw [StandsAt, StandsAt, keeps.2.1, keeps.2.2]

theorem StandsAt.location_eq (first : StandsAt target anchoredProbe live) {entry : AnchoredProbe}
    (second : StandsAt target entry live) :
    AnchoredProbe.location anchoredProbe = AnchoredProbe.location entry := by
  rw [AnchoredProbe.location, AnchoredProbe.location, first.1, first.2, second.1, second.2]

theorem StandsAt.samePlace {other : Framework.Probe} {entry : AnchoredProbe}
    (first : StandsAt target entry other) (second : StandsAt target anchoredProbe live)
    (together : place (AnchoredProbe.location entry) = place (AnchoredProbe.location anchoredProbe)) :
    SamePlace target other live := by
  rw [place, place, Prod.mk.injEq, AnchoredProbe.location, AnchoredProbe.location,
    first.1, first.2, second.1, second.2, Int.toNat_natCast, Int.toNat_natCast] at together
  exact ⟨String.ofList_injective together.1, UInt32.toNat_inj.mp together.2⟩

theorem get_probeMap_after (queryable : Queryable target state.probes)
    (uniform : Uniform target state.probes)
    (set : after.probes = state.probes.map (reach anchoredProbes))
    (sent : anchoredProbe ∈ anchoredProbes) (present : live ∈ state.probes)
    (stands : StandsAt target anchoredProbe live) :
    LooseDict.get Location.eq (AnchoredProbe.location anchoredProbe)
      (ProbeAdmin.probeMap (liveProbes target after)) = some live.activate.active := by
  have reached : ∀ other ∈ state.probes, SamePlace target other live →
      reach anchoredProbes other = other.activate := by
    intro other _ together
    have hit : (anchoredProbes.map keyOf).any other.match = true :=
      List.any_eq_true.mpr ⟨keyOf anchoredProbe, List.mem_map_of_mem sent,
        match_keyOf stands queryable present together⟩
    rw [reach, if_pos hit]
  have again : Queryable target after.probes := by
    rw [set]
    exact queryable.reached anchoredProbes
  have changed : live.activate ∈ after.probes := by
    rw [set, ← reached live present ⟨rfl, rfl⟩]
    exact List.mem_map_of_mem present
  obtain ⟨entry, listed, this⟩ := exists_liveProbe again.sized changed
  have here : StandsAt target entry live := by
    have stands_ := this.stands
    rwa [← reached live present ⟨rfl, rfl⟩, standsAt_reach] at stands_
  rw [stands.location_eq here, ← this.isActive]
  apply get_probeMap listed
  intro other inList together
  obtain ⟨second, inState, that⟩ := mem_liveProbes inList
  rw [set] at inState
  obtain ⟨second, before, rfl⟩ := List.mem_map.mp inState
  have same := (standsAt_reach.mp that.stands).samePlace here together
  rw [that.isActive, reached second before same, this.isActive, Bool.eq_iff_iff,
    activate_active_iff, activate_active_iff]
  exact uniform second before live present same

theorem enableProbes_eq {connection : Connection}
    (queryable : Queryable target connection.state.probes) (some_ : anchoredProbes ≠ [])
    (stands : ∀ probe ∈ anchoredProbes, ∃ live ∈ connection.state.probes,
      StandsAt target probe live) :
    ∃ result after, Runtime.enableProbes target anchoredProbes connection =
        (result, { connection with state := after }) ∧
      after.probes = connection.state.probes.map (reach anchoredProbes) ∧
      (result = .ok () ↔ ∀ probe ∈ anchoredProbes,
        LooseDict.get Location.eq (AnchoredProbe.location probe)
          (ProbeAdmin.probeMap (liveProbes target after)) = some true) := by
  have sendable : ∀ probe ∈ anchoredProbes, Sendable probe := by
    intro probe sent
    obtain ⟨live, present, here⟩ := stands probe sent
    exact here.sendable queryable present
  obtain ⟨after, run, set⟩ := @updates_eq target .enable _ sendable connection
  have full : after.probes ≠ [] := by
    obtain ⟨probe, sent⟩ := List.exists_mem_of_ne_nil _ some_
    obtain ⟨live, present, -⟩ := stands probe sent
    rw [set, ne_eq, List.map_eq_nil_iff]
    exact List.ne_nil_of_mem present
  have again : Queryable target after.probes := by
    rw [set]
    exact queryable.reached anchoredProbes
  have listed := @getProbes_eq target { connection with state := after } again full
  have updated : ProbeAdmin.updateProbes target anchoredProbes true connection =
      (.ok (ProbeAdmin.check true (liveProbes target after) anchoredProbes),
        { connection with state := after }) := by
    rw [ProbeAdmin.updateProbes]
    exact (bind_of_ok run).trans (bind_of_ok listed)
  have some_listed : liveProbes target after ≠ [] := by
    rw [liveProbes, ne_eq, List.map_eq_nil_iff]
    exact listing_ne_nil again.sized full
  rw [Runtime.enableProbes, if_pos some_, bind_of_ok updated]
  dsimp only
  by_cases zero : (ProbeAdmin.check true (liveProbes target after) anchoredProbes).1 = 0
  · rw [zero, if_neg (Nat.lt_irrefl 0)]
    exact ⟨.ok (), after, rfl, set, iff_of_true rfl ((check_eq_zero_iff some_listed).mp zero)⟩
  · rw [if_pos (Nat.pos_of_ne_zero zero)]
    refine ⟨_, after, rfl, set, iff_of_false nofun ?_⟩
    exact fun all => zero ((check_eq_zero_iff some_listed).mpr all)

theorem enableProbes_spec {connection : Connection}
    (queryable : Queryable target connection.state.probes)
    (uniform : Uniform target connection.state.probes)
    (stands : ∀ probe ∈ anchoredProbes, ∃ live ∈ connection.state.probes,
      StandsAt target probe live) :
    ∃ result after, Runtime.enableProbes target anchoredProbes connection =
        (result, { connection with state := after }) ∧
      after.probes = connection.state.probes.map (reach anchoredProbes) ∧
      (result = .ok () ↔ ∀ probe ∈ anchoredProbes, ∀ live ∈ connection.state.probes,
        StandsAt target probe live → Activatable live) := by
  by_cases some_ : anchoredProbes = []
  · subst some_
    have same : reach [] = id := rfl
    refine ⟨.ok (), connection.state, rfl, ?_, iff_of_true rfl nofun⟩
    rw [same, List.map_id]
  · obtain ⟨result, after, run, set, ends⟩ := enableProbes_eq queryable some_ stands
    refine ⟨result, after, run, set, ends.trans ?_⟩
    constructor
    · intro all probe sent live present here
      have value := get_probeMap_after queryable uniform set sent present here
      rw [all probe sent] at value
      exact (activate_active_iff live).mp (Option.some.inj value).symm
    · intro all probe sent
      obtain ⟨live, present, here⟩ := stands probe sent
      rw [get_probeMap_after queryable uniform set sent present here]
      exact congrArg some ((activate_active_iff live).mpr (all probe sent live present here))

end Effects

section Names

variable {target : Target} {connection : Connection} {sysName : List Char}

theorem get_foldl_addProbe (named : sysName ≠ [])
    (map : OrderedDict (List Char) (List AnchoredProbe)) (probes : List AnchoredProbe) :
    (probes.foldl ProbeResolver.addProbe map).get sysName =
      match probes.filter fun probe => probe.sysName = sysName with
      | [] => map.get sysName
      | found => some ((map.get sysName).getD [] ++ found) := by
  induction probes generalizing map with
  | nil => rfl
  | cons probe probes ih =>
      rw [List.foldl_cons, ih]
      by_cases same : probe.sysName = sysName
      · have added : (ProbeResolver.addProbe map probe).get sysName =
            some ((map.get sysName).getD [] ++ [probe]) := by
          rw [ProbeResolver.addProbe, same, if_neg named]
          cases map.get sysName with
          | none => exact (OrderedDict.get_update _ _ _ _).trans (if_pos rfl)
          | some found => exact (OrderedDict.get_update _ _ _ _).trans (if_pos rfl)
        rw [added, List.filter_cons_of_pos (by simpa using same)]
        cases probes.filter fun probe => probe.sysName = sysName with
        | nil => rfl
        | cons next rest => simp
      · have kept : (ProbeResolver.addProbe map probe).get sysName = map.get sysName := by
          rw [ProbeResolver.addProbe]
          split
          · rfl
          · split
            · rw [OrderedDict.get_update, if_neg same]
            · rw [OrderedDict.get_update, if_neg same]
        rw [kept, List.filter_cons_of_neg (by simpa using same)]

def nameMap (target : Target) (state : State) : OrderedDict (List Char) (List AnchoredProbe) :=
  (liveProbes target state).foldl ProbeResolver.addProbe []

def Fetched (target : Target) (connection : Connection) : Prop :=
  connection.anchoredProbeMap = none ∨
    connection.anchoredProbeMap = some (nameMap target connection.state)

theorem resolveAnchoredProbe_eq (queryable : Queryable target connection.state.probes)
    (full : connection.state.probes ≠ []) (fetched : Fetched target connection) :
    ProbeResolver.resolveAnchoredProbe target sysName connection =
      (.ok ((nameMap target connection.state).get sysName),
        { connection with anchoredProbeMap := some (nameMap target connection.state) }) := by
  have map : ProbeResolver.anchoredProbeMap target connection =
      (.ok (nameMap target connection.state),
        { connection with anchoredProbeMap := some (nameMap target connection.state) }) := by
    obtain ⟨state, known⟩ := connection
    rcases fetched with nothing | all
    · obtain rfl : known = none := nothing
      have listed := @getProbes_eq target ⟨state, some []⟩ queryable full
      rw [ProbeResolver.anchoredProbeMap]
      exact bind_of_ok listed
    · obtain rfl : known = some (nameMap target state) := all
      rfl
  rw [ProbeResolver.resolveAnchoredProbe, bind_of_ok map]
  rfl

theorem resolveAnchoredProbe_empty (none_ : connection.state.probes = [])
    (fetched : Fetched target connection) :
    ∃ result next, ProbeResolver.resolveAnchoredProbe target sysName connection = (result, next) ∧
      next.state = connection.state ∧ ∀ found, result ≠ .ok (some found) := by
  obtain ⟨state, known⟩ := connection
  rcases fetched with nothing | all
  · obtain rfl : known = none := nothing
    have raised : ProbeResolver.anchoredProbeMap target ⟨state, none⟩ =
        (.error .noProbes, ⟨state, some []⟩) := by
      have listed := @getProbes_empty target ⟨state, some []⟩ none_
      rw [ProbeResolver.anchoredProbeMap]
      exact (bind_of_ok rfl).trans ((bind_of_ok rfl).trans (bind_of_error listed))
    rw [ProbeResolver.resolveAnchoredProbe, bind_of_error raised]
    exact ⟨_, _, rfl, rfl, nofun⟩
  · obtain rfl : known = some (nameMap target state) := all
    have absent : (nameMap target state).get sysName = none := by
      have nobody : state.probes = [] := none_
      rw [nameMap, liveProbes, listing, nobody, List.zip_nil_right]
      rfl
    have map : ProbeResolver.anchoredProbeMap target ⟨state, some (nameMap target state)⟩ =
        (.ok (nameMap target state), ⟨state, some (nameMap target state)⟩) := rfl
    rw [ProbeResolver.resolveAnchoredProbe, bind_of_ok map, absent]
    exact ⟨_, _, rfl, rfl, nofun⟩

theorem setAttr_keeps (probe : AnchoredProbe) (attr : List Char) :
    (probe.setAttr attr).filePath = probe.filePath ∧ (probe.setAttr attr).lineNo = probe.lineNo := by
  rw [Probes.AnchoredProbe.setAttr]
  repeat' split
  all_goals exact ⟨rfl, rfl⟩

theorem initAttributes_keeps (probe : AnchoredProbe) :
    probe.initAttributes.filePath = probe.filePath ∧
      probe.initAttributes.lineNo = probe.lineNo := by
  rw [Probes.AnchoredProbe.initAttributes]
  generalize split [','] probe.attributes = attrs
  induction attrs generalizing probe with
  | nil => exact ⟨rfl, rfl⟩
  | cons attr attrs ih =>
      have first := setAttr_keeps probe attr
      have rest := ih (probe.setAttr attr)
      rw [List.foldl_cons]
      exact ⟨rest.1.trans first.1, rest.2.trans first.2⟩

def spot (probe : AnchoredProbe) : List Char × Int := (probe.filePath, probe.lineNo)

theorem spot_of_locate {name : List Char} {probe located : AnchoredProbe}
    (done : AnchoredProbe.locate name probe = .ok located) : spot located = spot probe := by
  rw [AnchoredProbe.locate] at done
  split at done
  · cases done
  · obtain rfl := Except.ok.inj done
    have keeps := initAttributes_keeps
    rw [spot, (keeps _).1, (keeps _).2, spot]

theorem exists_locate {name : List Char} {probe : AnchoredProbe} (placed : probe.filePath ≠ [])
    (lined : probe.lineNo ≠ 0) : ∃ located, AnchoredProbe.locate name probe = .ok located := by
  rw [AnchoredProbe.locate, if_neg (not_or.mpr ⟨placed, lined⟩)]
  exact ⟨_, rfl⟩

structure Finds (target : Target) (live : List Framework.Probe) (names : List (List Char))
    (anchoredProbes : List AnchoredProbe) : Prop where
  sound : ∀ probe ∈ anchoredProbes, ∃ found ∈ live, found.name ∈ names ∧
    StandsAt target probe found
  complete : ∀ found ∈ live, found.name ∈ names →
    ∃ probe ∈ anchoredProbes, StandsAt target probe found

theorem finds_filter (queryable : Queryable target connection.state.probes) {name sysName : List Char}
    {located : List AnchoredProbe}
    (done : ((liveProbes target connection.state).filter fun probe => probe.sysName = sysName).mapM
      (AnchoredProbe.locate name) = .ok located) :
    Finds target connection.state.probes [sysName] located := by
  have places : located.map spot = ((liveProbes target connection.state).filter fun probe =>
      probe.sysName = sysName).map spot := map_eq_of_mapM done fun _ _ _ => spot_of_locate
  constructor
  · intro probe listed
    have inside := List.mem_map_of_mem (f := spot) listed
    rw [places] at inside
    obtain ⟨entry, member, same⟩ := List.mem_map.mp inside
    rw [List.mem_filter] at member
    obtain ⟨live, present, this⟩ := mem_liveProbes member.1
    rw [spot, spot, Prod.mk.injEq] at same
    refine ⟨live, present, ?_, same.1.symm.trans this.stands.1, same.2.symm.trans this.stands.2⟩
    rw [List.mem_singleton, ← this.sysName]
    exact of_decide_eq_true member.2
  · intro live present name
    obtain ⟨entry, listed, this⟩ := exists_liveProbe queryable.sized present
    have member : entry ∈ (liveProbes target connection.state).filter fun probe =>
        probe.sysName = sysName := by
      rw [List.mem_filter]
      exact ⟨listed, decide_eq_true (this.sysName.trans (List.mem_singleton.mp name))⟩
    have inside := List.mem_map_of_mem (f := spot) member
    rw [← places] at inside
    obtain ⟨probe, found, same⟩ := List.mem_map.mp inside
    rw [spot, spot, Prod.mk.injEq] at same
    exact ⟨probe, found, same.1.trans this.stands.1, same.2.trans this.stands.2⟩

theorem exists_located (queryable : Queryable target connection.state.probes) (name : List Char)
    (sysName : List Char) :
    ∃ located, ((liveProbes target connection.state).filter fun probe =>
      probe.sysName = sysName).mapM (AnchoredProbe.locate name) = .ok located := by
  apply exists_mapM_eq_ok
  intro probe listed
  obtain ⟨live, present, entry⟩ := mem_liveProbes (List.mem_of_mem_filter listed)
  have solid := queryable.solid live present
  apply exists_locate
  · intro empty
    apply solid.1
    rw [fileName, ← entry.stands.1, empty]
    rfl
  · rw [entry.stands.2]
    intro zero
    exact queryable.placed live present (UInt32.toNat_inj.mp (Int.ofNat_eq_zero.mp zero))

theorem resolveProbe_found {probe : NamedProbe}
    (queryable : Queryable target connection.state.probes) (fetched : Fetched target connection)
    (known : ∃ live ∈ connection.state.probes, live.name = probe.sysName) :
    ∃ anchoredProbes next,
      Runtime.resolveProbe target (.probe probe) connection = (.ok anchoredProbes, next) ∧
        next.state = connection.state ∧ Fetched target next ∧
        Finds target connection.state.probes [probe.sysName] anchoredProbes := by
  obtain ⟨live, present, name⟩ := known
  have looked := @resolveAnchoredProbe_eq target connection probe.sysName queryable
    (List.ne_nil_of_mem present) fetched
  obtain ⟨entry, listed, this⟩ := exists_liveProbe queryable.sized present
  have found : (nameMap target connection.state).get probe.sysName =
      some ((liveProbes target connection.state).filter fun entry =>
        entry.sysName = probe.sysName) := by
    have inside : entry ∈ (liveProbes target connection.state).filter fun entry =>
        entry.sysName = probe.sysName := by
      rw [List.mem_filter]
      exact ⟨listed, decide_eq_true (this.sysName.trans name)⟩
    rw [nameMap, get_foldl_addProbe probe.named]
    split
    case h_1 nobody =>
      rw [nobody] at inside
      cases inside
    case h_2 => rfl
  obtain ⟨located, done⟩ := exists_located queryable probe.name probe.sysName
  refine ⟨located, { connection with anchoredProbeMap := some (nameMap target connection.state) },
    ?_, rfl, .inr rfl, finds_filter queryable done⟩
  rw [Runtime.resolveProbe, bind_of_ok looked, found]
  dsimp only
  rw [done]
  rfl

theorem resolveProbe_missing {probe : NamedProbe}
    (queryable : Queryable target connection.state.probes) (fetched : Fetched target connection)
    (unknown : ∀ live ∈ connection.state.probes, live.name ≠ probe.sysName) :
    ∃ failure next,
      Runtime.resolveProbe target (.probe probe) connection = (.error failure, next) ∧
        next.state = connection.state := by
  obtain ⟨result, next, looked, kept, unfound⟩ : ∃ result next,
      ProbeResolver.resolveAnchoredProbe target probe.sysName connection = (result, next) ∧
        next.state = connection.state ∧ ∀ found, result ≠ .ok (some found) := by
    by_cases none_ : connection.state.probes = []
    · exact resolveAnchoredProbe_empty none_ fetched
    · refine ⟨_, _, resolveAnchoredProbe_eq queryable none_ fetched, rfl, ?_⟩
      have nobody : ((liveProbes target connection.state).filter fun entry =>
          entry.sysName = probe.sysName) = [] := by
        rw [List.filter_eq_nil_iff]
        intro entry listed same
        obtain ⟨live, present, this⟩ := mem_liveProbes listed
        exact unknown live present (this.sysName.symm.trans (of_decide_eq_true same))
      rw [nameMap, get_foldl_addProbe probe.named, nobody]
      nofun
  cases result with
  | error failure =>
      refine ⟨failure, next, ?_, kept⟩
      rw [Runtime.resolveProbe, bind_of_error looked]
  | ok found =>
      cases found with
      | some found => exact absurd rfl (unfound found)
      | none =>
          refine ⟨.unlocated probe.sysName, next, ?_, kept⟩
          rw [Runtime.resolveProbe, bind_of_ok looked]
          rfl

theorem Finds.append {live : List Framework.Probe} {names others : List (List Char)}
    {first second : List AnchoredProbe} (one : Finds target live names first)
    (two : Finds target live others second) :
    Finds target live (names ++ others) (first ++ second) := by
  constructor
  · intro probe listed
    rcases List.mem_append.mp listed with inFirst | inSecond
    · obtain ⟨found, present, name, stands⟩ := one.sound probe inFirst
      exact ⟨found, present, List.mem_append_left _ name, stands⟩
    · obtain ⟨found, present, name, stands⟩ := two.sound probe inSecond
      exact ⟨found, present, List.mem_append_right _ name, stands⟩
  · intro found present name
    rcases List.mem_append.mp name with inNames | inOthers
    · obtain ⟨probe, listed, stands⟩ := one.complete found present inNames
      exact ⟨probe, List.mem_append_left _ listed, stands⟩
    · obtain ⟨probe, listed, stands⟩ := two.complete found present inOthers
      exact ⟨probe, List.mem_append_right _ listed, stands⟩

def Unknown (live : List Framework.Probe) (probe : NamedProbe) : Prop :=
  ∀ found ∈ live, found.name ≠ probe.sysName

theorem resolveProbes_found {probes : List NamedProbe}
    (queryable : Queryable target connection.state.probes) (fetched : Fetched target connection)
    (known : ∀ probe ∈ probes, ¬Unknown connection.state.probes probe) :
    ∃ found next,
      (probes.map ProfileProbe.probe).mapM (Runtime.resolveProbe target) connection =
        (.ok found, next) ∧
      next.state = connection.state ∧
      Finds target connection.state.probes (probes.map NamedProbe.sysName) found.flatten := by
  induction probes generalizing connection with
  | nil =>
      refine ⟨[], connection, rfl, rfl, ?_, ?_⟩
      · intro probe listed
        cases listed
      · intro found _ name
        cases name
  | cons probe probes ih =>
      have there := known probe List.mem_cons_self
      simp only [Unknown, not_forall, not_not, exists_prop] at there
      obtain ⟨first, middle, resolved, kept, still, finds⟩ :=
        resolveProbe_found queryable fetched there
      rw [← kept] at queryable known finds ⊢
      obtain ⟨rest, next, later, last, findsRest⟩ := ih queryable still
        fun other listed => known other (List.mem_cons_of_mem probe listed)
      refine ⟨first :: rest, next, ?_, last, finds.append findsRest⟩
      rw [List.map_cons, List.mapM_cons, bind_of_ok resolved, bind_of_ok later]
      rfl

theorem resolveProbes_missing {probes : List NamedProbe}
    (queryable : Queryable target connection.state.probes) (fetched : Fetched target connection)
    (missing : ∃ probe ∈ probes, Unknown connection.state.probes probe) :
    ∃ failure next,
      (probes.map ProfileProbe.probe).mapM (Runtime.resolveProbe target) connection =
        (.error failure, next) ∧ next.state = connection.state := by
  induction probes generalizing connection with
  | nil =>
      obtain ⟨probe, listed, -⟩ := missing
      cases listed
  | cons probe probes ih =>
      rw [List.map_cons, List.mapM_cons]
      by_cases unknown : Unknown connection.state.probes probe
      · obtain ⟨failure, next, raised, kept⟩ := resolveProbe_missing queryable fetched unknown
        exact ⟨failure, next, bind_of_error raised, kept⟩
      · have there := unknown
        simp only [Unknown, not_forall, not_not, exists_prop] at there
        obtain ⟨first, middle, resolved, kept, still, -⟩ :=
          resolveProbe_found queryable fetched there
        rw [← kept] at queryable missing unknown ⊢
        have later : ∃ other ∈ probes, Unknown middle.state.probes other := by
          obtain ⟨other, listed, nobody⟩ := missing
          rcases List.mem_cons.mp listed with rfl | inRest
          · exact absurd nobody unknown
          · exact ⟨other, inRest, nobody⟩
        obtain ⟨failure, next, raised, last⟩ := ih queryable still later
        refine ⟨failure, next, ?_, last⟩
        rw [bind_of_ok resolved, bind_of_error raised]

/-- The probe stands where the command for a probe with one of the names looks for it. -/
def Reached (target : Target) (live : List Framework.Probe) (names : List (List Char))
    (probe : Framework.Probe) : Prop :=
  ∃ found ∈ live, found.name ∈ names ∧ fileName target found <:+: probe.file ∧
    probe.line = found.line

instance (target : Target) (live : List Framework.Probe) (names : List (List Char))
    (probe : Framework.Probe) : Decidable (Reached target live names probe) :=
  inferInstanceAs (Decidable (∃ found ∈ live, _ ∧ _ ∧ _))

theorem Finds.reach_eq {live : List Framework.Probe} {names : List (List Char)}
    {anchoredProbes : List AnchoredProbe} (finds : Finds target live names anchoredProbes)
    (queryable : Queryable target live) (probe : Framework.Probe) :
    reach anchoredProbes probe =
      if Reached target live names probe then probe.activate else probe := by
  have same : (anchoredProbes.map keyOf).any probe.match = true ↔
      Reached target live names probe := by
    simp only [List.any_map, List.any_eq_true, Function.comp_apply]
    constructor
    · rintro ⟨anchoredProbe, sent, hit⟩
      obtain ⟨found, present, name, stands⟩ := finds.sound anchoredProbe sent
      exact ⟨found, present, name, (match_keyOf_iff stands queryable present probe).mp hit⟩
    · rintro ⟨found, present, name, inside⟩
      obtain ⟨anchoredProbe, sent, stands⟩ := finds.complete found present name
      exact ⟨anchoredProbe, sent, (match_keyOf_iff stands queryable present probe).mpr inside⟩
  rw [reach]
  exact if_congr same rfl rfl

structure EnablesByName (target : Target) (state : State) (names : List (List Char))
    (outcome : Except ProbeFailure Unit × Connection) : Prop where
  succeeds_iff : outcome.1 = .ok () ↔ ∀ name ∈ names,
    (∃ live ∈ state.probes, live.name = name) ∧
      ∀ live ∈ state.probes, live.name = name → Activatable live
  active : outcome.1 = .ok () → ∀ live ∈ outcome.2.state.probes, live.name ∈ names →
    live.active = true
  effect : (∀ name ∈ names, ∃ live ∈ state.probes, live.name = name) →
    outcome.2.state.probes = state.probes.map fun probe =>
      if Reached target state.probes names probe then probe.activate else probe
  unknown : (∃ name ∈ names, ∀ live ∈ state.probes, live.name ≠ name) → outcome.2.state = state

theorem StandsAt.together {first second : Framework.Probe} {anchoredProbe : AnchoredProbe}
    (one : StandsAt target anchoredProbe first) (other : StandsAt target anchoredProbe second) :
    SamePlace target first second := by
  refine ⟨?_, ?_⟩
  · rw [fileName, fileName, ← one.1, ← other.1]
  · exact UInt32.toNat_inj.mp (Int.ofNat_inj.mp (one.2.symm.trans other.2))

theorem Finds.activatable_iff {live : List Framework.Probe} {names : List (List Char)}
    {anchoredProbes : List AnchoredProbe} (finds : Finds target live names anchoredProbes)
    (uniform : Uniform target live) :
    (∀ probe ∈ anchoredProbes, ∀ found ∈ live, StandsAt target probe found → Activatable found) ↔
      ∀ found ∈ live, found.name ∈ names → Activatable found := by
  constructor
  · intro all found present name
    obtain ⟨probe, sent, stands⟩ := finds.complete found present name
    exact all probe sent found present stands
  · intro all probe sent other present stands
    obtain ⟨found, inside, name, here⟩ := finds.sound probe sent
    exact (uniform found inside other present (here.together stands)).mp (all found inside name)

theorem enables_by_name {state : State} (queryable : Queryable target state.probes)
    (uniform : Uniform target state.probes) (probes : List NamedProbe) :
    EnablesByName target state (probes.map NamedProbe.sysName)
      (Runtime.activate target (probes.map .probe) ⟨state, none⟩) := by
  by_cases missing : ∃ probe ∈ probes, Unknown state.probes probe
  · obtain ⟨failure, next, raised, kept⟩ :=
      @resolveProbes_missing target ⟨state, none⟩ probes queryable (.inl rfl) missing
    have resolved : Runtime.resolveProbes target (probes.map .probe) ⟨state, none⟩ =
        (.error failure, next) := by
      rw [Runtime.resolveProbes, bind_of_error raised]
    rw [Runtime.activate, bind_of_error resolved]
    obtain ⟨probe, listed, nobody⟩ := missing
    have absent : ¬∃ live ∈ state.probes, live.name = probe.sysName := by
      rintro ⟨live, present, same⟩
      exact nobody live present same
    refine ⟨iff_of_false nofun ?_, nofun, ?_, fun _ => kept⟩
    · intro all
      exact absent (all _ (List.mem_map_of_mem listed)).1
    · intro all
      exact absurd (all _ (List.mem_map_of_mem listed)) absent
  · have known : ∀ probe ∈ probes, ¬Unknown state.probes probe :=
      fun probe listed nobody => missing ⟨probe, listed, nobody⟩
    have there : ∀ name ∈ probes.map NamedProbe.sysName, ∃ live ∈ state.probes,
        live.name = name := by
      rw [List.forall_mem_map]
      intro probe listed
      simpa [Unknown] using known probe listed
    obtain ⟨lists, next, found, kept, finds⟩ :=
      @resolveProbes_found target ⟨state, none⟩ probes queryable (.inl rfl) known
    have resolved : Runtime.resolveProbes target (probes.map .probe) ⟨state, none⟩ =
        (.ok lists.flatten, next) := by
      rw [Runtime.resolveProbes, bind_of_ok found]
      rfl
    obtain rfl : next.state = state := kept
    obtain ⟨result, after, enabled, set, ends⟩ := enableProbes_spec queryable uniform
      (fun probe sent => (finds.sound probe sent).imp fun live facts => ⟨facts.1, facts.2.2⟩)
    rw [finds.activatable_iff uniform] at ends
    rw [Runtime.activate, bind_of_ok resolved, enabled]
    refine ⟨?_, ?_, ?_, ?_⟩
    · dsimp only
      rw [ends]
      constructor
      · intro all name listed
        refine ⟨there name listed, ?_⟩
        rintro live present rfl
        exact all live present listed
      · intro all live present listed
        exact (all live.name listed).2 live present rfl
    · intro done
      dsimp only
      rw [set, List.forall_mem_map]
      intro live present listed
      rw [(reach_keeps _ live).1] at listed
      have reached : Reached target next.state.probes (probes.map NamedProbe.sysName) live :=
        ⟨live, present, listed, fileName_within target live, rfl⟩
      rw [finds.reach_eq queryable, if_pos reached, activate_active_iff]
      exact ends.mp done live present listed
    · intro _
      dsimp only
      rw [set]
      exact List.map_congr_left fun probe _ => finds.reach_eq queryable probe
    · rintro ⟨name, listed, nobody⟩
      obtain ⟨live, present, same⟩ := there name listed
      exact absurd same (nobody live present)

/-- Two call sites of one line, as of an inlined function; the second can be patched. -/
def inlinedState (patchable : Bool) : State :=
  State.new [⟨"Fill".toList, "/ws/order.C".toList, 20, patchable, false⟩,
    ⟨"Fill".toList, "/ws/order.C".toList, 20, true, false⟩]

def inlinedTarget : Target where
  environment := Framework.willing
  sites := [⟨0x601000, 0x400500, 0x400505, "fill()".toList, 0x20, 0⟩,
    ⟨0x602000, 0x400600, 0x400605, "fill()".toList, 0x20, 1⟩]
  workspace := some "/ws".toList

def fill : NamedProbe := ⟨"fill".toList, "Fill".toList, List.cons_ne_nil _ _⟩

theorem queryable_inlined (patchable : Bool) :
    Queryable inlinedTarget (inlinedState patchable).probes where
  sized := rfl
  distinct := by decide
  nonNull := by decide
  functions := by simp [inlinedTarget, IsAscii]
  texts := by simp [inlinedState, State.new, IsAscii]
  solid := by
    have name : basename (trimWorkspace "/ws/order.C".toList (some "/ws".toList)) =
        "order.C".toList := by decide
    intro probe listed
    have file : probe.file = "/ws/order.C".toList := by
      simp only [inlinedState, State.new, List.mem_cons, List.not_mem_nil, or_false] at listed
      rcases listed with rfl | rfl
      · rfl
      · rfl
    rw [fileName, file, inlinedTarget, name]
    exact ⟨List.cons_ne_nil _ _, Framework.noBlank_of_all rfl⟩
  placed := by simp [inlinedState, State.new]

theorem enables_by_name_inlined :
    EnablesByName inlinedTarget (inlinedState true) ["Fill".toList]
      (Runtime.activate inlinedTarget [.probe fill] ⟨inlinedState true, none⟩) := by
  refine enables_by_name (queryable_inlined true) ?_ [fill]
  simp [Uniform, inlinedState, State.new, Activatable]

def fillEntry : AnchoredProbe :=
  entryOf (some "/ws".toList) (Site.listed ⟨0x601000, 0x400500, 0x400505, "fill()".toList, 0x20, 0⟩
    ⟨"Fill".toList, "/ws/order.C".toList, 20, false, false⟩)

/-- If the first one cannot be patched, this goes unnoticed, as the second one is active. -/
theorem unpatched_unnoticed : ∃ outcome,
    Runtime.enableProbes inlinedTarget [fillEntry] ⟨inlinedState false, none⟩ = outcome ∧
      outcome.1 = .ok () ∧ ∃ live ∈ outcome.2.state.probes, live.active = false := by
  obtain ⟨result, after, run, set, ends⟩ :=
    @enableProbes_eq inlinedTarget [fillEntry] ⟨inlinedState false, none⟩ (queryable_inlined false)
      (List.cons_ne_nil _ _) (by
        intro probe sent
        rw [List.mem_singleton.mp sent]
        exact ⟨_, List.mem_cons_self, rfl, rfl⟩)
  have changed : after.probes = [⟨"Fill".toList, "/ws/order.C".toList, 20, false, false⟩,
      ⟨"Fill".toList, "/ws/order.C".toList, 20, true, true⟩] := by
    rw [set]
    decide +kernel
  refine ⟨_, run, ?_, ⟨_, by rw [changed]; exact List.mem_cons_self, rfl⟩⟩
  rw [ends, List.forall_mem_singleton]
  have listed : liveProbes inlinedTarget after = liveProbes inlinedTarget
      (State.new [⟨"Fill".toList, "/ws/order.C".toList, 20, false, false⟩,
        ⟨"Fill".toList, "/ws/order.C".toList, 20, true, true⟩]) := by
    rw [liveProbes, listing, changed]
    rfl
  rw [listed]
  decide +kernel

end Names

end Xpedite.Enabling
