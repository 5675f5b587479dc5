import Mathlib.Data.List.Forall2
import Mathlib.Data.List.Nodup
import Xpedite.Probes.ListingCore
import Xpedite.Samples.Csv

/-!
The list of probes read back.  A record is its fields joined by a delimiter that cannot stand
in any of them, so that splitting gives the fields, and looking them up the values.
-/

namespace Xpedite.Probes

open Lib Samples ProbeFactory

def pointerText (address : UInt64) : List Char :=
  if address.toNat = 0 then ['0'] else hexText address.toNat

def statusText (probe : Probe) : List Char :=
  if probe.isActive then "enabled".toList else "disabled".toList

def fieldsOf (probe : Probe) : Fields :=
  [("Id".toList, (Nat.toDigits 10 probe.id.toNat).leftpad 4 '0'),
    ("Probe".toList, pointerText probe.address),
    ("CallSite".toList, pointerText probe.rawCallSite),
    ("RecorderReturnSite".toList, pointerText probe.recorderReturnSite),
    ("Status".toList, statusText probe),
    ("Name".toList, probe.name),
    ("File".toList, probe.file),
    ("Line".toList, Nat.toDigits 10 probe.line.toNat),
    ("Function".toList, probe.func),
    ("Attributes".toList, probe.attr.toString)]

def fieldText (field : List Char × List Char) : List Char := field.1 ++ '=' :: field.2

def recordOf (probe : Probe) : List Char :=
  List.intercalate fieldDelimiter ((fieldsOf probe).map fieldText)

section Text

variable (text : List Char)

theorem put_eq (field : List Char) :
    OStream.put ⟨text, false, 0, ' '⟩ field = ⟨text ++ field, false, 0, ' '⟩ := by
  rw [OStream.put, List.leftpad, Nat.zero_sub, List.replicate_zero, List.nil_append]

theorem pointer_eq (address : UInt64) (hexadecimal : Bool) :
    OStream.pointer ⟨text, hexadecimal, 0, ' '⟩ address.toNat =
      ⟨text ++ pointerText address, hexadecimal, 0, ' '⟩ := by
  rw [OStream.pointer, OStream.put, List.leftpad, Nat.zero_sub, List.replicate_zero,
    List.nil_append]
  rfl

theorem logProbe_eq (probe : Probe) :
    logProbe ⟨text, false, 0, ' '⟩ probe none =
      ⟨text ++ (recordOf probe ++ ['\n']), false, 0, ' '⟩ := by
  have number : ∀ text value, OStream.number ⟨text, false, 0, ' '⟩ value =
      ⟨text ++ Nat.toDigits 10 value, false, 0, ' '⟩ := fun text value => put_eq text _
  have padded : ∀ text value,
      ((OStream.setw (OStream.setfill ⟨text, false, 0, ' '⟩ '0') 4).number value).setfill ' ' =
        ⟨text ++ (Nat.toDigits 10 value).leftpad 4 '0', false, 0, ' '⟩ := fun _ _ => rfl
  simp only [logProbe, put_eq, padded, pointer_eq, number, OStream.hex, OStream.dec, OStream.endl,
    recordOf, fieldsOf, fieldText, List.map_cons, List.map_nil, List.intercalate_cons_cons,
    List.intercalate_singleton, List.append_assoc, List.cons_append]
  rfl

theorem logProbes_eq (probes : List Probe) :
    logProbes probes = probes.flatMap fun probe => recordOf probe ++ ['\n'] := by
  have all : ∀ text : List Char,
      (probes.foldl (fun stream probe => logProbe stream probe none)
        ⟨text, false, 0, ' '⟩).text =
        text ++ probes.flatMap fun probe => recordOf probe ++ ['\n'] := by
    induction probes with
    | nil =>
        intro text
        rw [List.foldl_nil, List.flatMap_nil, List.append_nil]
    | cons probe probes ih =>
        intro text
        rw [List.foldl_cons, logProbe_eq, ih, List.flatMap_cons, List.append_assoc]
  exact all []

end Text

theorem mem_names {attr : CallSiteAttr} {name : List Char} (listed : name ∈ attr.names) :
    name ∈ ["canStoreData".toList, "canBeginTxn".toList, "canSuspendTxn".toList,
      "canResumeTxn".toList, "canEndTxn".toList] := by
  have single : ∀ (flag : Bool) (word : List Char),
      name ∈ (if flag then [word] else []) → name = word := by
    intro flag word member
    cases flag with
    | false => cases member
    | true => exact List.mem_singleton.mp member
  simp only [CallSiteAttr.names, List.mem_append] at listed
  simp only [List.mem_cons, List.not_mem_nil, or_false]
  rcases listed with (((store | begins) | suspends) | resumes) | ends
  · exact .inl (single _ _ store)
  · exact .inr (.inl (single _ _ begins))
  · exact .inr (.inr (.inl (single _ _ suspends)))
  · exact .inr (.inr (.inr (.inl (single _ _ resumes))))
  · exact .inr (.inr (.inr (.inr (single _ _ ends))))

theorem toString_solid (attr : CallSiteAttr) :
    ∀ char ∈ attr.toString, isSpace char = false ∧ char ≠ '|' := by
  have checked : ∀ name ∈ ["canStoreData".toList, "canBeginTxn".toList, "canSuspendTxn".toList,
      "canResumeTxn".toList, "canEndTxn".toList, "None".toList],
      name.all fun char => !isSpace char && char != '|' := by decide
  have words : ∀ name ∈ ["canStoreData".toList, "canBeginTxn".toList, "canSuspendTxn".toList,
      "canResumeTxn".toList, "canEndTxn".toList, "None".toList],
      ∀ char ∈ name, isSpace char = false ∧ char ≠ '|' := by
    intro name listed char member
    simpa using List.all_eq_true.mp (checked name listed) char member
  rw [CallSiteAttr.toString]
  split
  · exact words _ (by simp)
  · refine forall_mem_intercalate (List.forall_mem_singleton.mpr (by decide)) ?_
    intro name listed
    exact words name (List.mem_append_left ["None".toList] (mem_names listed))

theorem toString_ne_nil (attr : CallSiteAttr) : attr.toString ≠ [] := by
  have words : ∀ name ∈ ["canStoreData".toList, "canBeginTxn".toList, "canSuspendTxn".toList,
      "canResumeTxn".toList, "canEndTxn".toList], name ≠ [] := by decide
  rw [CallSiteAttr.toString]
  cases listed : attr.names with
  | nil => decide
  | cons first rest =>
      have nonempty := words first (mem_names (by rw [listed]; exact List.mem_cons_self))
      obtain ⟨back, joined⟩ := intercalate_cons_eq [','] first rest
      intro empty
      exact nonempty (List.append_eq_nil_iff.mp (joined.symm.trans empty)).1

/-- What a client has to know of a list of probes to get it back. -/
structure Listable (workspace : Option (List Char)) (probes : List Probe) : Prop where
  distinct : (probes.map Probe.recorderReturnSite).Nodup
  nonNull : ∀ probe ∈ probes, probe.recorderReturnSite ≠ 0
  clean : ∀ probe ∈ probes, ∀ text ∈ [probe.name, probe.file, probe.func],
    '\n' ∉ text ∧ '|' ∉ text
  located : ∀ probe ∈ probes, trimWorkspace probe.file workspace ≠ []

section Clean

variable {probe : Probe} (clean : ∀ text ∈ [probe.name, probe.file, probe.func],
  '\n' ∉ text ∧ '|' ∉ text)

theorem pointerText_clean {char : Char} (other : isDigitOf 16 char = false) (notMark : char ≠ 'x')
    (address : UInt64) : char ∉ pointerText address := by
  rw [pointerText]
  split
  · rw [List.mem_singleton]
    rintro rfl
    exact absurd other (by decide)
  · exact hexText_clean other notMark _

/-- What stands before the values in the fields of a record, and the sign between. -/
def fieldMarks : List (List Char) :=
  ["Id".toList, "Probe".toList, "CallSite".toList, "RecorderReturnSite".toList, "Status".toList,
    "Name".toList, "File".toList, "Line".toList, "Function".toList, "Attributes".toList, ['=']]

theorem fieldMarks_clean {char : Char} (special : char = '\n' ∨ char = '|') :
    ∀ mark ∈ fieldMarks, char ∉ mark := by
  rcases special with rfl | rfl
  · decide
  · decide

theorem fieldText_clean {char : Char} (special : char = '\n' ∨ char = '|') {key value : List Char}
    (listed : key ∈ fieldMarks) (absent : char ∉ value) : char ∉ fieldText (key, value) := by
  have marks := fieldMarks_clean special
  rw [fieldText, List.mem_append, List.mem_cons, not_or, not_or]
  have notSign : char ≠ '=' := fun sign =>
    marks ['='] (by simp [fieldMarks]) (List.mem_singleton.mpr sign)
  exact ⟨marks key listed, notSign, absent⟩

theorem digits_clean {char : Char} (special : char = '\n' ∨ char = '|') :
    isDigitOf 16 char = false ∧ isDigitOf 10 char = false ∧ char ≠ 'x' ∧ char ≠ '0' := by
  rcases special with rfl | rfl
  · decide
  · decide

theorem statusText_clean {char : Char} (special : char = '\n' ∨ char = '|') :
    char ∉ statusText probe := by
  rw [statusText]
  rcases special with rfl | rfl
  · split
    · decide
    · decide
  · split
    · decide
    · decide

theorem attr_clean {char : Char} (special : char = '\n' ∨ char = '|') :
    char ∉ probe.attr.toString := by
  intro member
  have solid := toString_solid probe.attr char member
  rcases special with rfl | rfl
  · exact absurd solid.1 (by decide)
  · exact solid.2 rfl

include clean

theorem field_clean {char : Char} (special : char = '\n' ∨ char = '|') :
    ∀ field ∈ (fieldsOf probe).map fieldText, char ∉ field := by
  obtain ⟨notHex, notDigit, notX, notZero⟩ := digits_clean special
  have texts : ∀ text ∈ [probe.name, probe.file, probe.func], char ∉ text := by
    intro text listed
    rcases special with rfl | rfl
    · exact (clean text listed).1
    · exact (clean text listed).2
  have number : ∀ value, char ∉ Nat.toDigits 10 value := fun value =>
    not_mem_of_all (toDigits_digits (by decide) (by decide) value) notDigit
  have id : char ∉ (Nat.toDigits 10 probe.id.toNat).leftpad 4 '0' := by
    rw [List.leftpad, List.mem_append, List.mem_replicate]
    rintro (⟨-, zero⟩ | digit)
    · exact notZero zero
    · exact number _ digit
  have pointer := pointerText_clean notHex notX
  intro field listed
  simp only [fieldsOf, List.map_cons, List.map_nil, List.mem_cons, List.not_mem_nil, or_false]
    at listed
  rcases listed with rfl | rfl | rfl | rfl | rfl | rfl | rfl | rfl | rfl | rfl
  · exact fieldText_clean special (by simp [fieldMarks]) id
  · exact fieldText_clean special (by simp [fieldMarks]) (pointer _)
  · exact fieldText_clean special (by simp [fieldMarks]) (pointer _)
  · exact fieldText_clean special (by simp [fieldMarks]) (pointer _)
  · exact fieldText_clean special (by simp [fieldMarks]) (statusText_clean special)
  · exact fieldText_clean special (by simp [fieldMarks]) (texts _ (by simp))
  · exact fieldText_clean special (by simp [fieldMarks]) (texts _ (by simp))
  · exact fieldText_clean special (by simp [fieldMarks]) (number _)
  · exact fieldText_clean special (by simp [fieldMarks]) (texts _ (by simp))
  · exact fieldText_clean special (by simp [fieldMarks]) (attr_clean special)

theorem recordOf_clean : '\n' ∉ recordOf probe := by
  have all : ∀ char ∈ recordOf probe, char ≠ '\n' := by
    refine forall_mem_intercalate ?_ ?_
    · rintro char member rfl
      exact absurd member (by decide)
    · rintro field listed char member rfl
      exact field_clean clean (.inl rfl) field listed member
  exact fun member => all _ member rfl

theorem split_recordOf :
    split fieldDelimiter (recordOf probe) = (fieldsOf probe).map fieldText := by
  have delimiter : fieldDelimiter = [' '] ++ '|' :: [' '] := rfl
  rw [recordOf, delimiter]
  refine split_intercalate (by decide) ?_ (field_clean clean (.inr rfl))
  exact List.cons_ne_nil _ _

end Clean

theorem head?_recordOf (probe : Probe) : (recordOf probe).head? = some 'I' := rfl

theorem getLast?_recordOf (probe : Probe) :
    ∀ char ∈ (recordOf probe).getLast?, isSpace char = false := by
  obtain ⟨front, joined⟩ := intercalate_concat_eq fieldDelimiter
    (fieldText ("Attributes".toList, probe.attr.toString))
    (((fieldsOf probe).dropLast).map fieldText)
  have whole : recordOf probe = front ++ fieldText ("Attributes".toList, probe.attr.toString) :=
    joined
  intro char member
  rw [whole, fieldText, List.append_cons, ← List.append_assoc,
    List.getLast?_append_of_ne_nil _ (toString_ne_nil probe.attr)] at member
  exact (toString_solid probe.attr char (List.mem_of_getLast? member)).1

section Records

variable {workspace : Option (List Char)} {probes : List Probe}

theorem flatMap_lines (first : Probe) (rest : List Probe) :
    ((first :: rest).flatMap fun probe => recordOf probe ++ ['\n']) =
      List.intercalate ['\n'] ((first :: rest).map recordOf) ++ ['\n'] := by
  induction rest generalizing first with
  | nil => rw [List.flatMap_cons, List.flatMap_nil, List.map_singleton,
      List.intercalate_singleton, List.append_nil]
  | cons next rest ih =>
      rw [List.flatMap_cons, ih next, List.map_cons, List.map_cons, List.map_cons,
        List.intercalate_cons_cons]
      simp only [List.append_assoc]

theorem recordsOf_logProbes (clean : ∀ probe ∈ probes,
    ∀ text ∈ [probe.name, probe.file, probe.func], '\n' ∉ text ∧ '|' ∉ text) :
    recordsOf (logProbes probes) = probes.map recordOf := by
  rw [logProbes_eq]
  cases probes with
  | nil => rfl
  | cons first rest =>
      obtain ⟨back, starts⟩ := intercalate_cons_eq ['\n'] (recordOf first) (rest.map recordOf)
      obtain ⟨last, listed, front, ends⟩ : ∃ last : Probe, last ∈ first :: rest ∧ ∃ front,
          List.intercalate ['\n'] ((first :: rest).map recordOf) = front ++ recordOf last := by
        obtain ⟨others, last, split⟩ := List.eq_nil_or_concat (first :: rest) |>.resolve_left
          (List.cons_ne_nil _ _)
        rw [List.concat_eq_append] at split
        refine ⟨last, ?_, ?_⟩
        · rw [split]
          exact List.mem_append_right _ List.mem_cons_self
        · rw [split, List.map_append]
          exact intercalate_concat_eq _ _ _
      have full : ∀ probe : Probe, recordOf probe ≠ [] := by
        intro probe empty
        have head := head?_recordOf probe
        rw [empty] at head
        cases head
      have stripped : strip (List.intercalate ['\n'] ((first :: rest).map recordOf) ++ ['\n']) =
          List.intercalate ['\n'] ((first :: rest).map recordOf) := by
        refine strip_of_ends ?_ ?_ ?_ (List.forall_mem_singleton.mpr (by decide))
        · rw [List.map_cons, starts]
          exact List.append_ne_nil_of_left_ne_nil (full first) _
        · intro char member
          rw [List.map_cons, starts, List.head?_append_of_ne_nil _ (full first),
            head?_recordOf] at member
          cases member
          decide
        · intro char member
          rw [ends, List.getLast?_append_of_ne_nil _ (full last)] at member
          exact getLast?_recordOf last char member
      rw [flatMap_lines, recordsOf, if_neg (List.append_ne_nil_of_right_ne_nil _ (by decide)),
        stripped]
      refine @split_intercalate '\n' [] [] (by decide) _ (List.cons_ne_nil _ _) ?_
      intro record member
      obtain ⟨probe, inside, rfl⟩ := List.mem_map.mp member
      exact recordOf_clean (clean probe inside)

end Records

theorem addField_fieldText (record : List Char) (fields : Fields) {key : List Char}
    (unsigned : '=' ∉ key) (value : List Char) :
    addField record fields (fieldText (key, value)) = .ok (fields.update key value) := by
  have none_ : key.findIdx (· = '=') = key.length := by
    rw [List.findIdx_eq_length]
    intro char member
    rw [decide_eq_false_iff_not]
    rintro rfl
    exact unsigned member
  have text : fieldText (key, value) = key ++ '=' :: value := rfl
  have index : (key ++ '=' :: value).findIdx (· = '=') = key.length := by
    rw [List.findIdx_append, none_, if_neg (Nat.lt_irrefl _), List.findIdx_cons,
      decide_eq_true rfl, cond_true, Nat.zero_add]
  have length : (key ++ '=' :: value).length = key.length + 1 + value.length := by
    rw [List.length_append, List.length_cons]
    omega
  rw [text, addField, index, if_neg (by omega), List.take_left, List.append_cons,
    List.drop_left' (by rw [List.length_append, List.length_singleton])]

theorem foldlM_addField (record : List Char) {entries : Fields}
    (unsigned : ∀ entry ∈ entries, '=' ∉ entry.1) (fields : Fields) :
    (entries.map fieldText).foldlM (addField record) fields =
      .ok (entries.foldl (fun fields entry => fields.update entry.1 entry.2) fields) := by
  induction entries generalizing fields with
  | nil => rfl
  | cons entry entries ih =>
      have added := addField_fieldText record fields
        (unsigned entry List.mem_cons_self) entry.2
      rw [List.map_cons, List.foldlM_cons, added, List.foldl_cons]
      exact ih (fun other listed => unsigned other (List.mem_cons_of_mem _ listed)) _

theorem parseFields_recordOf {probe : Probe} (clean : ∀ text ∈ [probe.name, probe.file, probe.func],
    '\n' ∉ text ∧ '|' ∉ text) : parseFields (recordOf probe) = .ok (fieldsOf probe) := by
  have keys : OrderedDict.keys (fieldsOf probe) = ["Id".toList, "Probe".toList, "CallSite".toList,
      "RecorderReturnSite".toList, "Status".toList, "Name".toList, "File".toList, "Line".toList,
      "Function".toList, "Attributes".toList] := rfl
  have unsigned : ∀ entry ∈ fieldsOf probe, '=' ∉ entry.1 := by
    have all : ∀ key ∈ OrderedDict.keys (fieldsOf probe), '=' ∉ key := by
      rw [keys]
      decide
    exact fun entry listed => all entry.1 (List.mem_map_of_mem listed)
  have distinct : (OrderedDict.keys ([] ++ fieldsOf probe)).Nodup := by
    rw [List.nil_append, keys]
    decide
  rw [parseFields, split_recordOf clean, foldlM_addField _ unsigned,
    OrderedDict.foldl_update_of_nodup distinct, List.nil_append]

def entryOf (workspace : Option (List Char)) (probe : Probe) : AnchoredProbe where
  name := probe.name
  sysName := probe.name
  filePath := trimWorkspace probe.file workspace
  lineNo := probe.line.toNat
  attributes := probe.attr.toString
  isAnonymous := false
  isActive := probe.attr.isActive
  canBeginTxn := probe.attr.canBeginTxn
  canSuspendTxn := probe.attr.canSuspendTxn
  canResumeTxn := probe.attr.canResumeTxn
  canEndTxn := probe.attr.canEndTxn
  canStoreData := if probe.attr.canStoreData then some true else none

theorem foldl_setAttr (attr : CallSiteAttr) {probe : AnchoredProbe}
    (store : probe.canStoreData = none) (begins : probe.canBeginTxn = false)
    (suspends : probe.canSuspendTxn = false) (resumes : probe.canResumeTxn = false)
    (ends : probe.canEndTxn = false) :
    attr.names.foldl AnchoredProbe.setAttr probe =
      { probe with
        canStoreData := if attr.canStoreData then some true else none
        canBeginTxn := attr.canBeginTxn
        canSuspendTxn := attr.canSuspendTxn
        canResumeTxn := attr.canResumeTxn
        canEndTxn := attr.canEndTxn } := by
  obtain ⟨name, sysName, filePath, lineNo, attributes, isAnonymous, isActive, _, _, _, _, _⟩ := probe
  cases store
  cases begins
  cases suspends
  cases resumes
  cases ends
  rw [CallSiteAttr.names, List.foldl_append, List.foldl_append, List.foldl_append,
    List.foldl_append]
  cases attr.canStoreData <;> cases attr.canBeginTxn <;> cases attr.canSuspendTxn <;>
    cases attr.canResumeTxn <;> cases attr.canEndTxn <;> rfl

theorem initAttributes_eq (attr : CallSiteAttr) {probe : AnchoredProbe}
    (attributes : probe.attributes = attr.toString) :
    probe.initAttributes = attr.names.foldl AnchoredProbe.setAttr probe := by
  have words : ∀ name ∈ ["canStoreData".toList, "canBeginTxn".toList, "canSuspendTxn".toList,
      "canResumeTxn".toList, "canEndTxn".toList], ',' ∉ name := by decide
  rw [AnchoredProbe.initAttributes, attributes, CallSiteAttr.toString]
  cases listed : attr.names with
  | nil => rfl
  | cons first rest =>
      refine congrArg (List.foldl AnchoredProbe.setAttr probe) ?_
      refine @split_intercalate ',' [] [] (by decide) _ (List.cons_ne_nil _ _) ?_
      intro name member
      exact words name (mem_names (by rw [listed]; exact member))

theorem new_eq {workspace : Option (List Char)} {probe : Probe}
    (located : trimWorkspace probe.file workspace ≠ []) :
    AnchoredProbe.new probe.name (trimWorkspace probe.file workspace)
        (Nat.toDigits 10 probe.line.toNat) probe.attr.toString
        (statusText probe = probeStatusEnabled) probe.name =
      .ok (entryOf workspace probe) := by
  have line := int_toDigits (show 1 < 10 by decide) (by decide) probe.line.toNat
    (List.forall_mem_nil fun char => (isSpace char : Prop))
  rw [List.append_nil] at line
  have status : decide (statusText probe = probeStatusEnabled) = probe.attr.isActive := by
    rw [statusText, Probe.isActive]
    cases probe.attr.isActive with
    | false => rfl
    | true => rfl
  have given : ¬(trimWorkspace probe.file workspace = [] ∨
      Nat.toDigits 10 probe.line.toNat = []) :=
    not_or.mpr ⟨located, Nat.toDigits_ne_nil⟩
  rw [AnchoredProbe.new, if_neg given, line]
  dsimp only
  rw [initAttributes_eq probe.attr rfl, foldl_setAttr probe.attr rfl rfl rfl rfl rfl, status]
  rfl

theorem addRecord_recordOf {workspace : Option (List Char)} {probe : Probe}
    (nonNull : probe.recorderReturnSite ≠ 0)
    (clean : ∀ text ∈ [probe.name, probe.file, probe.func], '\n' ∉ text ∧ '|' ∉ text)
    (located : trimWorkspace probe.file workspace ≠ []) (probes : AnchoredProbes) :
    addRecord workspace probes (recordOf probe) =
      .ok (probes.update (hexText probe.recorderReturnSite.toNat) (entryOf workspace probe)) := by
  have address : probe.recorderReturnSite.toNat ≠ 0 :=
    fun zero => nonNull (UInt64.toNat_inj.mp zero)
  have site : pointerText probe.recorderReturnSite = hexText probe.recorderReturnSite.toNat := by
    rw [pointerText, if_neg address]
  have added : addRecord workspace probes (recordOf probe) =
      (AnchoredProbe.new probe.name (trimWorkspace probe.file workspace)
        (Nat.toDigits 10 probe.line.toNat) probe.attr.toString
        (statusText probe = probeStatusEnabled) probe.name).map fun entry =>
          probes.update (pointerText probe.recorderReturnSite) entry := by
    rw [addRecord, parseFields_recordOf clean]
    rfl
  rw [added, new_eq located, site]
  rfl

def parsedOf (workspace : Option (List Char)) (probe : Probe) : List Char × AnchoredProbe :=
  (hexText probe.recorderReturnSite.toNat, entryOf workspace probe)

theorem keys_parsedOf_nodup {workspace : Option (List Char)} {probes : List Probe}
    (distinct : (probes.map Probe.recorderReturnSite).Nodup) :
    (OrderedDict.keys (probes.map (parsedOf workspace))).Nodup := by
  have keys : OrderedDict.keys (probes.map (parsedOf workspace)) =
      (probes.map Probe.recorderReturnSite).map fun site => hexText site.toNat := by
    rw [OrderedDict.keys, List.map_map, List.map_map]
    rfl
  rw [keys]
  refine distinct.map ?_
  intro first second same
  exact UInt64.toNat_inj.mp (toDigits_sixteen_injective (List.cons.inj (List.cons.inj same).2).2)

/-- All of the list comes back, apart from what `AnchoredProbe` has no attribute for. -/
theorem buildFromRecords_logProbes {workspace : Option (List Char)} {probes : List Probe}
    (listable : Listable workspace probes) :
    buildFromRecords workspace (recordsOf (logProbes probes)) =
      .ok (probes.map (parsedOf workspace)) := by
  have fold : ∀ (rest : List Probe) (dict : AnchoredProbes), (∀ probe ∈ rest, probe ∈ probes) →
      (rest.map recordOf).foldlM (addRecord workspace) dict =
        .ok ((rest.map (parsedOf workspace)).foldl
          (fun dict entry => dict.update entry.1 entry.2) dict) := by
    intro rest
    induction rest with
    | nil =>
        intro dict _
        rfl
    | cons probe rest ih =>
        intro dict inside
        have present := inside probe List.mem_cons_self
        rw [List.map_cons, List.foldlM_cons, addRecord_recordOf (listable.nonNull probe present)
          (listable.clean probe present) (listable.located probe present)]
        exact ih _ (fun other listed => inside other (List.mem_cons_of_mem _ listed))
  rw [recordsOf_logProbes listable.clean, buildFromRecords, fold probes [] (fun _ inside => inside),
    OrderedDict.foldl_update_of_nodup, List.nil_append]
  exact keys_parsedOf_nodup listable.distinct

structure SameProbe (workspace : Option (List Char)) (probe : Probe)
    (parsed : List Char × AnchoredProbe) : Prop where
  key : parsed.1 = hexText probe.recorderReturnSite.toNat
  name : parsed.2.name = probe.name
  filePath : parsed.2.filePath = trimWorkspace probe.file workspace
  lineNo : parsed.2.lineNo = probe.line.toNat
  isActive : parsed.2.isActive = probe.isActive
  canStoreData : parsed.2.canStoreData = some probe.attr.canStoreData
  canBeginTxn : parsed.2.canBeginTxn = probe.attr.canBeginTxn
  canSuspendTxn : parsed.2.canSuspendTxn = probe.attr.canSuspendTxn
  canResumeTxn : parsed.2.canResumeTxn = probe.attr.canResumeTxn
  canEndTxn : parsed.2.canEndTxn = probe.attr.canEndTxn

def RoundTrips (workspace : Option (List Char)) (probes : List Probe) : Prop :=
  ∃ parsed, buildFromRecords workspace (recordsOf (logProbes probes)) = .ok parsed ∧
    (OrderedDict.keys parsed).Nodup ∧ List.Forall₂ (SameProbe workspace) probes parsed

theorem sameProbe_iff (workspace : Option (List Char)) (probe : Probe) :
    SameProbe workspace probe (parsedOf workspace probe) ↔ probe.attr.canStoreData = true := by
  constructor
  · intro same
    have stored : (if probe.attr.canStoreData then some true else none) =
        some probe.attr.canStoreData := same.canStoreData
    cases flag : probe.attr.canStoreData with
    | false =>
        rw [flag] at stored
        cases stored
    | true => rfl
  · intro stores
    refine ⟨rfl, rfl, rfl, rfl, rfl, ?_, rfl, rfl, rfl, rfl⟩
    exact (if_pos stores).trans (congrArg some stores.symm)

/-- The flag of a probe that stores no data is not false for a client, but missing. -/
theorem roundTrips_iff {workspace : Option (List Char)} {probes : List Probe}
    (listable : Listable workspace probes) :
    RoundTrips workspace probes ↔ ∀ probe ∈ probes, probe.attr.canStoreData = true := by
  have all : List.Forall₂ (SameProbe workspace) probes (probes.map (parsedOf workspace)) ↔
      ∀ probe ∈ probes, probe.attr.canStoreData = true := by
    rw [List.forall₂_map_right_iff, List.forall₂_same]
    exact forall₂_congr fun probe _ => sameProbe_iff workspace probe
  rw [← all, RoundTrips, buildFromRecords_logProbes listable]
  constructor
  · rintro ⟨parsed, same, -, agree⟩
    cases same
    exact agree
  · intro agree
    exact ⟨_, rfl, keys_parsedOf_nodup listable.distinct, agree⟩

def orderProbe (attr : UInt32) : Probe where
  address := 0x601000
  rawCallSite := 0x400500
  recorderReturnSite := 0x400505
  name := "Order=New".toList
  file := "/ws/app/order.C".toList
  func := "void onOrder(int)".toList
  line := 42
  attr := ⟨attr⟩
  id := 7

theorem listable_orderProbe (attr : UInt32) :
    Listable (some "/ws".toList) [orderProbe attr] where
  distinct := List.nodup_singleton _
  nonNull := by
    intro probe listed
    rw [List.mem_singleton.mp listed]
    exact of_decide_eq_true rfl
  clean := by
    intro probe listed
    rw [List.mem_singleton.mp listed]
    have texts : ∀ text ∈ ["Order=New".toList, "/ws/app/order.C".toList,
        "void onOrder(int)".toList], '\n' ∉ text ∧ '|' ∉ text := by decide
    exact texts
  located := by
    intro probe listed
    rw [List.mem_singleton.mp listed]
    have located : trimWorkspace "/ws/app/order.C".toList (some "/ws".toList) ≠ [] := by decide
    exact located

def fillProbe : Probe :=
  { orderProbe 0x23 with
    address := 0x601040
    rawCallSite := 0x400600
    recorderReturnSite := 0x400605
    name := "OrderFill".toList
    line := 57
    id := 8 }

theorem listable_orderAndFill :
    Listable (some "/ws".toList) [orderProbe 0x23, fillProbe] where
  distinct := by decide
  nonNull := by
    intro probe listed
    rcases List.mem_cons.mp listed with rfl | last
    · exact of_decide_eq_true rfl
    · rw [List.mem_singleton.mp last]
      exact of_decide_eq_true rfl
  clean := by
    have texts : ∀ text ∈ ["OrderFill".toList, "/ws/app/order.C".toList,
        "void onOrder(int)".toList], '\n' ∉ text ∧ '|' ∉ text := by decide
    rw [List.forall_mem_cons]
    refine ⟨(listable_orderProbe 0x23).clean _ List.mem_cons_self, ?_⟩
    intro probe listed
    rw [List.mem_singleton.mp listed]
    exact texts
  located := by
    intro probe listed
    have located : trimWorkspace "/ws/app/order.C".toList (some "/ws".toList) ≠ [] := by decide
    rcases List.mem_cons.mp listed with rfl | last
    · exact located
    · rw [List.mem_singleton.mp last]
      exact located

theorem roundTrips_storing :
    RoundTrips (some "/ws".toList) [orderProbe 0x23, fillProbe] := by
  refine (roundTrips_iff listable_orderAndFill).mpr ?_
  intro probe listed
  rcases List.mem_cons.mp listed with rfl | last
  · decide
  · rw [List.mem_singleton.mp last]
    decide

/-- The probe is listed as it is, but for the attribute that says whether it stores data. -/
theorem roundTrips_fails_without_data :
    (buildFromRecords (some "/ws".toList) (recordsOf (logProbes [orderProbe 0x3])) =
      .ok [("0x400505".toList, entryOf (some "/ws".toList) (orderProbe 0x3))]) ∧
      (orderProbe 0x3).attr.canStoreData = false ∧
      (entryOf (some "/ws".toList) (orderProbe 0x3)).canStoreData = none ∧
      Listable (some "/ws".toList) [orderProbe 0x3] ∧
      ¬RoundTrips (some "/ws".toList) [orderProbe 0x3] := by
  have key : hexText (orderProbe 0x3).recorderReturnSite.toNat = "0x400505".toList := by decide
  have built := buildFromRecords_logProbes (listable_orderProbe 0x3)
  refine ⟨?_, by decide, by decide, listable_orderProbe 0x3, ?_⟩
  · rw [built, List.map_singleton, parsedOf, key]
  · rintro ⟨parsed, same, -, agree⟩
    cases built.symm.trans same
    cases agree with
    | cons first _ => exact absurd first.canStoreData (by decide)

end Xpedite.Probes
