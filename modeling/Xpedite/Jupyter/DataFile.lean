import Xpedite.Jupyter.DataFileCore
import Xpedite.Lib.Fallible

/-!
What can be read back from a data file.  A `str` stops the commit, since the file is open in binary
mode; all else is found where the table says, however the lookups are ordered.
-/

namespace Xpedite.Jupyter

open Lib

section Commit

variable {Key Obj : Type}

def entriesFrom (objects : Pickle Obj) : Nat → DataTable Key Obj → Layout Key
  | _, [] => []
  | offset, (key, record) :: rest =>
      (key,
        { offset := offset, isMarshalled := isMarshalled record.data,
          size := (binData objects record.data).size }) ::
        entriesFrom objects (offset + (binData objects record.data).size) rest

def payload : BinData → List UInt8
  | .bytes value => value
  | .text _ => []

def body (objects : Pickle Obj) (dataTable : DataTable Key Obj) : List UInt8 :=
  dataTable.flatMap fun entry => payload (binData objects entry.2.data)

def AllObjects (dataTable : DataTable Key Obj) : Prop :=
  ∀ entry ∈ dataTable, ∃ value, entry.2.data = .object value

theorem foldlM_writeData_eq_ok_iff {objects : Pickle Obj} {dataTable : DataTable Key Obj}
    {start contents : List UInt8} :
    dataTable.foldlM (fun contents entry =>
        (writeData contents (binData objects entry.2.data) :
          Except (DataFileError Key) (List UInt8))) start = .ok contents ↔
      AllObjects dataTable ∧ contents = start ++ body objects dataTable := by
  induction dataTable generalizing start with
  | nil =>
      rw [List.foldlM_nil, body, List.flatMap_nil, List.append_nil]
      constructor
      · intro done
        exact ⟨List.forall_mem_nil _, (Except.ok.inj done).symm⟩
      · rintro ⟨_, rfl⟩
        rfl
  | cons entry rest ih =>
      rw [List.foldlM_cons, AllObjects, List.forall_mem_cons, ← AllObjects, body, List.flatMap_cons,
        ← body]
      cases stored : entry.2.data with
      | text value =>
          constructor
          · intro done
            cases done
          · rintro ⟨⟨⟨value, object⟩, _⟩, _⟩
            cases object
      | object value =>
          have written : (writeData start (binData objects (.object value)) :
              Except (DataFileError Key) (List UInt8)) = .ok (start ++ objects.dumps value) := rfl
          rw [bind_of_eq_ok written, ih, List.append_assoc]
          constructor
          · rintro ⟨others, same⟩
            exact ⟨⟨⟨value, rfl⟩, others⟩, same⟩
          · rintro ⟨⟨_, others⟩, same⟩
            exact ⟨others, same⟩

variable [DecidableEq Key]

theorem foldl_addEntry {objects : Pickle Obj} {dataTable : DataTable Key Obj} {front : Layout Key}
    (distinct : (OrderedDict.keys front ++ OrderedDict.keys dataTable).Nodup) (offset : Nat) :
    (dataTable.foldl (addEntry objects) (offset, front)).2 =
      front ++ entriesFrom objects offset dataTable := by
  induction dataTable generalizing offset front with
  | nil => rw [List.foldl_nil, entriesFrom, List.append_nil]
  | cons entry rest ih =>
      obtain ⟨key, record⟩ := entry
      have absent : key ∉ OrderedDict.keys front := fun present =>
        (List.nodup_append.mp distinct).2.2 key present key List.mem_cons_self rfl
      rw [List.foldl_cons, addEntry, OrderedDict.update_of_not_mem _ absent, ih, entriesFrom,
        List.append_assoc, List.singleton_append]
      rw [OrderedDict.keys, List.map_append, List.append_assoc]
      exact distinct

theorem layoutOf_eq {objects : Pickle Obj} {dataTable : DataTable Key Obj}
    (distinct : (OrderedDict.keys dataTable).Nodup) :
    layoutOf objects dataTable = entriesFrom objects 0 dataTable := by
  rw [layoutOf, foldl_addEntry, List.nil_append]
  exact distinct

theorem commit_eq_ok_iff {objects : Pickle Obj} {layouts : Pickle (Layout Key)}
    {dataTable : DataTable Key Obj} {contents : List UInt8} :
    commit objects layouts dataTable = .ok contents ↔
      AllObjects dataTable ∧ (layouts.dumps (layoutOf objects dataTable)).length < 2 ^ 31 ∧
        contents = bytesOf 4 (layouts.dumps (layoutOf objects dataTable)).length ++ bytesOf 4 0 ++
          layouts.dumps (layoutOf objects dataTable) ++ body objects dataTable := by
  rw [commit]
  by_cases small : (layouts.dumps (layoutOf objects dataTable)).length < 2 ^ 31
  · have packed : (packInto (layouts.dumps (layoutOf objects dataTable)).length :
        Except (DataFileError Key) (List UInt8)) = .ok _ := if_pos small
    rw [bind_of_eq_ok packed, foldlM_writeData_eq_ok_iff]
    exact and_congr_right fun _ => (and_iff_right small).symm
  · have refused : (packInto (layouts.dumps (layoutOf objects dataTable)).length :
        Except (DataFileError Key) (List UInt8)) = .error .badStruct := if_neg small
    rw [refused]
    constructor
    · intro done
      cases done
    · rintro ⟨_, fits, _⟩
      exact absurd fits small

theorem exists_place {objects : Pickle Obj} {dataTable : DataTable Key Obj}
    (distinct : (OrderedDict.keys dataTable).Nodup) (allObjects : AllObjects dataTable)
    {key : Key} {record : Record Key Obj} (listed : (key, record) ∈ dataTable) {value : Obj}
    (stored : record.data = .object value) (offset : Nat) :
    ∃ before after, body objects dataTable = before ++ objects.dumps value ++ after ∧
      OrderedDict.get key (entriesFrom objects offset dataTable) =
        some
          { offset := offset + before.length, isMarshalled := true,
            size := (objects.dumps value).length } := by
  induction dataTable generalizing offset with
  | nil => cases listed
  | cons entry rest ih =>
      obtain ⟨other, first⟩ := entry
      rw [OrderedDict.keys, List.map_cons, List.nodup_cons] at distinct
      rw [AllObjects, List.forall_mem_cons] at allObjects
      rcases List.mem_cons.mp listed with same | later
      · obtain ⟨rfl, rfl⟩ := Prod.mk.inj same
        refine ⟨[], body objects rest, ?_, ?_⟩
        · rw [body, List.flatMap_cons, ← body, stored]
          rfl
        · rw [entriesFrom, OrderedDict.get, if_pos rfl, stored]
          rfl
      · obtain ⟨⟨front, object⟩, others⟩ := allObjects
        have differ : other ≠ key := by
          rintro rfl
          exact distinct.1 (List.mem_map.mpr ⟨_, later, rfl⟩)
        obtain ⟨before, after, split, found⟩ := ih distinct.2 others later
          (offset + (objects.dumps front).length)
        refine ⟨objects.dumps front ++ before, after, ?_, ?_⟩
        · rw [body, List.flatMap_cons, ← body, split, object]
          simp only [binData, payload, List.append_assoc]
        · rw [entriesFrom, OrderedDict.get, if_neg differ]
          dsimp only at object
          rw [object, binData, BinData.size, found, List.length_append, Int.natCast_add,
            Int.natCast_add, Int.add_assoc]

end Commit

section Lookup

variable {Key Obj : Type}

theorem unpackFrom_packed {size : Nat} (small : size < 2 ^ 31) :
    (unpackFrom (bytesOf 4 size ++ bytesOf 4 0) : Except (DataFileError Key) Int) = .ok size := by
  have enough : ¬(bytesOf 4 size ++ bytesOf 4 0).length < 4 := by simp
  have number : numberOf ((bytesOf 4 size ++ bytesOf 4 0).take 4) = size := by
    rw [List.take_left' (length_bytesOf 4 size), numberOf_bytesOf, Nat.mod_eq_of_lt (by omega)]
  rw [unpackFrom, if_neg enough, number]
  exact congrArg Except.ok (if_pos small)

theorem read_between {before middle after : List UInt8} {position : Nat}
    (start : position = before.length) :
    (BinFile.read middle.length ⟨before ++ middle ++ after, position⟩).1 = middle := by
  have forward : ¬(middle.length : Int) < 0 := by omega
  rw [BinFile.read, if_neg forward, Int.toNat_natCast, start, List.append_assoc, List.drop_left,
    List.take_left]

structure Reads (reader : XpediteDataReader Key) (header table records : List UInt8)
    (layout : Layout Key) : Prop where
  contents : reader.binFile.contents = header ++ table ++ records
  shifted : reader.layout = layout.map fun entry => (entry.1, entry.2.shift (table.length + 8))
  headed : header.length = 8

theorem exists_loadLayout {layouts : Pickle (Layout Key)} {layout : Layout Key} {records : List UInt8}
    (kept : layouts.RoundTrips layout) (small : (layouts.dumps layout).length < 2 ^ 31) :
    ∃ reader, loadLayout layouts
        ⟨bytesOf 4 (layouts.dumps layout).length ++ bytesOf 4 0 ++ layouts.dumps layout ++ records,
          0⟩ = .ok reader ∧
      Reads reader (bytesOf 4 (layouts.dumps layout).length ++ bytesOf 4 0) (layouts.dumps layout)
        records layout := by
  let table := layouts.dumps layout
  let header := bytesOf 4 table.length ++ bytesOf 4 0
  have headed : header.length = 8 := by simp [header]
  have start : (BinFile.read 8 ⟨header ++ table ++ records, 0⟩).1 = header := by
    have whole := @read_between [] header (table ++ records) 0 rfl
    rwa [headed, List.nil_append, ← List.append_assoc] at whole
  have rest : (BinFile.read table.length ⟨header ++ table ++ records, 8⟩).1 = table :=
    read_between headed.symm
  have sought : ((BinFile.read 8 ⟨header ++ table ++ records, 0⟩).2.seek 8 :
      Except (DataFileError Key) BinFile) = .ok ⟨header ++ table ++ records, 8⟩ := rfl
  have unpickled : layouts.loads table = some layout := kept
  refine ⟨
    { binFile := (BinFile.read table.length ⟨header ++ table ++ records, 8⟩).2
      layout := layout.map fun entry => (entry.1, entry.2.shift (table.length + 8)) }, ?_, ?_⟩
  · rw [loadLayout]
    dsimp only
    rw [start, bind_of_eq_ok (unpackFrom_packed small), bind_of_eq_ok sought, rest, unpickled]
    rfl
  · exact ⟨rfl, rfl, headed⟩

variable [DecidableEq Key]

theorem getData_of_place {objects : Pickle Obj} {reader : XpediteDataReader Key}
    {header table before after : List UInt8} {layout : Layout Key} {key : Key} {value : Obj}
    (reads : Reads reader header table (before ++ objects.dumps value ++ after) layout)
    (kept : objects.RoundTrips value)
    (found : OrderedDict.get key layout =
      some
        { offset := before.length, isMarshalled := true, size := (objects.dumps value).length }) :
    ∃ next, getData objects key reader = .ok (.object value, next) ∧
      Reads next header table (before ++ objects.dumps value ++ after) layout := by
  have shifted : OrderedDict.get key reader.layout =
      some
        { offset := (before.length : Int) + (table.length + 8), isMarshalled := true,
          size := (objects.dumps value).length } := by
    rw [reads.shifted, OrderedDict.get_map, found]
    rfl
  let offset := before.length + (table.length + 8)
  have sought : (reader.binFile.seek ((before.length : Int) + (table.length + 8)) :
      Except (DataFileError Key) BinFile) = .ok ⟨reader.binFile.contents, offset⟩ := by
    have sum : ((before.length : Int) + (table.length + 8)).toNat = offset := by omega
    rw [BinFile.seek, if_neg (by omega), sum]
  have there : (BinFile.read (objects.dumps value).length
      ⟨reader.binFile.contents, offset⟩).1 = objects.dumps value := by
    have place : offset = (header ++ table ++ before).length := by
      have headed := reads.headed
      simp only [offset, List.length_append, headed]
      omega
    have contents : reader.binFile.contents =
        header ++ table ++ before ++ objects.dumps value ++ after := by
      rw [reads.contents]
      simp only [List.append_assoc]
    rw [contents]
    exact read_between place
  refine ⟨{ reader with
      binFile := (BinFile.read (objects.dumps value).length
        ⟨reader.binFile.contents, offset⟩).2 }, ?_, ?_⟩
  · rw [getData, shifted]
    dsimp only
    rw [bind_of_eq_ok sought, if_pos rfl, there, kept]
    rfl
  · exact ⟨reads.contents, reads.shifted, reads.headed⟩

end Lookup

section RoundTrip

variable {Key Obj : Type}

def tableOf (records : List (Record Key Obj)) : DataTable Key Obj :=
  records.map fun record => (record.key, record)

theorem keys_tableOf (records : List (Record Key Obj)) :
    OrderedDict.keys (tableOf records) = records.map Record.key := by
  rw [OrderedDict.keys, tableOf, List.map_map]
  rfl

theorem mem_tableOf {records : List (Record Key Obj)} {record : Record Key Obj}
    (listed : record ∈ records) : (record.key, record) ∈ tableOf records :=
  List.mem_map_of_mem listed

variable [DecidableEq Key]

theorem foldlM_appendRecord {records : List (Record Key Obj)} {front : DataTable Key Obj}
    (distinct : (OrderedDict.keys front ++ records.map Record.key).Nodup) :
    records.foldlM appendRecord front = .ok (front ++ tableOf records) := by
  induction records generalizing front with
  | nil => exact congrArg Except.ok (List.append_nil front).symm
  | cons record records ih =>
      have absent : record.key ∉ OrderedDict.keys front := fun present =>
        (List.nodup_append.mp distinct).2.2 _ present _ List.mem_cons_self rfl
      have appended : appendRecord front record = .ok (front ++ [(record.key, record)]) := by
        rw [appendRecord, OrderedDict.get_of_not_mem absent, OrderedDict.update_of_not_mem _ absent]
      rw [List.foldlM_cons, bind_of_eq_ok appended, ih, List.append_assoc, List.singleton_append]
      · rfl
      · rw [OrderedDict.keys, List.map_append, List.append_assoc]
        exact distinct

def saveAll (objects : Pickle Obj) (layouts : Pickle (Layout Key)) (records : List (Record Key Obj)) :
    Except (DataFileError Key) (List UInt8) := do
  let dataTable ← records.foldlM appendRecord []
  commit objects layouts dataTable

def lookUpAll (objects : Pickle Obj) : List Key → XpediteDataReader Key →
    Except (DataFileError Key) (List (RecordData Obj))
  | [], _ => return []
  | targetKey :: targetKeys, reader => do
      let (recordData, reader) ← getData objects targetKey reader
      let others ← lookUpAll objects targetKeys reader
      return recordData :: others

def readAll (objects : Pickle Obj) (layouts : Pickle (Layout Key)) (contents : List UInt8)
    (targetKeys : List Key) : Except (DataFileError Key) (List (RecordData Obj)) := do
  let reader ← loadLayout layouts ⟨contents, 0⟩
  lookUpAll objects targetKeys reader

/-- Bytes never equal a text. -/
def SameData : Data Obj → RecordData Obj → Prop
  | .object value, .object found => found = value
  | _, _ => False

def Appended (records : List (Record Key Obj)) (key : Key) (recordData : RecordData Obj) : Prop :=
  ∃ record ∈ records, record.key = key ∧ SameData record.data recordData

theorem exists_lookUpAll {objects : Pickle Obj} {records : List (Record Key Obj)}
    (distinct : (records.map Record.key).Nodup) (allObjects : AllObjects (tableOf records))
    (kept : ∀ record ∈ records, ∀ value, record.data = .object value → objects.RoundTrips value)
    {targetKeys : List Key} (known : ∀ key ∈ targetKeys, key ∈ records.map Record.key)
    {reader : XpediteDataReader Key} {header table : List UInt8}
    (reads : Reads reader header table (body objects (tableOf records))
      (layoutOf objects (tableOf records))) :
    ∃ found, lookUpAll objects targetKeys reader = .ok found ∧
      List.Forall₂ (Appended records) targetKeys found := by
  induction targetKeys generalizing reader with
  | nil => exact ⟨[], rfl, .nil⟩
  | cons key targetKeys ih =>
      rw [List.forall_mem_cons] at known
      obtain ⟨record, listed, named⟩ := List.mem_map.mp known.1
      obtain ⟨value, stored⟩ := allObjects _ (mem_tableOf listed)
      have distinctTable : (OrderedDict.keys (tableOf records)).Nodup := by rwa [keys_tableOf]
      obtain ⟨before, after, split, place⟩ :=
        exists_place distinctTable allObjects (mem_tableOf listed) stored 0
      rw [← layoutOf_eq distinctTable, Int.natCast_zero, Int.zero_add, named] at place
      rw [split] at reads
      obtain ⟨next, got, again⟩ := getData_of_place reads (kept record listed value stored) place
      rw [← split] at again
      obtain ⟨found, rest, matched⟩ := ih known.2 again
      refine ⟨.object value :: found, ?_, .cons ⟨record, listed, named, ?_⟩ matched⟩
      · rw [lookUpAll, bind_of_eq_ok got]
        dsimp only
        rw [bind_of_eq_ok rest]
        rfl
      · rw [stored]
        rfl

/-- Everything can be read back, in every order, exactly where no datum is a `str` and the size of
the table fits into an `int`. -/
theorem saveAll_reads_back_iff {objects : Pickle Obj} {layouts : Pickle (Layout Key)}
    {records : List (Record Key Obj)} (distinct : (records.map Record.key).Nodup)
    (kept : ∀ record ∈ records, ∀ value, record.data = .object value → objects.RoundTrips value)
    (keptLayout : layouts.RoundTrips (layoutOf objects (tableOf records))) :
    (∃ contents, saveAll objects layouts records = .ok contents ∧
      ∀ targetKeys : List Key, (∀ key ∈ targetKeys, key ∈ records.map Record.key) →
        ∃ found, readAll objects layouts contents targetKeys = .ok found ∧
          List.Forall₂ (Appended records) targetKeys found) ↔
      (∀ record ∈ records, ∃ value, record.data = .object value) ∧
        (layouts.dumps (layoutOf objects (tableOf records))).length < 2 ^ 31 := by
  have tabled : records.foldlM appendRecord [] = .ok (tableOf records) :=
    foldlM_appendRecord distinct
  have allObjects_iff : AllObjects (tableOf records) ↔
      ∀ record ∈ records, ∃ value, record.data = .object value := List.forall_mem_map
  rw [saveAll, bind_of_eq_ok tabled, ← allObjects_iff]
  constructor
  · rintro ⟨contents, saved, _⟩
    obtain ⟨allObjects, small, _⟩ := commit_eq_ok_iff.mp saved
    exact ⟨allObjects, small⟩
  · rintro ⟨allObjects, small⟩
    refine ⟨_, commit_eq_ok_iff.mpr ⟨allObjects, small, rfl⟩, fun targetKeys known => ?_⟩
    obtain ⟨reader, loaded, reads⟩ := exists_loadLayout keptLayout small
    obtain ⟨found, looked, matched⟩ := exists_lookUpAll distinct allObjects kept known reads
    exact ⟨found, by rw [readAll, bind_of_eq_ok loaded, looked], matched⟩

end RoundTrip

section Samples

def smallNumbers : Pickle UInt8 where
  dumps value := [0x80, 5, 0x4B, value, 0x2E]
  loads
    | [0x80, 5, 0x4B, value, 0x2E] => some value
    | _ => none

def shortText (text : List Char) : List UInt8 :=
  [0x8C, UInt8.ofNat text.length] ++ text.map (fun char => UInt8.ofNat char.toNat) ++ [0x94]

/-- An entry after its key, the first that the pickle has. -/
def dumpsFirst (entry : LayoutEntry) : List UInt8 :=
  shortText "xpedite.jupyter.xpediteData".toList ++ shortText "LayoutEntry".toList ++
    [0x93, 0x94, 0x29, 0x81, 0x94, 0x7D, 0x94, 0x28] ++
    shortText "offset".toList ++ [0x4B, UInt8.ofNat entry.offset.toNat] ++
    shortText "isMarshalled".toList ++ [if entry.isMarshalled then 0x88 else 0x89] ++
    shortText "size".toList ++ [0x4B, UInt8.ofNat entry.size.toNat, 0x75, 0x62]

/-- A later one, with the class and the names of the fields as they have been remembered. -/
def dumpsLater (entry : LayoutEntry) : List UInt8 :=
  [0x68, 4, 0x29, 0x81, 0x94, 0x7D, 0x94, 0x28, 0x68, 7, 0x4B, UInt8.ofNat entry.offset.toNat,
    0x68, 8, if entry.isMarshalled then 0x88 else 0x89, 0x68, 9, 0x4B,
    UInt8.ofNat entry.size.toNat, 0x75, 0x62]

/-- The pickle of a table with one small entry or two. -/
def dumpsTable : Layout Char → List UInt8
  | [(key, entry)] =>
      [0x80, 5, 0x95, 98, 0, 0, 0, 0, 0, 0, 0, 0x7D, 0x94] ++ shortText [key] ++
        dumpsFirst entry ++ [0x73, 0x2E]
  | [(key, entry), (second, later)] =>
      [0x80, 5, 0x95, 124, 0, 0, 0, 0, 0, 0, 0, 0x7D, 0x94, 0x28] ++ shortText [key] ++
        dumpsFirst entry ++ shortText [second] ++ dumpsLater later ++ [0x75, 0x2E]
  | _ => []

def loadsEntry (bytes : List UInt8) (key offset isMarshalled size : Nat) :
    Option (Char × LayoutEntry) := do
  let key : UInt8 ← bytes[key]?
  let offset : UInt8 ← bytes[offset]?
  let flag : UInt8 ← bytes[isMarshalled]?
  let size : UInt8 ← bytes[size]?
  return (Char.ofNat key.toNat,
    { offset := offset.toNat, isMarshalled := flag == 0x88, size := size.toNat })

def layoutPickle : Pickle (Layout Char) where
  dumps := dumpsTable
  loads bytes :=
    if bytes.length = 109 then (loadsEntry bytes 15 79 95 104).map fun entry => [entry]
    else do
      let entry ← loadsEntry bytes 16 80 96 105
      let later ← loadsEntry bytes 110 123 126 130
      return [entry, later]

def twoNumbers : List (Record Char UInt8) :=
  [{ key := 'a', description := [], data := .object 7 },
    { key := 'b', description := [], data := .object 9 }]

theorem saveAll_reads_back_twoNumbers :
    (∃ contents, saveAll smallNumbers layoutPickle twoNumbers = .ok contents ∧
      ∀ targetKeys : List Char, (∀ key ∈ targetKeys, key ∈ twoNumbers.map Record.key) →
        ∃ found, readAll smallNumbers layoutPickle contents targetKeys = .ok found ∧
          List.Forall₂ (Appended twoNumbers) targetKeys found) ↔
      (∀ record ∈ twoNumbers, ∃ value, record.data = .object value) ∧
        (layoutPickle.dumps (layoutOf smallNumbers (tableOf twoNumbers))).length < 2 ^ 31 :=
  saveAll_reads_back_iff (by decide) (fun _ _ _ _ => rfl)
    (by rw [Pickle.RoundTrips]; decide +kernel)

def oneText : List (Record Char UInt8) :=
  [{ key := 'a', description := [], data := .text ['x'] }]

/-- A `str` cannot be committed. -/
theorem saveAll_oneText :
    (oneText.map Record.key).Nodup ∧
      (∀ record ∈ oneText, ∀ value, record.data = .object value → smallNumbers.RoundTrips value) ∧
      layoutPickle.RoundTrips (layoutOf smallNumbers (tableOf oneText)) ∧
      ∀ contents, saveAll smallNumbers layoutPickle oneText ≠ .ok contents := by
  refine ⟨List.pairwise_singleton _ _, fun _ _ _ _ => rfl, ?_, fun contents saved => ?_⟩
  · rw [Pickle.RoundTrips]
    decide +kernel
  · have tabled : oneText.foldlM appendRecord [] = .ok (tableOf oneText) := rfl
    rw [saveAll, bind_of_eq_ok tabled] at saved
    obtain ⟨allObjects, _, _⟩ := commit_eq_ok_iff.mp saved
    obtain ⟨value, stored⟩ := allObjects _ (mem_tableOf List.mem_cons_self)
    cases stored

end Samples

end Xpedite.Jupyter
