import Xpedite.Lib.Memory
import Xpedite.Lib.OrderedDict

/-!
The data file of a report under Python 3: `XpediteDataFactory` and `XpediteDataReader` of
`xpedite/jupyter/xpediteData.py`.  `pickle` is a parameter, for the objects in the records and for
the table that tells where they are.
-/

namespace Xpedite.Jupyter

open Lib

inductive Data (Obj : Type) where
  | text (value : List Char)
  | object (value : Obj)

structure Record (Key Obj : Type) where
  key : Key
  description : List Char
  data : Data Obj

structure LayoutEntry where
  offset : Int
  isMarshalled : Bool
  size : Int
  deriving DecidableEq

def LayoutEntry.shift (distance : Int) (entry : LayoutEntry) : LayoutEntry :=
  { offset := entry.offset + distance, isMarshalled := entry.isMarshalled, size := entry.size }

abbrev Layout (Key : Type) : Type := OrderedDict Key LayoutEntry

structure Pickle (Value : Type) where
  dumps : Value → List UInt8
  loads : List UInt8 → Option Value

def Pickle.RoundTrips {Value : Type} (pickle : Pickle Value) (value : Value) : Prop :=
  pickle.loads (pickle.dumps value) = some value

inductive DataFileError (Key : Type) where
  | duplicateKey (key : Key)
  -- a text is written to a binary file
  | notBytes (text : List Char)
  -- `struct.error`
  | badStruct
  | unpicklable
  | negativeSeek
  | unknownKey (key : Key)

inductive BinData where
  | bytes (value : List UInt8)
  | text (value : List Char)

def BinData.size : BinData → Nat
  | .bytes value => value.length
  | .text value => value.length

/-- Four bytes for a native `int`, at the start of a buffer of eight. -/
def packInto {Key : Type} (size : Nat) : Except (DataFileError Key) (List UInt8) :=
  if size < 2 ^ 31 then .ok (bytesOf 4 size ++ bytesOf 4 0) else .error .badStruct

def unpackFrom {Key : Type} (buffer : List UInt8) : Except (DataFileError Key) Int :=
  if buffer.length < 4 then .error .badStruct
  else
    let number := numberOf (buffer.take 4)
    .ok (if number < 2 ^ 31 then number else number - 2 ^ 32)

section Factory

variable {Key Obj : Type} [DecidableEq Key]

abbrev DataTable (Key Obj : Type) : Type := OrderedDict Key (Record Key Obj)

def appendRecord (dataTable : DataTable Key Obj) (record : Record Key Obj) :
    Except (DataFileError Key) (DataTable Key Obj) :=
  match OrderedDict.get record.key dataTable with
  | some _ => .error (.duplicateKey record.key)
  | none => .ok (OrderedDict.update record.key record dataTable)

def isMarshalled : Data Obj → Bool
  | .text _ => false
  | .object _ => true

def binData (objects : Pickle Obj) : Data Obj → BinData
  | .text value => .text value
  | .object value => .bytes (objects.dumps value)

def addEntry (objects : Pickle Obj) (state : Nat × Layout Key) (entry : Key × Record Key Obj) :
    Nat × Layout Key :=
  let dataSize := (binData objects entry.2.data).size
  let layoutEntry : LayoutEntry :=
    { offset := state.1, isMarshalled := isMarshalled entry.2.data, size := dataSize }
  (state.1 + dataSize, OrderedDict.update entry.1 layoutEntry state.2)

def layoutOf (objects : Pickle Obj) (dataTable : DataTable Key Obj) : Layout Key :=
  (dataTable.foldl (addEntry objects) (0, [])).2

def writeData (contents : List UInt8) : BinData → Except (DataFileError Key) (List UInt8)
  | .bytes value => .ok (contents ++ value)
  | .text value => .error (.notBytes value)

def commit (objects : Pickle Obj) (layouts : Pickle (Layout Key)) (dataTable : DataTable Key Obj) :
    Except (DataFileError Key) (List UInt8) := do
  let pTable := layouts.dumps (layoutOf objects dataTable)
  let binBuffer ← packInto pTable.length
  dataTable.foldlM (fun contents entry => writeData contents (binData objects entry.2.data))
    (binBuffer ++ pTable)

end Factory

structure BinFile where
  contents : List UInt8
  position : Nat

namespace BinFile

def seek {Key : Type} (offset : Int) (file : BinFile) : Except (DataFileError Key) BinFile :=
  if offset < 0 then .error .negativeSeek else .ok { file with position := offset.toNat }

/-- A negative size stands for all the rest. -/
def read (size : Int) (file : BinFile) : List UInt8 × BinFile :=
  let rest := file.contents.drop file.position
  let data := if size < 0 then rest else rest.take size.toNat
  (data, { file with position := file.position + data.length })

end BinFile

structure XpediteDataReader (Key : Type) where
  binFile : BinFile
  layout : Layout Key

inductive RecordData (Obj : Type) where
  | object (value : Obj)
  | bytes (value : List UInt8)

section Reader

variable {Key Obj : Type} [DecidableEq Key]

def loadLayout (layouts : Pickle (Layout Key)) (binFile : BinFile) :
    Except (DataFileError Key) (XpediteDataReader Key) := do
  let (binBuffer, binFile) := binFile.read 8
  let tableSize ← unpackFrom binBuffer
  let binFile ← binFile.seek 8
  let (data, binFile) := binFile.read tableSize
  match layouts.loads data with
  | none => throw .unpicklable
  | some layout =>
      let layout := layout.map fun entry => (entry.1, entry.2.shift (tableSize + 8))
      return { binFile, layout }

def getData (objects : Pickle Obj) (targetKey : Key) (reader : XpediteDataReader Key) :
    Except (DataFileError Key) (RecordData Obj × XpediteDataReader Key) :=
  match OrderedDict.get targetKey reader.layout with
  | none => .error (.unknownKey targetKey)
  | some layoutEntry => do
      let binFile ← reader.binFile.seek layoutEntry.offset
      let (data, binFile) := binFile.read layoutEntry.size
      if layoutEntry.isMarshalled then
        match objects.loads data with
        | none => throw .unpicklable
        | some value => return (.object value, { reader with binFile })
      else return (.bytes data, { reader with binFile })

end Reader

end Xpedite.Jupyter
