import Mathlib.Algebra.Group.Int.Defs
import Mathlib.Algebra.Group.Nat.Defs
import Mathlib.Data.List.Basic

/-!
Byte-addressed memory and little-endian numbers in it.  `Holds` says which bytes
stand at an address; it splits along appended byte strings, is set up by a write
and survives the writes beside it.
-/

namespace Xpedite.Lib

/-- The low bytes of a number, the least significant one first. -/
def bytesOf : Nat → Nat → List UInt8
  | 0, _ => []
  | width + 1, number => UInt8.ofNat number :: bytesOf width (number / 256)

def numberOf : List UInt8 → Nat
  | [] => 0
  | byte :: bytes => byte.toNat + 256 * numberOf bytes

@[simp] theorem length_bytesOf (width number : Nat) : (bytesOf width number).length = width := by
  induction width generalizing number with
  | zero => rfl
  | succ width ih => rw [bytesOf, List.length_cons, ih]

theorem numberOf_bytesOf (width number : Nat) :
    numberOf (bytesOf width number) = number % 256 ^ width := by
  induction width generalizing number with
  | zero => rw [bytesOf, numberOf, Nat.pow_zero, Nat.mod_one]
  | succ width ih =>
      have split : number % 256 ^ (width + 1) = number % 256 + 256 * (number / 256 % 256 ^ width) := by
        rw [Nat.pow_succ', Nat.mod_mul]
      rw [bytesOf, numberOf, ih, UInt8.toNat_ofNat', split]

theorem numberOf_lt (bytes : List UInt8) : numberOf bytes < 256 ^ bytes.length := by
  induction bytes with
  | nil => exact Nat.one_pos
  | cons byte bytes ih =>
      have low := byte.toNat_lt
      rw [numberOf, List.length_cons, Nat.pow_succ']
      omega

theorem bytesOf_numberOf (bytes : List UInt8) : bytesOf bytes.length (numberOf bytes) = bytes := by
  induction bytes with
  | nil => rfl
  | cons byte bytes ih =>
      have low := byte.toNat_lt
      have front : UInt8.ofNat (byte.toNat + 256 * numberOf bytes) = byte := by
        apply UInt8.toNat_inj.mp
        rw [UInt8.toNat_ofNat']
        omega
      have back : (byte.toNat + 256 * numberOf bytes) / 256 = numberOf bytes := by omega
      rw [List.length_cons, numberOf, bytesOf, front, back, ih]

theorem bytesOf_add (first second number : Nat) :
    bytesOf (first + second) number =
      bytesOf first number ++ bytesOf second (number / 256 ^ first) := by
  induction first generalizing number with
  | zero => rw [Nat.zero_add, Nat.pow_zero, Nat.div_one, bytesOf, List.nil_append]
  | succ first ih =>
      rw [Nat.succ_add, bytesOf, bytesOf, ih, List.cons_append, Nat.div_div_eq_div_mul,
        Nat.pow_succ']

theorem bytesOf_mod (width number : Nat) :
    bytesOf width (number % 256 ^ width) = bytesOf width number := by
  induction width generalizing number with
  | zero => rfl
  | succ width ih =>
      have low : number % 256 ^ (width + 1) % 256 = number % 256 :=
        Nat.mod_mod_of_dvd number (Nat.dvd_mul_left 256 (256 ^ width))
      have high : number % 256 ^ (width + 1) / 256 = number / 256 % 256 ^ width := by
        rw [Nat.pow_succ', Nat.mod_mul_right_div_self]
      rw [bytesOf, bytesOf, high, ih]
      congr 1
      apply UInt8.toNat_inj.mp
      rw [UInt8.toNat_ofNat', UInt8.toNat_ofNat']
      exact low

abbrev Memory : Type := Nat → UInt8

namespace Memory

def read (memory : Memory) (address length : Nat) : List UInt8 :=
  (List.range' address length).map memory

def write (memory : Memory) (address : Nat) (bytes : List UInt8) : Memory := fun place =>
  if address ≤ place then (bytes[place - address]?).getD (memory place) else memory place

def load (memory : Memory) (address width : Nat) : Nat := numberOf (memory.read address width)

def store (memory : Memory) (address width number : Nat) : Memory :=
  memory.write address (bytesOf width number)

def load64 (memory : Memory) (address : Nat) : UInt64 := UInt64.ofNat (memory.load address 8)

def store64 (memory : Memory) (address : Nat) (word : UInt64) : Memory :=
  memory.store address 8 word.toNat

def Holds (memory : Memory) (address : Nat) (bytes : List UInt8) : Prop :=
  memory.read address bytes.length = bytes

@[simp] theorem length_read (memory : Memory) (address length : Nat) :
    (memory.read address length).length = length := by
  rw [read, List.length_map, List.length_range']

theorem read_add (memory : Memory) (address first second : Nat) :
    memory.read address (first + second) =
      memory.read address first ++ memory.read (address + first) second := by
  rw [read, ← List.range'_append_1, List.map_append]
  rfl

theorem read_congr {memory other : Memory} {address length : Nat}
    (same : ∀ place, address ≤ place → place < address + length → memory place = other place) :
    memory.read address length = other.read address length := by
  apply List.map_congr_left
  intro place member
  rw [List.mem_range'_1] at member
  exact same place member.1 member.2

theorem holds_append (memory : Memory) (address : Nat) (first second : List UInt8) :
    memory.Holds address (first ++ second) ↔
      memory.Holds address first ∧ memory.Holds (address + first.length) second := by
  rw [Holds, List.length_append, read_add]
  constructor
  · intro same
    exact List.append_inj same (length_read _ _ _)
  · rintro ⟨front, back⟩
    rw [front, back]

theorem holds_nil (memory : Memory) (address : Nat) : memory.Holds address [] := rfl

theorem holds_cons (memory : Memory) (address : Nat) (byte : UInt8) (bytes : List UInt8) :
    memory.Holds address (byte :: bytes) ↔
      memory address = byte ∧ memory.Holds (address + 1) bytes := by
  rw [Holds, List.length_cons, read, List.range'_succ, List.map_cons, List.cons.injEq]
  rfl

theorem write_of_lt (memory : Memory) {address place : Nat} (bytes : List UInt8)
    (before : place < address) : memory.write address bytes place = memory place := by
  rw [write, if_neg (by omega)]

theorem write_of_ge (memory : Memory) {address place : Nat} {bytes : List UInt8}
    (after : address + bytes.length ≤ place) : memory.write address bytes place = memory place := by
  rw [write]
  split
  · rw [List.getElem?_eq_none (by omega), Option.getD_none]
  · rfl

@[simp] theorem write_nil (memory : Memory) (address : Nat) : memory.write address [] = memory := by
  funext place
  rw [write]
  split
  · rw [List.getElem?_nil, Option.getD_none]
  · rfl

theorem write_append (memory : Memory) (address : Nat) (first second : List UInt8) :
    memory.write address (first ++ second) =
      (memory.write address first).write (address + first.length) second := by
  funext place
  by_cases inFirst : place < address + first.length
  · rw [write_of_lt _ _ inFirst, write, write]
    split
    · rw [List.getElem?_append_left (by omega)]
    · rfl
  · have rest : place - address - first.length = place - (address + first.length) := by omega
    rw [write, if_pos (by omega), List.getElem?_append_right (by omega), rest]
    conv_rhs => rw [write, if_pos (by omega), write_of_ge _ (by omega)]

theorem write_comm (memory : Memory) {address other : Nat} {first second : List UInt8}
    (apart : address + first.length ≤ other) :
    (memory.write other second).write address first =
      (memory.write address first).write other second := by
  funext place
  by_cases low : place < other
  · rw [write_of_lt _ second low]
    simp only [write, Nat.not_le.mpr low, if_false]
  · rw [write_of_ge _ (by omega)]
    conv_rhs => rw [write, write_of_ge _ (by omega)]
    rfl

theorem holds_write (memory : Memory) (address : Nat) (bytes : List UInt8) :
    (memory.write address bytes).Holds address bytes := by
  apply List.ext_getElem
  · rw [length_read]
  · intro index inside within
    simp only [read, List.getElem_map, List.getElem_range', Nat.one_mul]
    rw [write, if_pos (by omega), Nat.add_sub_cancel_left, List.getElem?_eq_getElem within,
      Option.getD_some]

theorem Holds.congr {memory other : Memory} {address : Nat} {bytes : List UInt8}
    (holds : memory.Holds address bytes)
    (same : ∀ place, address ≤ place → place < address + bytes.length →
      other place = memory place) : other.Holds address bytes := by
  rw [Holds, read_congr same]
  exact holds

theorem Holds.agree {memory other : Memory} {address : Nat} {bytes : List UInt8}
    (holds : memory.Holds address bytes) (otherHolds : other.Holds address bytes) {place : Nat}
    (start : address ≤ place) (stop : place < address + bytes.length) :
    memory place = other place := by
  have same : memory.read address bytes.length = other.read address bytes.length :=
    Eq.trans holds otherHolds.symm
  exact List.map_inj_left.mp same place (List.mem_range'_1.mpr ⟨start, stop⟩)

theorem Holds.take {memory : Memory} {address : Nat} {bytes : List UInt8}
    (holds : memory.Holds address bytes) (count : Nat) : memory.Holds address (bytes.take count) := by
  rw [← List.take_append_drop count bytes, holds_append] at holds
  exact holds.1

theorem Holds.drop {memory : Memory} {address : Nat} {bytes : List UInt8}
    (holds : memory.Holds address bytes) {count : Nat} (within : count ≤ bytes.length) :
    memory.Holds (address + count) (bytes.drop count) := by
  rw [← List.take_append_drop count bytes, holds_append, List.length_take_of_le within] at holds
  exact holds.2

theorem holds_take_append {memory : Memory} {address count : Nat} {first second : List UInt8}
    (within : first.length ≤ count) :
    memory.Holds address ((first ++ second).take count) ↔
      memory.Holds address first ∧
        memory.Holds (address + first.length) (second.take (count - first.length)) := by
  rw [List.take_append, List.take_of_length_le within, holds_append]

theorem store_outside (memory : Memory) {address place : Nat} (width number : Nat)
    (apart : place < address ∨ address + width ≤ place) :
    memory.store address width number place = memory place := by
  rcases apart with before | after
  · exact write_of_lt _ _ before
  · exact write_of_ge _ (by rwa [length_bytesOf])

theorem holds_store (memory : Memory) (address width number : Nat) :
    (memory.store address width number).Holds address (bytesOf width number) :=
  memory.holds_write address (bytesOf width number)

theorem Holds.load {memory : Memory} {address width number : Nat}
    (holds : memory.Holds address (bytesOf width number)) (small : number < 256 ^ width) :
    memory.load address width = number := by
  rw [Holds, length_bytesOf] at holds
  rw [Memory.load, holds, numberOf_bytesOf, Nat.mod_eq_of_lt small]

theorem Holds.load64 {memory : Memory} {address : Nat} {word : UInt64}
    (holds : memory.Holds address (bytesOf 8 word.toNat)) : memory.load64 address = word := by
  rw [Memory.load64, holds.load word.toNat_lt, UInt64.ofNat_toNat]

end Memory

end Xpedite.Lib
