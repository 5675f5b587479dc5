import Mathlib.Data.List.TakeWhile
import Xpedite.Lib.Digits

/-!
Functions of the C and C++ libraries on texts without a terminating zero: `strtok_r` called
until there are no tokens left, and the conversions of decimal numerals.
-/

namespace Xpedite.Lib

def strtok (delimiter : Char) (text : List Char) : List (List Char) :=
  (text.splitOn delimiter).filter (· ≠ [])

def isspace (char : Char) : Bool := char = ' ' || (9 ≤ char.toNat && char.toNat ≤ 13)

def digitsValue (digits : List Char) : Nat :=
  digits.foldl (fun total digit => total * 10 + (digit.toNat - '0'.toNat)) 0

def leadingNumber (text : List Char) : Option Nat :=
  match text.takeWhile Char.isDigit with
  | [] => none
  | digits => some (digitsValue digits)

/-- The number `strtol` finds, before it is fitted into a `long`. -/
def numeral10 (text : List Char) : Option Int :=
  match text.dropWhile isspace with
  | '-' :: rest => (leadingNumber rest).map fun number => -(number : Int)
  | '+' :: rest => (leadingNumber rest).map Int.ofNat
  | rest => (leadingNumber rest).map Int.ofNat

def intMin : Int := -2 ^ 31

def intMax : Int := 2 ^ 31 - 1

def longMin : Int := -2 ^ 63

def longMax : Int := 2 ^ 63 - 1

def strtol (text : List Char) : Int :=
  match numeral10 text with
  | none => 0
  | some number => max longMin (min longMax number)

/-- A `long` is cut down to the `int` of its lower half. -/
def atoi (text : List Char) : Int := (strtol text).bmod (2 ^ 32)

/-- No number, or one that does not fit, is an exception. -/
def stringTo (least greatest : Int) (text : List Char) : Option Int :=
  (numeral10 text).filter fun number => least ≤ number ∧ number ≤ greatest

def stoi : List Char → Option Int := stringTo intMin intMax

def stol : List Char → Option Int := stringTo longMin longMax

example : atoi "\t-12,3".toList = -12 ∧ atoi "4294967297".toList = 1 := by decide

theorem ne_nil_of_mem_strtok {delimiter : Char} {text token : List Char}
    (listed : token ∈ strtok delimiter text) : token ≠ [] := by
  rw [strtok, List.mem_filter] at listed
  exact of_decide_eq_true listed.2

theorem mem_of_mem_splitOn {delimiter char : Char} {text token : List Char}
    (listed : token ∈ text.splitOn delimiter) (member : char ∈ token) : char ∈ text := by
  induction text generalizing token with
  | nil =>
      rw [List.splitOn_nil, List.mem_singleton] at listed
      rwa [listed] at member
  | cons first text ih =>
      rw [List.splitOn_cons_eq_if_modifyHead] at listed
      split at listed
      case isTrue =>
          rcases List.mem_cons.mp listed with rfl | later
          · cases member
          · exact List.mem_cons_of_mem first (ih later member)
      case isFalse =>
          obtain ⟨head, tail, split⟩ :=
            List.exists_cons_of_ne_nil (List.splitOn_ne_nil delimiter text)
          rw [split] at ih listed
          rcases List.mem_cons.mp listed with rfl | later
          · rcases List.mem_cons.mp member with rfl | rest
            · exact List.mem_cons_self
            · exact List.mem_cons_of_mem first (ih List.mem_cons_self rest)
          · exact List.mem_cons_of_mem first (ih (List.mem_cons_of_mem head later) member)

theorem mem_intercalate {delimiter char : Char} {tokens : List (List Char)}
    (member : char ∈ [delimiter].intercalate tokens) :
    char = delimiter ∨ ∃ token ∈ tokens, char ∈ token := by
  induction tokens with
  | nil => cases member
  | cons token tokens ih =>
      cases tokens with
      | nil =>
          rw [List.intercalate, List.intersperse_singleton, List.flatten_singleton] at member
          exact .inr ⟨token, List.mem_cons_self, member⟩
      | cons next tokens =>
          rw [List.intercalate, List.intersperse_cons_cons, List.flatten_cons, List.flatten_cons,
            List.mem_append, List.mem_append] at member
          rcases member with first | blank | later
          · exact .inr ⟨token, List.mem_cons_self, first⟩
          · exact .inl (List.mem_singleton.mp blank)
          · rcases ih later with blank | ⟨other, listed, inside⟩
            · exact .inl blank
            · exact .inr ⟨other, List.mem_cons_of_mem token listed, inside⟩

/-- Joined with their delimiter, the tokens are found again. -/
theorem strtok_intercalate {delimiter : Char} {tokens : List (List Char)}
    (clean : ∀ token ∈ tokens, delimiter ∉ token) (solid : ∀ token ∈ tokens, token ≠ []) :
    strtok delimiter ([delimiter].intercalate tokens) = tokens := by
  cases tokens with
  | nil => rfl
  | cons token tokens =>
      rw [strtok, List.splitOn_intercalate delimiter clean (List.cons_ne_nil token tokens),
        List.filter_eq_self]
      exact fun token listed => decide_eq_true (solid token listed)

theorem numeral10_of_isDigit {digits : List Char} (numeric : ∀ char ∈ digits, char.isDigit = true)
    (some_ : digits ≠ []) : numeral10 digits = some (digitsValue digits) := by
  obtain ⟨first, rest, rfl⟩ := List.exists_cons_of_ne_nil some_
  have digit := numeric first List.mem_cons_self
  have solid : isspace first = false := by
    have bounds : 48 ≤ first.toNat ∧ first.toNat ≤ 57 := Char.isDigit_iff_toNat.mp digit
    rw [isspace, Bool.or_eq_false_iff]
    constructor
    · apply decide_eq_false
      rintro rfl
      cases digit
    · simp only [Bool.and_eq_false_iff, decide_eq_false_iff_not]
      omega
  have whole : leadingNumber (first :: rest) = some (digitsValue (first :: rest)) := by
    have all : (first :: rest).takeWhile Char.isDigit = first :: rest :=
      List.takeWhile_eq_self_iff.mpr numeric
    rw [leadingNumber, all]
  rw [numeral10, List.dropWhile_cons_of_neg (by rw [solid]; exact Bool.false_ne_true)]
  split
  case h_1 rest' same =>
    cases same
    cases digit
  case h_2 rest' same =>
    cases same
    cases digit
  case h_3 => rw [whole]; rfl

theorem atoi_toDigits (number : Nat) (fits : number < 2 ^ 63) :
    atoi (Nat.toDigits 10 number) = Int.bmod number (2 ^ 32) := by
  have numeric : ∀ char ∈ Nat.toDigits 10 number, char.isDigit = true :=
    fun char member => Nat.isDigit_of_mem_toDigits (by decide) (by decide) member
  have value := foldl_toDigits (fun digit => digit.toNat - '0'.toNat) id
    (show 1 < 10 by decide) (by decide) number
  rw [List.map_id] at value
  have fitted : max longMin (min longMax (number : Int)) = number := by
    simp only [longMin, longMax]
    omega
  rw [atoi, strtol, numeral10_of_isDigit numeric Nat.toDigits_ne_nil, digitsValue, value]
  exact congrArg (Int.bmod · (2 ^ 32)) fitted

end Xpedite.Lib
