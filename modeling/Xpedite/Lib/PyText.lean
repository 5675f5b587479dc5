import Mathlib.Data.List.TakeWhile
import Xpedite.Lib.Digits

/-!
Python's `str.strip()`, `str(number)` and `int(text, base)`, the last for digits and letters of
ASCII.  A text that `int` does not take has no value.
-/

namespace Xpedite.Lib

def isSpace (char : Char) : Bool :=
  let code := char.toNat
  (9 ≤ code && code ≤ 13) || (28 ≤ code && code ≤ 32) ||
    [0x85, 0xA0, 0x1680, 0x2028, 0x2029, 0x202F, 0x205F, 0x3000].contains code ||
    (0x2000 ≤ code && code ≤ 0x200A)

def strip (text : List Char) : List Char :=
  ((text.dropWhile isSpace).reverse.dropWhile isSpace).reverse

def charValue (char : Char) : Nat :=
  let code := char.toNat
  if 48 ≤ code ∧ code ≤ 57 then code - 48
  else if 97 ≤ code ∧ code ≤ 122 then code - 87
  else if 65 ≤ code ∧ code ≤ 90 then code - 55
  else 36

def isDigitOf (base : Nat) (char : Char) : Bool := charValue char < base

/-- The digits after the first one, where single underscores may separate them. -/
def digitsFrom (base : Nat) : Nat → List Char → Option Nat
  | total, [] => some total
  | total, char :: rest =>
      if isDigitOf base char then digitsFrom base (total * base + charValue char) rest
      else
        match char, rest with
        | '_', next :: rest =>
            if isDigitOf base next then digitsFrom base (total * base + charValue next) rest
            else none
        | _, _ => none

def numeral (base : Nat) : List Char → Option Nat
  | [] => none
  | char :: rest => if isDigitOf base char then digitsFrom base (charValue char) rest else none

def dropMark (base : Nat) (text : List Char) : List Char :=
  match base, text with
  | 16, '0' :: 'x' :: '_' :: rest => rest
  | 16, '0' :: 'x' :: rest => rest
  | 16, '0' :: 'X' :: '_' :: rest => rest
  | 16, '0' :: 'X' :: rest => rest
  | _, text => text

def int (base : Nat) (text : List Char) : Option Int :=
  match strip text with
  | '-' :: digits => (numeral base (dropMark base digits)).map fun number => -(number : Int)
  | '+' :: digits => (numeral base (dropMark base digits)).map Int.ofNat
  | digits => (numeral base (dropMark base digits)).map Int.ofNat

/-- The zeros of the decimal digits of Unicode, which stand in tens. -/
def decimalZeros : List Nat :=
  [0x30, 0x660, 0x6F0, 0x7C0, 0x966, 0x9E6, 0xA66, 0xAE6, 0xB66, 0xBE6, 0xC66, 0xCE6, 0xD66,
    0xDE6, 0xE50, 0xED0, 0xF20, 0x1040, 0x1090, 0x17E0, 0x1810, 0x1946, 0x19D0, 0x1A80, 0x1A90,
    0x1B50, 0x1BB0, 0x1C40, 0x1C50, 0xA620, 0xA8D0, 0xA900, 0xA9D0, 0xA9F0, 0xAA50, 0xABF0,
    0xFF10, 0x104A0, 0x10D30, 0x11066, 0x110F0, 0x11136, 0x111D0, 0x112F0, 0x11450, 0x114D0,
    0x11650, 0x116C0, 0x11730, 0x118E0, 0x11950, 0x11C50, 0x11D50, 0x11DA0, 0x16A60, 0x16AC0,
    0x16B50, 0x1D7CE, 0x1D7D8, 0x1D7E2, 0x1D7EC, 0x1D7F6, 0x1E140, 0x1E2F0, 0x1E950, 0x1FBF0]

def decimalValue (char : Char) : Option Nat :=
  (decimalZeros.find? fun start => start ≤ char.toNat && char.toNat < start + 10).map
    fun start => char.toNat - start

/-- `\d` -/
def isDecimal (char : Char) : Bool := (decimalValue char).isSome

/-- The digit of ASCII as which `int` takes a decimal digit. -/
def asciiDigit (char : Char) : Char := ((decimalValue char).map Nat.digitChar).getD char

def decimal : Int → List Char
  | .ofNat number => Nat.toDigits 10 number
  | .negSucc number => '-' :: Nat.toDigits 10 (number + 1)

theorem not_mem_of_all {accepts : Char → Bool} {text : List Char} {char : Char}
    (accepted : ∀ char ∈ text, accepts char) (refused : accepts char = false) : char ∉ text := by
  intro member
  rw [accepted char member] at refused
  cases refused

theorem dropWhile_of_none {text : List Char} (solid : ∀ char ∈ text, isSpace char = false) :
    text.dropWhile isSpace = text := by
  cases text with
  | nil => rfl
  | cons char rest =>
      rw [List.dropWhile_cons, solid char List.mem_cons_self]
      rfl

theorem strip_append_spaces {text spaces : List Char}
    (solid : ∀ char ∈ text, isSpace char = false) (blank : ∀ char ∈ spaces, isSpace char) :
    strip (text ++ spaces) = text := by
  have front : (text ++ spaces).dropWhile isSpace = if text = [] then [] else text ++ spaces := by
    cases text with
    | nil =>
        rw [if_pos rfl, List.nil_append, List.dropWhile_eq_nil_iff]
        exact blank
    | cons char rest =>
        rw [List.cons_append, List.dropWhile_cons, solid char List.mem_cons_self]
        rfl
  have reversedSpaces : ∀ char ∈ spaces.reverse, isSpace char :=
    fun char member => blank char (List.mem_reverse.mp member)
  have reversedText : ∀ char ∈ text.reverse, isSpace char = false :=
    fun char member => solid char (List.mem_reverse.mp member)
  rw [strip, front]
  split
  · rename_i empty
    rw [empty]
    rfl
  · rw [List.reverse_append, List.dropWhile_append_of_pos reversedSpaces,
      dropWhile_of_none reversedText, List.reverse_reverse]

/-- Only the spaces behind a text that neither begins nor ends with one are stripped. -/
theorem strip_of_ends {text spaces : List Char} (full : text ≠ [])
    (first : ∀ char ∈ text.head?, isSpace char = false)
    (last : ∀ char ∈ text.getLast?, isSpace char = false)
    (blank : ∀ char ∈ spaces, isSpace char) : strip (text ++ spaces) = text := by
  have front : (text ++ spaces).dropWhile isSpace = text ++ spaces := by
    cases text with
    | nil => exact absurd rfl full
    | cons char rest =>
        rw [List.cons_append, List.dropWhile_cons, first char rfl]
        rfl
  have back : text.reverse.dropWhile isSpace = text.reverse := by
    have final := last _ (List.getLast?_eq_getLast_of_ne_nil full)
    rw [← List.dropLast_append_getLast full, List.reverse_append, List.reverse_singleton,
      List.singleton_append, List.dropWhile_cons, final]
    rfl
  rw [strip, front, List.reverse_append, List.dropWhile_append_of_pos, back, List.reverse_reverse]
  exact fun char member => blank char (List.mem_reverse.mp member)

theorem charValue_cases (char : Char) :
    charValue char = 36 ∨ (48 ≤ char.toNat ∧ char.toNat ≤ 57) ∨
      (97 ≤ char.toNat ∧ char.toNat ≤ 122) ∨ (65 ≤ char.toNat ∧ char.toNat ≤ 90) := by
  unfold charValue
  simp only
  split
  · rename_i digit
    exact .inr (.inl digit)
  · split
    · rename_i lower
      exact .inr (.inr (.inl lower))
    · split
      · rename_i upper
        exact .inr (.inr (.inr upper))
      · exact .inl rfl

theorem isSpace_eq_false_of_digit {base : Nat} (small : base ≤ 36) {char : Char}
    (digit : isDigitOf base char) : isSpace char = false := by
  have cases := charValue_cases char
  rw [isDigitOf, decide_eq_true_eq] at digit
  have table : ∀ code, 48 ≤ code → code ≤ 122 →
      [0x85, 0xA0, 0x1680, 0x2028, 0x2029, 0x202F, 0x205F, 0x3000].contains code = false := by
    intro code low high
    simp only [List.contains_cons, List.contains_nil, Bool.or_false, Bool.or_eq_false_iff,
      beq_eq_false_iff_ne]
    omega
  simp only [isSpace, table char.toNat (by omega) (by omega), Bool.or_false, Bool.or_eq_false_iff,
    Bool.and_eq_false_iff, decide_eq_false_iff_not]
  omega

theorem digitsFrom_digits {base : Nat} (small : base ≤ 36) (total : Nat) (text : List Char)
    (digits : ∀ char ∈ text, isDigitOf base char) :
    digitsFrom base total text =
      some (text.foldl (fun total char => total * base + charValue char) total) := by
  induction text generalizing total with
  | nil => rfl
  | cons char rest ih =>
      have first := digits char List.mem_cons_self
      rw [digitsFrom, if_pos first, List.foldl_cons]
      · exact ih _ fun other member => digits other (List.mem_cons_of_mem _ member)
      · rintro _ _ rfl -
        rw [isDigitOf, decide_eq_true_eq] at first
        have value : charValue '_' = 36 := by decide
        omega

theorem dropMark_digits {base : Nat} (small : base ≤ 16) {text : List Char}
    (digits : ∀ char ∈ text, isDigitOf base char) : dropMark base text = text := by
  have mark : ∀ letter ∈ ['x', 'X'], letter ∉ text := by
    intro letter isMark member
    have digit := digits letter member
    rw [isDigitOf, decide_eq_true_eq] at digit
    have large : ∀ letter ∈ ['x', 'X'], 16 < charValue letter := by simp [charValue]
    have value := large letter isMark
    omega
  unfold dropMark
  split
  · exact absurd (by simp) (mark 'x' (by simp))
  · exact absurd (by simp) (mark 'x' (by simp))
  · exact absurd (by simp) (mark 'X' (by simp))
  · exact absurd (by simp) (mark 'X' (by simp))
  · rfl

theorem numeral_digits {base : Nat} (small : base ≤ 36) {text : List Char}
    (digits : ∀ char ∈ text, isDigitOf base char) (full : text ≠ []) :
    numeral base text = some (text.foldl (fun total char => total * base + charValue char) 0) := by
  cases text with
  | nil => exact absurd rfl full
  | cons char rest =>
      have first := digits char List.mem_cons_self
      have tail := digitsFrom_digits small (charValue char) rest
        fun other member => digits other (List.mem_cons_of_mem _ member)
      rw [numeral, if_pos first, tail, List.foldl_cons, Nat.zero_mul, Nat.zero_add]

theorem int_digits {base : Nat} (small : base ≤ 16) {text spaces : List Char}
    (digits : ∀ char ∈ text, isDigitOf base char) (full : text ≠ [])
    (blank : ∀ char ∈ spaces, isSpace char) :
    int base (text ++ spaces) =
      some (Int.ofNat (text.foldl (fun total char => total * base + charValue char) 0)) := by
  have solid : ∀ char ∈ text, isSpace char = false :=
    fun char member => isSpace_eq_false_of_digit (by omega) (digits char member)
  have unmarked := dropMark_digits small digits
  have read := numeral_digits (by omega) digits full
  rw [int, strip_append_spaces solid blank]
  cases text with
  | nil => exact absurd rfl full
  | cons char rest =>
      have first := digits char List.mem_cons_self
      have unsigned : ∀ sign ∈ ['-', '+'], char ≠ sign := by
        rintro sign isSign rfl
        rw [isDigitOf, decide_eq_true_eq] at first
        have large : ∀ letter ∈ ['-', '+'], charValue letter = 36 := by simp [charValue]
        have value := large char isSign
        omega
      split
      · rename_i heads
        exact absurd (List.cons.inj heads).1 (unsigned '-' (by simp))
      · rename_i heads
        exact absurd (List.cons.inj heads).1 (unsigned '+' (by simp))
      · rw [unmarked, read, Option.map_some]

theorem charValue_digitChar {digit : Nat} (small : digit < 16) :
    charValue digit.digitChar = digit := by
  have table : ∀ digit < 16, charValue (Nat.digitChar digit) = digit := by decide
  exact table digit small

theorem isDigitOf_of_mem_toDigits {base number : Nat} (valid : 1 < base) (small : base ≤ 16)
    {char : Char} (member : char ∈ Nat.toDigits base number) : isDigitOf base char := by
  obtain ⟨digit, bound, rfl⟩ := digitChar_of_mem_toDigits valid member
  rw [isDigitOf, charValue_digitChar (by omega)]
  exact decide_eq_true bound

theorem int_toDigits {base : Nat} (valid : 1 < base) (small : base ≤ 16) (number : Nat)
    {spaces : List Char} (blank : ∀ char ∈ spaces, isSpace char) :
    int base (Nat.toDigits base number ++ spaces) = some (Int.ofNat number) := by
  have digits : ∀ char ∈ Nat.toDigits base number, isDigitOf base char :=
    fun char member => isDigitOf_of_mem_toDigits valid small member
  have value := foldl_toDigits charValue id valid
    (fun digit bound => charValue_digitChar (Nat.lt_of_lt_of_le bound small)) number
  rw [List.map_id] at value
  rw [int_digits small digits Nat.toDigits_ne_nil blank, value]

theorem int_decimal (number : Int) : int 10 (decimal number) = some number := by
  cases number with
  | ofNat number =>
      have plain : int 10 (Nat.toDigits 10 number ++ []) = some (Int.ofNat number) :=
        int_toDigits (by omega) (by omega) number (List.forall_mem_nil _)
      rwa [List.append_nil] at plain
  | negSucc number =>
      have digits : ∀ char ∈ Nat.toDigits 10 (number + 1), isDigitOf 10 char :=
        fun char member => isDigitOf_of_mem_toDigits (by omega) (by omega) member
      have solid : ∀ char ∈ '-' :: Nat.toDigits 10 (number + 1), isSpace char = false := by
        intro char member
        rcases List.mem_cons.mp member with rfl | digit
        · rfl
        · exact isSpace_eq_false_of_digit (by omega) (digits char digit)
      have value := foldl_toDigits charValue id (Nat.one_lt_succ_succ 8)
        (fun digit bound => charValue_digitChar (by omega)) (number + 1)
      have bare := strip_append_spaces solid (List.forall_mem_nil _)
      rw [List.append_nil] at bare
      rw [List.map_id] at value
      have read : numeral 10 (dropMark 10 (Nat.toDigits 10 (number + 1))) = some (number + 1) := by
        rw [dropMark_digits (by omega) digits, numeral_digits (by omega) digits Nat.toDigits_ne_nil,
          value]
      rw [decimal, int, bare]
      show ((numeral 10 (dropMark 10 (Nat.toDigits 10 (number + 1)))).map
        fun number => -(number : Int)) = _
      rw [read]
      rfl

end Xpedite.Lib
