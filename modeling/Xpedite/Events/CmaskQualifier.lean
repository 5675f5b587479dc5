import Xpedite.Events.EventsDbCore
import Xpedite.Lib.Numerals

/-!
Which counter mask the code reads from a qualifier.  It takes every numeral to base 16, and no
hexadecimal digit but the small ones.
-/

namespace Xpedite.Events

open Lib

structure Digits (base : Nat) where
  text : Text
  full : text ≠ []
  valid : ∀ char ∈ text, isDigitOf base char

inductive Numeral where
  | decimal (digits : Digits 10)
  | hexadecimal (digits : Digits 16)

namespace Numeral

def text : Numeral → Text
  | decimal digits => digits.text
  | hexadecimal digits => '0' :: 'x' :: digits.text

def value : Numeral → Nat
  | decimal digits => readIn 10 digits.text
  | hexadecimal digits => readIn 16 digits.text

def Plain : Numeral → Prop
  | decimal digits => readIn 10 digits.text < 10
  | hexadecimal digits => ∀ char ∈ digits.text, CmaskQualifier.smallHexDigit char

end Numeral

structure Qualifier where
  spelledOut : Bool
  numeral : Numeral

def lead (spelledOut : Bool) : Text :=
  if spelledOut then ['c', 'm', 'a', 's', 'k', '='] else ['c']

def Qualifier.text (qualifier : Qualifier) : Text :=
  lead qualifier.spelledOut ++ qualifier.numeral.text

namespace CmaskQualifier

def decimalDigit : Char → Bool := Pattern.between '0' '9'

/-- The value that the numeral at the start of a text has in base 16, up to the first digit not taken. -/
inductive ReadsNumeral : Text → Nat → Prop
  | hexadecimal {rest : Text} (full : rest.takeWhile smallHexDigit ≠ []) :
      ReadsNumeral ('0' :: 'x' :: rest) (readIn 16 (rest.takeWhile smallHexDigit))
  | decimal {text : Text}
      (unmarked : ∀ rest, text = '0' :: 'x' :: rest → rest.takeWhile smallHexDigit = [])
      (full : text.takeWhile decimalDigit ≠ []) :
      ReadsNumeral text (readIn 16 (text.takeWhile decimalDigit))

def ReadsMask (text : Text) (value : Nat) : Prop :=
  ∃ spelledOut rest, text = lead spelledOut ++ rest ∧ ReadsNumeral rest value

section Classes

theorem between_iff (low high char : Char) :
    Pattern.between low high char = true ↔ low.toNat ≤ char.toNat ∧ char.toNat ≤ high.toNat := by
  rw [Pattern.between, Bool.and_eq_true, decide_eq_true_eq, decide_eq_true_eq]

theorem decimalDigit_iff (char : Char) : decimalDigit char = isDigitOf 10 char := by
  have cases := charValue_cases char
  rw [Bool.eq_iff_iff, decimalDigit, between_iff, isDigitOf, decide_eq_true_eq, charValue]
  change 48 ≤ char.toNat ∧ char.toNat ≤ 57 ↔ _
  split
  · omega
  · split
    · omega
    · split
      · omega
      · omega

theorem smallHexDigit_of_decimal {char : Char} (digit : decimalDigit char) : smallHexDigit char := by
  rw [smallHexDigit, Bool.or_eq_true]
  exact .inl digit

theorem isDigitOf_of_smallHexDigit {char : Char} (digit : smallHexDigit char) :
    isDigitOf 16 char := by
  rw [smallHexDigit, Bool.or_eq_true, between_iff, between_iff] at digit
  change (48 ≤ char.toNat ∧ char.toNat ≤ 57) ∨ (97 ≤ char.toNat ∧ char.toNat ≤ 102) at digit
  rw [isDigitOf, decide_eq_true_eq, charValue]
  split
  · omega
  · split
    · omega
    · omega

theorem smallHexDigit_of_zero {char : Char} (zero : charValue char = 0) : smallHexDigit char := by
  refine smallHexDigit_of_decimal ?_
  rw [decimalDigit_iff, isDigitOf, zero]
  rfl

end Classes

section Match

def numeralPattern : Pattern :=
  Pattern.group (((Pattern.literal ['0', 'x']).seq (.many1 smallHexDigit)).alt (.many1 decimalDigit))

theorem numeralPattern_unmarked {text : Text}
    (unmarked : ∀ rest, text = '0' :: 'x' :: rest → rest.takeWhile smallHexDigit = []) :
    numeralPattern.first text =
      if text.takeWhile decimalDigit = [] then none
      else some ⟨text.takeWhile decimalDigit, [text.takeWhile decimalDigit],
        text.dropWhile decimalDigit⟩ := by
  have none : ((Pattern.literal ['0', 'x']).seq (.many1 smallHexDigit)).first text = none := by
    by_cases marked : ['0', 'x'] <+: text
    · obtain ⟨rest, rfl⟩ := marked
      rw [Pattern.first_literal_append, Pattern.first_many1, if_pos (unmarked rest rfl)]
      rfl
    · exact Pattern.first_literal_of_not_prefix _ _ marked
  rw [numeralPattern, Pattern.first_group, Pattern.first_alt, none, Option.none_or,
    Pattern.first_many1]
  split
  · rfl
  · rfl

theorem numeralPattern_marked {rest : Text} (full : rest.takeWhile smallHexDigit ≠ []) :
    numeralPattern.first ('0' :: 'x' :: rest) =
      some ⟨'0' :: 'x' :: rest.takeWhile smallHexDigit,
        ['0' :: 'x' :: rest.takeWhile smallHexDigit], rest.dropWhile smallHexDigit⟩ := by
  have marked := Pattern.first_literal_append (.many1 smallHexDigit) rest ['0', 'x']
  rw [Pattern.first_many1, if_neg full, List.cons_append, List.singleton_append] at marked
  rw [numeralPattern, Pattern.first_group, Pattern.first_alt, marked]
  rfl

theorem numeralPattern_of_reads {text : Text} {value : Nat} (reads : ReadsNumeral text value) :
    ∃ found group, numeralPattern.first text = some found ∧ found.groups = [group] ∧
      int 16 group = some (value : Int) := by
  cases reads with
  | hexadecimal full =>
      refine ⟨_, _, numeralPattern_marked full, rfl, int_marked full ?_⟩
      exact fun char member => isDigitOf_of_smallHexDigit (List.mem_takeWhile_imp member)
  | decimal unmarked full =>
      have taken := numeralPattern_unmarked unmarked
      rw [if_neg full] at taken
      have digits : ∀ char ∈ text.takeWhile decimalDigit, isDigitOf 16 char := fun char member =>
        isDigitOf_of_smallHexDigit (smallHexDigit_of_decimal (List.mem_takeWhile_imp member))
      have read := int_digits (Nat.le_refl 16) digits full (List.forall_mem_nil _)
      rw [List.append_nil] at read
      exact ⟨_, _, taken, rfl, read⟩

theorem numeralPattern_of_not_reads {text : Text} (never : ∀ value, ¬ReadsNumeral text value) :
    numeralPattern.first text = none := by
  have unmarked : ∀ rest, text = '0' :: 'x' :: rest → rest.takeWhile smallHexDigit = [] := by
    rintro rest rfl
    by_contra full
    exact never _ (.hexadecimal full)
  rw [numeralPattern_unmarked unmarked, if_pos]
  by_contra full
  exact never _ (.decimal unmarked full)

theorem ReadsNumeral.not_mask_prefix {text : Text} {value : Nat} (reads : ReadsNumeral text value) :
    ¬['m', 'a', 's', 'k', '='] <+: text := by
  rintro ⟨rest, rfl⟩
  cases reads with
  | decimal _ full => exact full rfl

/-- Behind the `c`, the numeral is looked for behind the rest of the word first. -/
theorem first_regEx (rest : Text) :
    regEx.first (['c'] ++ rest) =
      ((((Pattern.literal ['m', 'a', 's', 'k', '=']).seq numeralPattern).first rest).or
        (numeralPattern.first rest)).map (Found.append ⟨['c'], [], rest⟩) := by
  have whole := Pattern.first_literal_append
    ((Pattern.literal ['m', 'a', 's', 'k', '=']).optional.seq numeralPattern) rest ['c']
  rw [Pattern.first_optional] at whole
  exact whole

theorem match_of_first {text group : Text} {found : Found} {value : Nat}
    (taken : regEx.first text = some found) (groups : found.groups = [group])
    (read : int 16 group = some (value : Int)) :
    CmaskQualifier.match (some text) = .ok (some (value : Int)) := by
  simp only [CmaskQualifier.match, taken, groups, read]

theorem match_of_readsMask {text : Text} {value : Nat} (reads : ReadsMask text value) :
    CmaskQualifier.match (some text) = .ok (some (value : Int)) := by
  obtain ⟨spelledOut, rest, rfl, reads⟩ := reads
  obtain ⟨found, group, taken, groups, read⟩ := numeralPattern_of_reads reads
  cases spelledOut with
  | true =>
      have spelled := Pattern.first_literal_append numeralPattern rest ['m', 'a', 's', 'k', '=']
      have whole := first_regEx (['m', 'a', 's', 'k', '='] ++ rest)
      rw [spelled, taken] at whole
      exact match_of_first whole groups read
  | false =>
      have spelled := Pattern.first_literal_of_not_prefix numeralPattern rest reads.not_mask_prefix
      have whole := first_regEx rest
      rw [spelled, taken] at whole
      exact match_of_first whole groups read

theorem match_of_not_readsMask {text : Text} (never : ∀ value, ¬ReadsMask text value) :
    CmaskQualifier.match (some text) = .ok none := by
  have none : regEx.first text = none := by
    by_cases starts : ['c'] <+: text
    · obtain ⟨rest, rfl⟩ := starts
      have plain := numeralPattern_of_not_reads fun value reads =>
        never value ⟨false, rest, rfl, reads⟩
      have spelled : ((Pattern.literal ['m', 'a', 's', 'k', '=']).seq numeralPattern).first rest =
          Option.none := by
        by_cases mask : ['m', 'a', 's', 'k', '='] <+: rest
        · obtain ⟨rest, rfl⟩ := mask
          have refused := numeralPattern_of_not_reads fun value reads =>
            never value ⟨true, rest, rfl, reads⟩
          rw [Pattern.first_literal_append, refused, Option.map_none]
        · exact Pattern.first_literal_of_not_prefix _ _ mask
      rw [first_regEx, spelled, plain]
      rfl
    · exact Pattern.first_literal_of_not_prefix _ _ starts
  simp only [CmaskQualifier.match, none]

theorem exists_match (text : Text) : ∃ counterMask, CmaskQualifier.match (some text) = .ok counterMask := by
  by_cases reads : ∃ value, ReadsMask text value
  · obtain ⟨value, reads⟩ := reads
    exact ⟨_, match_of_readsMask reads⟩
  · exact ⟨_, match_of_not_readsMask fun value read => reads ⟨value, read⟩⟩

theorem match_eq_iff {text : Text} {value : Nat} :
    CmaskQualifier.match (some text) = .ok (some (value : Int)) ↔ ReadsMask text value := by
  refine ⟨fun taken => ?_, match_of_readsMask⟩
  by_cases reads : ∃ other, ReadsMask text other
  · obtain ⟨other, reads⟩ := reads
    have same := (match_of_readsMask reads).symm.trans taken
    cases Int.ofNat.inj (Option.some.inj (Except.ok.inj same))
    exact reads
  · rw [match_of_not_readsMask fun other read => reads ⟨other, read⟩] at taken
    cases taken

theorem avoids_regEx {char : Char} (ends : char = ':' ∨ char = '\n') : regEx.Avoids char := by
  have letters : char ∉ ['c'] ∧ char ∉ ['m', 'a', 's', 'k', '='] ∧ char ∉ ['0', 'x'] := by
    rcases ends with rfl | rfl
    · decide
    · decide
  have classes : smallHexDigit char = false ∧ decimalDigit char = false := by
    rcases ends with rfl | rfl
    · decide
    · decide
  exact ⟨letters.1, letters.2.1, ⟨letters.2.2, classes.1, classes.1⟩, classes.2, classes.2⟩

theorem match_append {behind : Text} (ends : ∀ char ∈ behind.head?, char = ':' ∨ char = '\n')
    (text : Text) : CmaskQualifier.match (some (text ++ behind)) = CmaskQualifier.match (some text) := by
  have same := Pattern.first_append regEx (fun char member => avoids_regEx (ends char member)) text
  simp only [CmaskQualifier.match, same]
  cases regEx.first text with
  | none => rfl
  | some found => rfl

theorem match_takeWhile (text : Text) :
    CmaskQualifier.match (some (text.takeWhile Pattern.dot)) = CmaskQualifier.match (some text) := by
  have ends : ∀ char ∈ (text.dropWhile Pattern.dot).head?, char = ':' ∨ char = '\n' := by
    intro char member
    have refused := List.head?_dropWhile_not Pattern.dot text
    rw [Option.mem_def] at member
    rw [member] at refused
    exact .inr (by simpa [Pattern.dot] using refused)
  have whole := match_append ends (text.takeWhile Pattern.dot)
  rw [List.takeWhile_append_dropWhile] at whole
  exact whole.symm

theorem readsMask_takeWhile_iff (text : Text) (value : Nat) :
    ReadsMask (text.takeWhile Pattern.dot) value ↔ ReadsMask text value := by
  rw [← match_eq_iff, ← match_eq_iff, match_takeWhile]

theorem readsMask_colon_iff (before behind : Text) (value : Nat) :
    ReadsMask ((before ++ ':' :: behind).takeWhile Pattern.dot) value ↔ ReadsMask before value := by
  have ends : ∀ char ∈ (':' :: behind).head?, char = ':' ∨ char = '\n' := by
    intro char member
    cases member
    exact .inl rfl
  rw [readsMask_takeWhile_iff, ← match_eq_iff, ← match_eq_iff, match_append ends]

end Match

section Reading

theorem ReadsNumeral.inversion {text : Text} {value : Nat} (reads : ReadsNumeral text value) :
    (∃ rest, text = '0' :: 'x' :: rest ∧ rest.takeWhile smallHexDigit ≠ [] ∧
        value = readIn 16 (rest.takeWhile smallHexDigit)) ∨
      ((∀ rest, text = '0' :: 'x' :: rest → rest.takeWhile smallHexDigit = []) ∧
        value = readIn 16 (text.takeWhile decimalDigit)) := by
  cases reads with
  | hexadecimal full => exact .inl ⟨_, rfl, full, rfl⟩
  | decimal unmarked full => exact .inr ⟨unmarked, rfl⟩

theorem takeWhile_decimal (digits : Digits 10) :
    digits.text.takeWhile decimalDigit = digits.text := by
  rw [List.takeWhile_eq_self_iff]
  intro char member
  rw [decimalDigit_iff]
  exact digits.valid char member

theorem readsNumeral_decimal_iff (digits : Digits 10) :
    ReadsNumeral digits.text (readIn 10 digits.text) ↔ readIn 10 digits.text < 10 := by
  have unmarked : ∀ rest, digits.text ≠ '0' :: 'x' :: rest := by
    intro rest same
    have digit := digits.valid 'x' (by rw [same]; simp)
    exact absurd digit (by decide)
  have whole := takeWhile_decimal digits
  have bases : 10 < 16 := by omega
  rw [← readIn_eq_readIn_iff (Nat.zero_lt_succ 9) bases digits.valid]
  constructor
  · intro reads
    rcases reads.inversion with ⟨rest, same, -⟩ | ⟨-, value⟩
    · exact absurd same (unmarked rest)
    · rw [whole] at value
      exact value.symm
  · intro same
    have reads : ReadsNumeral digits.text (readIn 16 (digits.text.takeWhile decimalDigit)) :=
      .decimal (fun rest start => absurd start (unmarked rest)) (by rw [whole]; exact digits.full)
    rwa [whole, same] at reads

theorem readsNumeral_hexadecimal_iff (digits : Digits 16) :
    ReadsNumeral ('0' :: 'x' :: digits.text) (readIn 16 digits.text) ↔
      ∀ char ∈ digits.text, smallHexDigit char := by
  rw [← @readIn_takeWhile_eq_iff 16 (Nat.zero_lt_succ 15) smallHexDigit
    fun char => smallHexDigit_of_zero]
  constructor
  · intro reads
    rcases reads.inversion with ⟨rest, same, -, value⟩ | ⟨unmarked, value⟩
    · cases same
      exact value.symm
    · rw [value, unmarked digits.text rfl]
      rfl
  · intro same
    have full : digits.text.takeWhile smallHexDigit ≠ [] := by
      rw [List.takeWhile_eq_self_iff.mpr ((readIn_takeWhile_eq_iff (Nat.zero_lt_succ 15)
        (fun char => smallHexDigit_of_zero) digits.text).mp same)]
      exact digits.full
    have reads := ReadsNumeral.hexadecimal full
    rwa [same] at reads

theorem not_mem_numeral (numeral : Numeral) {char : Char} (other : isDigitOf 10 char = false)
    (other' : isDigitOf 16 char = false) (mark : char ≠ 'x') : char ∉ numeral.text := by
  intro member
  cases numeral with
  | decimal digits => exact Bool.false_ne_true (other.symm.trans (digits.valid char member))
  | hexadecimal digits =>
      rcases List.mem_cons.mp member with rfl | member
      · cases other
      · rcases List.mem_cons.mp member with same | member
        · exact mark same
        · exact Bool.false_ne_true (other'.symm.trans (digits.valid char member))

theorem readsMask_lead (numeral : Numeral) (spelledOut : Bool) (value : Nat) :
    ReadsMask (lead spelledOut ++ numeral.text) value ↔ ReadsNumeral numeral.text value := by
  refine ⟨?_, fun reads => ⟨spelledOut, numeral.text, rfl, reads⟩⟩
  rintro ⟨other, rest, same, reads⟩
  cases spelledOut with
  | true =>
      cases other with
      | true =>
          cases List.append_cancel_left same
          exact reads
      | false =>
          have mask : ['m', 'a', 's', 'k', '='] ++ numeral.text = rest := (List.cons.inj same).2
          exact absurd ⟨numeral.text, mask⟩ reads.not_mask_prefix
  | false =>
      cases other with
      | true =>
          have mask : numeral.text = ['m', 'a', 's', 'k', '='] ++ rest := (List.cons.inj same).2
          have letter : 'm' ∉ numeral.text := not_mem_numeral numeral rfl rfl (by decide)
          rw [mask] at letter
          exact absurd List.mem_cons_self letter
      | false =>
          cases List.append_cancel_left same
          exact reads

/-- A qualifier is read as it is written exactly if its numeral is a plain one. -/
theorem readsMask_iff_plain (qualifier : Qualifier) :
    ReadsMask qualifier.text qualifier.numeral.value ↔ qualifier.numeral.Plain := by
  obtain ⟨spelledOut, numeral⟩ := qualifier
  rw [Qualifier.text, readsMask_lead numeral]
  cases numeral with
  | decimal digits => exact readsNumeral_decimal_iff digits
  | hexadecimal digits => exact readsNumeral_hexadecimal_iff digits

end Reading

end CmaskQualifier

end Xpedite.Events
