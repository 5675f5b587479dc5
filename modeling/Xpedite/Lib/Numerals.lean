import Mathlib.Data.List.Induction
import Xpedite.Lib.PyText

/-! The value of digits in a base, and what reading them in another base or only in part makes of it. -/

namespace Xpedite.Lib

def readIn (base : Nat) (digits : List Char) : Nat :=
  digits.foldl (fun total char => total * base + charValue char) 0

section Bases

variable {base : Nat}

theorem readIn_snoc (base : Nat) (digits : List Char) (char : Char) :
    readIn base (digits ++ [char]) = readIn base digits * base + charValue char := by
  rw [readIn, List.foldl_append]
  rfl

theorem readIn_eq_zero (positive : 0 < base) {digits : List Char} (zero : readIn base digits = 0)
    (other : Nat) : readIn other digits = 0 := by
  induction digits using List.reverseRecOn with
  | nil => rfl
  | append_singleton digits char ih =>
      rw [readIn_snoc, Nat.add_eq_zero_iff, Nat.mul_eq_zero] at zero
      have none : readIn base digits = 0 := zero.1.resolve_right (by omega)
      rw [readIn_snoc, ih none, zero.2, Nat.zero_mul]

theorem readIn_le_readIn {other : Nat} (larger : base ≤ other) (digits : List Char) :
    readIn base digits ≤ readIn other digits := by
  induction digits using List.reverseRecOn with
  | nil => exact Nat.le_refl 0
  | append_singleton digits char ih =>
      rw [readIn_snoc, readIn_snoc]
      exact Nat.add_le_add_right (Nat.mul_le_mul ih larger) _

/-- Digits have the same value in a larger base only if there is just one that counts. -/
theorem readIn_eq_readIn_iff {other : Nat} (positive : 0 < base) (larger : base < other)
    {digits : List Char} (valid : ∀ char ∈ digits, isDigitOf base char) :
    readIn other digits = readIn base digits ↔ readIn base digits < base := by
  induction digits using List.reverseRecOn with
  | nil => exact iff_of_true rfl positive
  | append_singleton digits char ih =>
      have last := valid char (List.mem_append_right _ List.mem_cons_self)
      rw [isDigitOf, decide_eq_true_eq] at last
      have order := readIn_le_readIn (Nat.le_of_lt larger) digits
      rw [readIn_snoc, readIn_snoc, Nat.add_right_cancel_iff]
      by_cases zero : readIn base digits = 0
      · have zero' := readIn_eq_zero positive zero other
        rw [zero, zero', Nat.zero_mul, Nat.zero_mul, Nat.zero_add]
        exact iff_of_true rfl last
      · have grows : readIn base digits * base < readIn other digits * other :=
          Nat.mul_lt_mul_of_le_of_lt order larger (by omega)
        have long : 1 * base ≤ readIn base digits * base :=
          Nat.mul_le_mul_right base (Nat.one_le_iff_ne_zero.mpr zero)
        constructor
        · omega
        · omega

/-- A digit other than 0 behind some others makes their value larger. -/
theorem readIn_lt_append (positive : 0 < base) (digits rest : List Char) {char : Char}
    (counts : 0 < charValue char) : readIn base digits < readIn base (digits ++ char :: rest) := by
  induction rest using List.reverseRecOn with
  | nil =>
      rw [readIn_snoc]
      have longer := Nat.le_mul_of_pos_right (readIn base digits) positive
      omega
  | append_singleton rest last ih =>
      have split : digits ++ char :: (rest ++ [last]) = digits ++ char :: rest ++ [last] := by
        rw [List.append_assoc, List.cons_append]
      have longer := Nat.le_mul_of_pos_right (readIn base (digits ++ char :: rest)) positive
      rw [split, readIn_snoc]
      omega

/-- The digits up to one that is not taken have the value of all only if they are all of them. -/
theorem readIn_takeWhile_eq_iff (positive : 0 < base) {takes : Char → Bool}
    (zeroTaken : ∀ char, charValue char = 0 → takes char = true) (digits : List Char) :
    readIn base (digits.takeWhile takes) = readIn base digits ↔ ∀ char ∈ digits, takes char := by
  constructor
  · intro same
    by_contra refused
    have left : digits.dropWhile takes ≠ [] := by
      rw [Ne, List.dropWhile_eq_nil_iff]
      exact refused
    have whole : digits.takeWhile takes ++ digits.dropWhile takes = digits :=
      List.takeWhile_append_dropWhile
    cases rest : digits.dropWhile takes with
    | nil => exact left rest
    | cons char rest' =>
        have stops : takes char ≠ true := by
          have first := List.head_dropWhile_not takes left
          simp only [rest, List.head_cons] at first
          rw [first]
          exact Bool.false_ne_true
        have counts : 0 < charValue char :=
          Nat.pos_of_ne_zero fun zero => stops (zeroTaken char zero)
        have grows := readIn_lt_append positive (digits.takeWhile takes) rest' counts
        rw [rest] at whole
        rw [whole, same] at grows
        exact Nat.lt_irrefl _ grows
  · intro all
    rw [List.takeWhile_eq_self_iff.mpr all]

end Bases

theorem int_marked {digits : List Char} (full : digits ≠ [])
    (valid : ∀ char ∈ digits, isDigitOf 16 char) :
    int 16 ('0' :: 'x' :: digits) = some (readIn 16 digits : Int) := by
  have solid : ∀ char ∈ '0' :: 'x' :: digits, isSpace char = false := by
    intro char member
    rcases List.mem_cons.mp member with rfl | member
    · rfl
    · rcases List.mem_cons.mp member with rfl | member
      · rfl
      · exact isSpace_eq_false_of_digit (Nat.le_of_ble_eq_true rfl) (valid char member)
  have bare := strip_append_spaces solid (List.forall_mem_nil _)
  have unmarked : dropMark 16 ('0' :: 'x' :: digits) = digits := by
    cases digits with
    | nil => exact absurd rfl full
    | cons char rest =>
        have digit := valid char List.mem_cons_self
        have other : char ≠ '_' := by
          rintro rfl
          exact absurd digit (by decide)
        unfold dropMark
        split
        case h_1 marked => exact absurd (List.cons.inj (List.cons.inj (List.cons.inj marked).2).2).1 other
        case h_2 marked => exact (List.cons.inj (List.cons.inj marked).2).2.symm
        case h_3 marked => exact absurd (List.cons.inj (List.cons.inj marked).2).1 (by decide)
        case h_4 marked => exact absurd (List.cons.inj (List.cons.inj marked).2).1 (by decide)
        case h_5 plain _ _ => exact absurd rfl (plain _ rfl)
  rw [List.append_nil] at bare
  rw [int, bare]
  change (numeral 16 (dropMark 16 ('0' :: 'x' :: digits))).map Int.ofNat = _
  rw [unmarked, numeral_digits (Nat.le_of_ble_eq_true rfl) valid full]
  rfl

end Xpedite.Lib
