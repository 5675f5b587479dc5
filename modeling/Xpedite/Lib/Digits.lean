import Mathlib.Algebra.Group.Int.Defs
import Mathlib.Algebra.Group.Nat.Defs
import Mathlib.Data.List.Basic

/-!
Numerals of any base are read back by a fold over their digits; hexadecimal ones
determine their number.
-/

namespace Xpedite.Lib

section Value

variable {α : Type} (value : α → Nat) (digit : Char → α) {base : Nat}

theorem foldl_toDigits (valid : 1 < base) (valued : ∀ n < base, value (digit n.digitChar) = n)
    (number : Nat) :
    ((Nat.toDigits base number).map digit).foldl (fun total next => total * base + value next) 0 =
      number := by
  induction number using Nat.strongRecOn with
  | ind number ih =>
      rw [Nat.toDigits_eq_if valid]
      split
      · rename_i small
        simp only [List.map_cons, List.map_nil, List.foldl_cons, List.foldl_nil,
          valued number small]
        omega
      · have earlier := ih (number / base) (Nat.div_lt_self (by omega) valid)
        have last := valued (number % base) (Nat.mod_lt _ (by omega))
        rw [List.map_append, List.foldl_append, earlier]
        simp only [List.map_cons, List.map_nil, List.foldl_cons, List.foldl_nil, last]
        exact Nat.div_add_mod' number base

theorem foldl_zeros {zero : α} (isZero : value zero = 0) (count : Nat) (digits : List α) :
    (List.replicate count zero ++ digits).foldl (fun total next => total * base + value next) 0 =
      digits.foldl (fun total next => total * base + value next) 0 := by
  induction count with
  | zero => rfl
  | succ count ih =>
      rw [List.replicate_succ, List.cons_append, List.foldl_cons, isZero, Nat.zero_mul]
      exact ih

end Value

theorem digitChar_of_mem_toDigits {base number : Nat} (valid : 1 < base) {char : Char}
    (member : char ∈ Nat.toDigits base number) : ∃ digit < base, char = digit.digitChar := by
  induction number using Nat.strongRecOn with
  | ind number ih =>
      rw [Nat.toDigits_eq_if valid] at member
      split at member
      · rename_i small
        exact ⟨number, small, List.mem_singleton.mp member⟩
      · rw [List.mem_append, List.mem_singleton] at member
        rcases member with earlier | rfl
        · exact ih (number / base) (Nat.div_lt_self (by omega) valid) earlier
        · exact ⟨number % base, Nat.mod_lt _ (by omega), rfl⟩

theorem digitChar_injective {n m : Nat} (smallLeft : n < 16) (smallRight : m < 16)
    (same : n.digitChar = m.digitChar) : n = m := by
  have table : ∀ n < 16, ∀ m < 16, n.digitChar = m.digitChar → n = m := by decide
  exact table n smallLeft m smallRight same

theorem toDigits_sixteen_injective {n m : Nat} (same : Nat.toDigits 16 n = Nat.toDigits 16 m) :
    n = m := by
  induction n using Nat.strongRecOn generalizing m with
  | ind n ih =>
      rw [Nat.toDigits_eq_if (by decide), Nat.toDigits_eq_if (b := 16) (n := m) (by decide)] at same
      by_cases smallLeft : n < 16
      · by_cases smallRight : m < 16
        · simp only [smallLeft, smallRight, ↓reduceIte, List.cons.injEq, and_true] at same
          exact digitChar_injective smallLeft smallRight same
        · simp only [smallLeft, smallRight, ↓reduceIte] at same
          have lengths := congrArg List.length same
          have positive := Nat.length_toDigits_pos (b := 16) (n := m / 16)
          simp only [List.length_append, List.length_singleton] at lengths
          omega
      · by_cases smallRight : m < 16
        · simp only [smallLeft, smallRight, ↓reduceIte] at same
          have lengths := congrArg List.length same
          have positive := Nat.length_toDigits_pos (b := 16) (n := n / 16)
          simp only [List.length_append, List.length_singleton] at lengths
          omega
        · simp only [smallLeft, smallRight, ↓reduceIte, List.append_singleton_inj] at same
          have quotients := ih (n / 16) (by omega) same.1
          have remainders := digitChar_injective (Nat.mod_lt n (by decide))
            (Nat.mod_lt m (by decide)) same.2
          omega

end Xpedite.Lib
