import Mathlib.Data.List.Basic

/-!
Text and its UTF-8 bytes, over lists.  Decoding is strict: a byte sequence that
is not the encoding of some text has no value.
-/

namespace Xpedite.Lib

def utf8 (text : List Char) : List UInt8 := text.flatMap String.utf8EncodeChar

def decodeUtf8 (bytes : List UInt8) : Option (List Char) :=
  bytes.toByteArray.utf8Decode?.map Array.toList

def IsAscii (text : List Char) : Prop := ∀ char ∈ text, char.val ≤ 127

instance (text : List Char) : Decidable (IsAscii text) :=
  inferInstanceAs (Decidable (∀ char ∈ text, char.val ≤ 127))

theorem utf8_append (first second : List Char) : utf8 (first ++ second) = utf8 first ++ utf8 second :=
  List.flatMap_append

theorem utf8_eq_utf8Encode (text : List Char) : text.utf8Encode = (utf8 text).toByteArray := rfl

theorem decodeUtf8_utf8 (text : List Char) : decodeUtf8 (utf8 text) = some text := by
  rw [decodeUtf8, ← utf8_eq_utf8Encode, List.utf8Decode?_utf8Encode]
  rfl

theorem toByteArray_injective {first second : List UInt8}
    (same : first.toByteArray = second.toByteArray) : first = second := by
  have bytes := congrArg (fun array => array.data.toList) same
  simpa using bytes

theorem utf8_of_decodeUtf8 {bytes : List UInt8} {text : List Char}
    (decoded : decodeUtf8 bytes = some text) : bytes = utf8 text := by
  rw [decodeUtf8, Option.map_eq_some_iff] at decoded
  obtain ⟨chars, isDecoded, rfl⟩ := decoded
  have valid : bytes.toByteArray.utf8Decode?.isSome := by rw [isDecoded]; rfl
  have encoded := ByteArray.utf8Encode_get_utf8Decode? (h := valid)
  simp only [isDecoded, Option.get_some] at encoded
  exact (toByteArray_injective encoded).symm

theorem length_utf8_cons (char : Char) (text : List Char) :
    (utf8 (char :: text)).length = char.utf8Size + (utf8 text).length := by
  rw [utf8, List.flatMap_cons, List.length_append, String.length_utf8EncodeChar]
  rfl

theorem length_le_utf8 (text : List Char) : text.length ≤ (utf8 text).length := by
  induction text with
  | nil => exact Nat.le_refl _
  | cons char text ih =>
      have positive := char.utf8Size_pos
      rw [length_utf8_cons, List.length_cons]
      omega

theorem length_utf8_eq_iff (text : List Char) :
    (utf8 text).length = text.length ↔ IsAscii text := by
  induction text with
  | nil => exact iff_of_true rfl (by simp [IsAscii])
  | cons char text ih =>
      have positive := char.utf8Size_pos
      have longer := length_le_utf8 text
      have single := Char.utf8Size_eq_one_iff (c := char)
      rw [length_utf8_cons, List.length_cons]
      simp only [IsAscii, List.mem_cons, forall_eq_or_imp] at ih ⊢
      rw [← ih, ← single]
      omega

theorem utf8EncodeChar_cancel {first second : Char} {later rest : List UInt8}
    (same : String.utf8EncodeChar first ++ later = String.utf8EncodeChar second ++ rest) :
    first = second ∧ later = rest := by
  have arrays := congrArg List.toByteArray same
  rw [List.toByteArray_append, List.toByteArray_append, ← List.utf8Encode_singleton,
    ← List.utf8Encode_singleton] at arrays
  have decoded := congrArg (fun array => ByteArray.utf8DecodeChar? array 0) arrays
  simp only [List.utf8DecodeChar?_utf8Encode_singleton_append, Option.some.injEq] at decoded
  subst decoded
  exact ⟨rfl, List.append_cancel_left same⟩

theorem utf8_cancel {first second : List Char} {later rest : List UInt8}
    (length : first.length = second.length) (same : utf8 first ++ later = utf8 second ++ rest) :
    first = second ∧ later = rest := by
  induction first generalizing second with
  | nil =>
      obtain rfl := List.length_eq_zero_iff.mp length.symm
      exact ⟨rfl, same⟩
  | cons char text ih =>
      cases second with
      | nil => simp at length
      | cons other others =>
          simp only [utf8, List.flatMap_cons, List.append_assoc] at same
          obtain ⟨rfl, tails⟩ := utf8EncodeChar_cancel same
          obtain ⟨rfl, ends⟩ := ih (by simpa using length) tails
          exact ⟨rfl, ends⟩

theorem utf8_take {text : List Char} (ascii : IsAscii text) (count : Nat) :
    (utf8 text).take count = utf8 (text.take count) := by
  induction text generalizing count with
  | nil => simp [utf8]
  | cons char text ih =>
      have rest : IsAscii text := fun other member => ascii other (List.mem_cons_of_mem _ member)
      have single := Char.utf8Size_eq_one_iff.mpr (ascii char List.mem_cons_self)
      have bytes := String.utf8EncodeChar_eq_singleton single
      cases count with
      | zero => simp [utf8]
      | succ count =>
          have tail := ih rest count
          simp only [utf8] at tail
          simp only [utf8, List.flatMap_cons, bytes, List.singleton_append, List.take_succ_cons, tail]

end Xpedite.Lib
