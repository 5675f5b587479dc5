import Mathlib.Data.List.Basic
import Xpedite.Lib.Digits
import Xpedite.Transport.DatagramCore

/-!
What survives the client's framing, which counts characters where the target
counts bytes and which sends with a single call.
-/

namespace Xpedite.Transport.Datagram

open Lib

theorem toNat_of_isDigit {char : Char} (digit : char.isDigit) :
    48 ≤ char.toNat ∧ char.toNat ≤ 57 := by
  rw [Char.isDigit_iff_toNat] at digit
  exact digit

theorem isDigitOf_of_isDigit {char : Char} (digit : char.isDigit) : isDigitOf 10 char := by
  have bounds := toNat_of_isDigit digit
  rw [isDigitOf, charValue, if_pos bounds]
  exact decide_eq_true (by omega)

theorem int_of_isDigit {text : List Char} (digits : ∀ char ∈ text, char.isDigit)
    (full : text ≠ []) :
    int 10 text =
      some (Int.ofNat (text.foldl (fun total char => total * 10 + charValue char) 0)) := by
  have blank : ∀ char ∈ ([] : List Char), isSpace char := by simp
  have read := int_digits (by decide)
    (fun char member => isDigitOf_of_isDigit (digits char member)) full blank
  rwa [List.append_nil] at read

theorem lengthDigits_isDigit (length : Nat) : ∀ char ∈ lengthDigits length, char.isDigit := by
  intro char member
  rw [lengthDigits, List.leftpad, List.mem_append, List.mem_replicate] at member
  rcases member with ⟨-, rfl⟩ | digit
  · decide
  · exact Nat.isDigit_of_mem_toDigits (by decide) (by decide) digit

theorem length_lengthDigits (length : Nat) :
    (lengthDigits length).length = max 8 (Nat.toDigits 10 length).length := by
  rw [lengthDigits, List.length_leftpad]

theorem length_lengthDigits_eq_iff (length : Nat) :
    (lengthDigits length).length = 8 ↔ length < 10 ^ 8 := by
  have digits := Nat.length_toDigits_le_iff (b := 10) (n := length) (k := 8)
    (by decide) (by decide)
  rw [length_lengthDigits, ← digits]
  omega

theorem value_lengthDigits (length : Nat) :
    (lengthDigits length).foldl (fun total char => total * 10 + charValue char) 0 = length := by
  have plain := foldl_toDigits charValue id (show 1 < 10 by decide) (by decide) length
  rw [List.map_id] at plain
  rw [lengthDigits, List.leftpad, foldl_zeros charValue (by decide), plain]

theorem int_lengthDigits (length : Nat) :
    int 10 (lengthDigits length) = some (Int.ofNat length) := by
  have full : lengthDigits length ≠ [] := by
    apply List.ne_nil_of_length_pos
    rw [length_lengthDigits]
    omega
  rw [int_of_isDigit (lengthDigits_isDigit length) full, value_lengthDigits]

theorem isAscii_of_isDigit {text : List Char} (digits : ∀ char ∈ text, char.isDigit) :
    IsAscii text := by
  intro char member
  have bounds := toNat_of_isDigit (digits char member)
  exact UInt32.le_iff_toNat_le.mpr (Nat.le_trans bounds.2 (by decide))

theorem Stream.limit_le (stream : Stream) (size : Nat) : stream.limit size ≤ size := by
  unfold Stream.limit
  split
  · exact Nat.le_refl _
  · exact Nat.min_le_right _ _

theorem Stream.limit_pos (stream : Stream) {size : Nat} (positive : 0 < size) :
    0 < stream.limit size := by
  unfold Stream.limit
  split
  · exact positive
  · omega

theorem readLoop_sound {length rounds : Nat} {data : List Char} {stream : Stream}
    {text : List Char} {left : Stream} (enough : length ≤ data.length + rounds)
    (done : readLoop length rounds data stream = .ok (text, left)) :
    length ≤ text.length ∧
      ∃ added, text = data ++ added ∧ stream.unread = utf8 added ++ left.unread := by
  induction rounds generalizing data stream with
  | zero =>
      simp only [readLoop, Except.ok.injEq, Prod.mk.injEq] at done
      obtain ⟨rfl, rfl⟩ := done
      exact ⟨enough, [], (List.append_nil _).symm, rfl⟩
  | succ rounds ih =>
      rw [readLoop] at done
      split at done
      · rename_i short
        simp only [Stream.receive, ensureStr] at done
        cases decoded : decodeUtf8 (stream.unread.take (stream.limit (length - data.length))) with
        | none => simp [decoded] at done
        | some block =>
            simp only [decoded] at done
            split at done
            · cases done
            · rename_i full
              have positive := List.length_pos_of_ne_nil full
              have counted : length ≤ (data ++ block).length + rounds := by
                rw [List.length_append]
                omega
              obtain ⟨long, added, rfl, rest⟩ := ih counted done
              refine ⟨long, block ++ added, List.append_assoc _ _ _, ?_⟩
              rw [utf8_append, List.append_assoc, ← rest, ← utf8_of_decodeUtf8 decoded,
                List.take_append_drop]
      · simp only [Except.ok.injEq, Prod.mk.injEq] at done
        obtain ⟨rfl, rfl⟩ := done
        exact ⟨by omega, [], (List.append_nil _).symm, rfl⟩

theorem readAtleast_sound {length : Nat} {stream left : Stream} {text : List Char}
    (done : readAtleast stream length = .ok (text, left)) :
    length ≤ text.length ∧ stream.unread = utf8 text ++ left.unread := by
  obtain ⟨long, added, rfl, rest⟩ := readLoop_sound (by omega) done
  exact ⟨long, rest⟩

theorem take_utf8 {text : List Char} (ascii : IsAscii text) (further : List UInt8) {count : Nat}
    (within : count ≤ text.length) :
    (utf8 text ++ further).take count = utf8 (text.take count) := by
  have bytes := (length_utf8_eq_iff text).mpr ascii
  rw [List.take_append_of_le_length (by omega), utf8_take ascii]

theorem drop_utf8 {text : List Char} (ascii : IsAscii text) (further : List UInt8) {count : Nat}
    (within : count ≤ text.length) :
    (utf8 text ++ further).drop count = utf8 (text.drop count) ++ further := by
  have whole : utf8 (text.take count) ++ (utf8 text ++ further).drop count =
      utf8 (text.take count) ++ (utf8 (text.drop count) ++ further) := by
    rw [← List.append_assoc, ← utf8_append, List.take_append_drop,
      ← take_utf8 ascii further within, List.take_append_drop]
  exact List.append_cancel_left whole

theorem readLoop_ascii {text : List Char} (ascii : IsAscii text) (further : List UInt8)
    {length rounds : Nat} {data : List Char} {stream : Stream}
    (enough : length ≤ data.length + rounds) (total : data.length + text.length = length)
    (unread : stream.unread = utf8 text ++ further) :
    ∃ chunks, readLoop length rounds data stream = .ok (data ++ text, ⟨further, chunks⟩) := by
  induction rounds generalizing data stream text with
  | zero =>
      obtain rfl : text = [] := List.length_eq_zero_iff.mp (by omega)
      obtain rfl : stream.unread = further := unread
      exact ⟨stream.chunks, by rw [readLoop, List.append_nil]⟩
  | succ rounds ih =>
      rw [readLoop]
      split
      · rename_i short
        have within : stream.limit (length - data.length) ≤ text.length :=
          Nat.le_trans (stream.limit_le _) (by omega)
        have positive := stream.limit_pos (Nat.sub_pos_of_lt short)
        simp only [Stream.receive, ensureStr]
        generalize stream.limit (length - data.length) = count at within positive
        have counted : (text.take count).length = count := List.length_take_of_le within
        have full : text.take count ≠ [] := by
          apply List.ne_nil_of_length_pos
          omega
        rw [unread, take_utf8 ascii further within, drop_utf8 ascii further within,
          decodeUtf8_utf8]
        simp only [full, if_false]
        have rest : IsAscii (text.drop count) :=
          fun char member => ascii char (List.mem_of_mem_drop member)
        have whole : data ++ text = (data ++ text.take count) ++ text.drop count := by
          rw [List.append_assoc, List.take_append_drop]
        rw [whole]
        apply ih rest
        · rw [List.length_append]
          omega
        · rw [List.length_append, List.length_drop]
          omega
        · rfl
      · obtain rfl : text = [] := List.length_eq_zero_iff.mp (by omega)
        obtain rfl : stream.unread = further := unread
        exact ⟨stream.chunks, by rw [List.append_nil]⟩

theorem readAtleast_ascii {text : List Char} (ascii : IsAscii text) (further : List UInt8)
    (chunks : List Nat) :
    ∃ left, readAtleast ⟨utf8 text ++ further, chunks⟩ text.length = .ok (text, ⟨further, left⟩) :=
  readLoop_ascii ascii further (by omega) (by simp) rfl

theorem responseText_eq (returnCode : ReturnCode) (payload : List Char) :
    ∃ digit : Char, digit.isDigit ∧
      responseText returnCode payload = ['r', 'c', '=', digit, '|'] ++ payload := by
  cases returnCode with
  | success => exact ⟨'0', by decide, rfl⟩
  | failure => exact ⟨'1', by decide, rfl⟩

theorem length_responseText (returnCode : ReturnCode) (payload : List Char) :
    (responseText returnCode payload).length = payload.length + 5 := by
  obtain ⟨digit, -, text⟩ := responseText_eq returnCode payload
  rw [text, List.length_append, Nat.add_comm]
  rfl

theorem isAscii_responseText {returnCode : ReturnCode} {payload : List Char}
    (ascii : IsAscii payload) : IsAscii (responseText returnCode payload) := by
  obtain ⟨digit, isDigit, text⟩ := responseText_eq returnCode payload
  have single : IsAscii [digit] := isAscii_of_isDigit (by simpa using isDigit)
  rw [text]
  simp only [IsAscii, List.mem_append, List.mem_cons, List.not_mem_nil] at ascii single ⊢
  rintro char ((rfl | rfl | rfl | rfl | rfl | impossible) | member)
  · decide
  · decide
  · decide
  · exact single char (.inl rfl)
  · decide
  · exact impossible.elim
  · exact ascii char member

theorem readFrame_digits {digits : List Char} (isDigits : ∀ char ∈ digits, char.isDigit)
    (eight : digits.length = 8) {frameLen : Nat} (value : int 10 digits = some (Int.ofNat frameLen))
    (rest : List UInt8) (chunks : List Nat) :
    ∃ left, readFrame ⟨utf8 digits ++ rest, chunks⟩ =
      if 0 < frameLen then readAtleast ⟨rest, left⟩ frameLen else .ok ([], ⟨rest, left⟩) := by
  obtain ⟨left, read⟩ := readAtleast_ascii (isAscii_of_isDigit isDigits) rest chunks
  refine ⟨left, ?_⟩
  rw [eight] at read
  rw [readFrame, hdrLen, read]
  simp only [eight, ne_eq, not_true_eq_false, if_false, value, gt_iff_lt, Int.ofNat_eq_natCast,
    Int.natCast_pos, Int.toNat_natCast]

/-- The client gets back the text of a response and stands at the bytes after it. -/
def ReadsBack (returnCode : ReturnCode) (payload : List Char) (further : List UInt8)
    (chunks : List Nat) : Prop :=
  ∃ left, readFrame ⟨encodeResponse returnCode payload ++ further, chunks⟩ =
    .ok (responseText returnCode payload, ⟨further, left⟩)

theorem readsBack_short_iff {returnCode : ReturnCode} {payload : List Char}
    (short : (utf8 payload).length + 5 < 10 ^ 8) (further : List UInt8) (chunks : List Nat) :
    ReadsBack returnCode payload further chunks ↔ IsAscii payload := by
  have eight := (length_lengthDigits_eq_iff _).mpr short
  have positive : 0 < (utf8 payload).length + 5 := by omega
  obtain ⟨left, read⟩ := readFrame_digits (lengthDigits_isDigit _) eight (int_lengthDigits _)
    (utf8 (responseText returnCode payload) ++ further) chunks
  rw [← List.append_assoc, if_pos positive] at read
  rw [ReadsBack, encodeResponse, read, ← length_utf8_eq_iff]
  constructor
  · rintro ⟨after, done⟩
    have long := (readAtleast_sound done).1
    have fewer := length_le_utf8 payload
    rw [length_responseText] at long
    omega
  · intro same
    have ascii := (length_utf8_eq_iff payload).mp same
    rw [same, ← length_responseText returnCode]
    exact readAtleast_ascii (isAscii_responseText ascii) further left

theorem not_readsBack_long {returnCode : ReturnCode} {payload : List Char}
    (long : ¬(utf8 payload).length + 5 < 10 ^ 8) (further : List UInt8) (chunks : List Nat) :
    ¬ReadsBack returnCode payload further chunks := by
  rw [← length_lengthDigits_eq_iff] at long
  have least := length_lengthDigits ((utf8 payload).length + 5)
  have isDigits := lengthDigits_isDigit ((utf8 payload).length + 5)
  rw [ReadsBack, encodeResponse]
  generalize lengthDigits ((utf8 payload).length + 5) = digits at long least isDigits
  have front : ∀ char ∈ digits.take 8, char.isDigit :=
    fun char member => isDigits char (List.mem_of_mem_take member)
  have eight : (digits.take 8).length = 8 := List.length_take_of_le (by omega)
  obtain ⟨digit, others, back⟩ : ∃ digit others, digits.drop 8 = digit :: others := by
    apply List.exists_cons_of_ne_nil
    apply List.ne_nil_of_length_pos
    rw [List.length_drop]
    omega
  have isDigit : digit.isDigit := by
    apply isDigits
    apply List.mem_of_mem_drop
    rw [back]
    exact List.mem_cons_self
  obtain ⟨left, read⟩ := readFrame_digits front eight
    (int_of_isDigit front (List.ne_nil_of_length_pos (by omega)))
    (utf8 (digit :: others) ++ utf8 (responseText returnCode payload) ++ further) chunks
  rw [← List.append_assoc, ← List.append_assoc, ← back, ← utf8_append, List.take_append_drop]
    at read
  rw [read]
  obtain ⟨code, -, text⟩ := responseText_eq returnCode payload
  rintro ⟨after, done⟩
  split at done
  · have found := (readAtleast_sound done).2
    rw [back, text] at found
    have heads := (utf8EncodeChar_cancel
      (by simpa only [utf8, List.flatMap_cons, List.append_assoc, List.cons_append] using found)).1
    rw [heads] at isDigit
    exact absurd isDigit (by decide)
  · rw [text] at done
    cases done

theorem readsBack_iff (returnCode : ReturnCode) (payload : List Char) (further : List UInt8)
    (chunks : List Nat) :
    ReadsBack returnCode payload further chunks ↔
      IsAscii payload ∧ (utf8 payload).length + 5 < 10 ^ 8 := by
  by_cases short : (utf8 payload).length + 5 < 10 ^ 8
  · simp only [readsBack_short_iff short, short, and_true]
  · simp only [not_readsBack_long short, short, and_false]

/-- The stream gets a length of eight digits and that many bytes, which are the message's. -/
def PutsFrame (accepted : Nat) (msg : List Char) : Prop :=
  ∃ digits, digits.length = 8 ∧ (∀ char ∈ digits, char.isDigit) ∧
    int 10 digits = some (Int.ofNat (utf8 msg).length) ∧ send accepted msg = utf8 digits ++ utf8 msg

theorem foldl_digits_lt (total : Nat) (text : List Char) (digits : ∀ char ∈ text, char.isDigit) :
    text.foldl (fun total char => total * 10 + charValue char) total <
      (total + 1) * 10 ^ text.length := by
  induction text generalizing total with
  | nil => simp
  | cons char rest ih =>
      have bounds := toNat_of_isDigit (digits char List.mem_cons_self)
      have later := ih (total * 10 + charValue char)
        fun other member => digits other (List.mem_cons_of_mem _ member)
      rw [List.foldl_cons, List.length_cons, Nat.pow_succ, Nat.mul_comm (10 ^ _) 10,
        ← Nat.mul_assoc]
      apply Nat.lt_of_lt_of_le later
      apply Nat.mul_le_mul_right
      rw [charValue, if_pos bounds]
      omega

theorem int_lt_of_eight {digits : List Char} (isDigits : ∀ char ∈ digits, char.isDigit)
    (eight : digits.length = 8) {number : Nat} (value : int 10 digits = some (Int.ofNat number)) :
    number < 10 ^ 8 := by
  have bound := foldl_digits_lt 0 digits isDigits
  rw [int_of_isDigit isDigits (List.ne_nil_of_length_pos (by omega)), Option.some_inj] at value
  obtain rfl := Int.ofNat.inj value
  rwa [eight, Nat.zero_add, Nat.one_mul] at bound

theorem PutsFrame.short {accepted : Nat} {msg : List Char} (puts : PutsFrame accepted msg) :
    (utf8 msg).length < 10 ^ 8 := by
  obtain ⟨digits, eight, isDigits, value, -⟩ := puts
  exact int_lt_of_eight isDigits eight value

theorem length_encode {msg : List Char} (short : msg.length < 10 ^ 8) :
    (utf8 (encode msg)).length = 8 + (utf8 msg).length := by
  have ascii := (length_utf8_eq_iff _).mpr (isAscii_of_isDigit (lengthDigits_isDigit msg.length))
  rw [encode, utf8_append, List.length_append, ascii, (length_lengthDigits_eq_iff _).mpr short]

theorem putsFrame_iff (accepted : Nat) (msg : List Char) :
    PutsFrame accepted msg ↔
      IsAscii msg ∧ msg.length < 10 ^ 8 ∧ msg.length + 8 ≤ accepted := by
  constructor
  · intro puts
    have fewer := length_le_utf8 msg
    have short : msg.length < 10 ^ 8 := Nat.lt_of_le_of_lt fewer puts.short
    obtain ⟨digits, eight, isDigits, value, sent⟩ := puts
    have lengths := congrArg List.length sent
    rw [send, List.length_take, length_encode short, List.length_append,
      (length_utf8_eq_iff _).mpr (isAscii_of_isDigit isDigits), eight] at lengths
    have whole : (utf8 (encode msg)).length ≤ accepted := by
      rw [length_encode short]
      omega
    rw [send, List.take_of_length_le whole, encode, utf8_append] at sent
    have header := (length_lengthDigits_eq_iff _).mpr short
    obtain ⟨rfl, -⟩ := utf8_cancel (by omega) sent
    rw [int_lengthDigits, Option.some_inj] at value
    have same := Int.ofNat.inj value
    rw [length_encode short] at whole
    exact ⟨(length_utf8_eq_iff msg).mp same.symm, short, by omega⟩
  · rintro ⟨ascii, short, enough⟩
    have same := (length_utf8_eq_iff msg).mpr ascii
    refine ⟨lengthDigits msg.length, (length_lengthDigits_eq_iff _).mpr short,
      lengthDigits_isDigit _, ?_, ?_⟩
    · rw [int_lengthDigits, same]
    · have whole : (utf8 (encode msg)).length ≤ accepted := by
        rw [length_encode short]
        omega
      rw [send, List.take_of_length_le whole, encode, utf8_append]

/--
Responses survive any chunking, and messages any socket that takes them whole,
exactly when they are ASCII and short enough for the header.
-/
theorem framing_survives_iff (returnCode : ReturnCode) (payload : List Char)
    (further : List UInt8) (chunks : List Nat) (accepted : Nat) (msg : List Char) :
    (ReadsBack returnCode payload further chunks ↔
      IsAscii payload ∧ (utf8 payload).length + 5 < 10 ^ 8) ∧
    (PutsFrame accepted msg ↔
      IsAscii msg ∧ msg.length < 10 ^ 8 ∧ msg.length + 8 ≤ accepted) :=
  ⟨readsBack_iff returnCode payload further chunks, putsFrame_iff accepted msg⟩

theorem not_survives_accented :
    ¬ReadsBack .success "é".toList [] [] ∧ ¬PutsFrame 100 "é".toList ∧
      ¬PutsFrame 9 "hi".toList := by
  rw [readsBack_iff, putsFrame_iff, putsFrame_iff]
  have accented : ¬IsAscii "é".toList := by
    intro ascii
    exact absurd (ascii 'é' (by simp)) (by decide)
  refine ⟨fun both => accented both.1, fun all => accented all.1, fun all => ?_⟩
  exact absurd all.2.2 (by decide)

end Xpedite.Transport.Datagram
