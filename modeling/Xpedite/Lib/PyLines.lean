import Xpedite.Lib.PyText

/-!
A text file as Python reads it: the newlines of other systems become plain ones, `splitlines` cuts
at each line boundary and `split` without an argument at blanks of any length.
-/

namespace Xpedite.Lib

def universalNewlines : List Char → List Char
  | '\r' :: '\n' :: rest => '\n' :: universalNewlines rest
  | '\r' :: rest => '\n' :: universalNewlines rest
  | char :: rest => char :: universalNewlines rest
  | [] => []

def isLineBoundary (char : Char) : Bool :=
  [10, 11, 12, 13, 28, 29, 30, 0x85, 0x2028, 0x2029].contains char.toNat

/-- `str.splitlines` for a text with plain newlines only. -/
def splitlines : List Char → List (List Char)
  | [] => []
  | char :: rest =>
      if isLineBoundary char then [] :: splitlines rest
      else
        match splitlines rest with
        | [] => [[char]]
        | line :: lines => (char :: line) :: lines

def words (text : List Char) : List (List Char) := (text.splitOnP isSpace).filter (· ≠ [])

theorem isSpace_of_isLineBoundary {char : Char} (boundary : isLineBoundary char = true) :
    isSpace char = true := by
  simp only [isLineBoundary, List.contains_eq_mem, decide_eq_true_eq, List.mem_cons,
    List.not_mem_nil, or_false] at boundary
  rcases boundary with code | code | code | code | code | code | code | code | code | code <;>
    simp [isSpace, code]

def Unbroken (text : List Char) : Prop := ∀ char ∈ text, isLineBoundary char = false

instance (text : List Char) : Decidable (Unbroken text) :=
  List.decidableBAll (fun char => isLineBoundary char = false) text

theorem Unbroken.append {first second : List Char} (one : Unbroken first) (other : Unbroken second) :
    Unbroken (first ++ second) := by
  intro char member
  rcases List.mem_append.mp member with inFirst | inSecond
  · exact one char inFirst
  · exact other char inSecond

theorem solid_of_all {text : List Char} (checked : text.all (fun char => !isSpace char) = true) :
    ∀ char ∈ text, isSpace char = false := by
  intro char member
  have passes := List.all_eq_true.mp checked char member
  simpa using passes

theorem unbroken_of_solid {text : List Char} (solid : ∀ char ∈ text, isSpace char = false) :
    Unbroken text := by
  intro char member
  by_contra boundary
  rw [Bool.not_eq_false] at boundary
  have space := isSpace_of_isLineBoundary boundary
  rw [solid char member] at space
  cases space

theorem universalNewlines_eq_self {text : List Char} (plain : '\r' ∉ text) :
    universalNewlines text = text := by
  induction text with
  | nil => rfl
  | cons char text ih =>
      rw [List.mem_cons, not_or] at plain
      rw [universalNewlines.eq_3 _ _ (fun rest same _ => plain.1 same.symm) fun same =>
        plain.1 same.symm, ih plain.2]

theorem splitlines_line {line rest : List Char} (unbroken : Unbroken line) :
    splitlines (line ++ '\n' :: rest) = line :: splitlines rest := by
  induction line with
  | nil => rw [List.nil_append, splitlines, if_pos (by decide)]
  | cons char line ih =>
      have first := unbroken char List.mem_cons_self
      rw [List.cons_append, splitlines, first, if_neg (by decide),
        ih fun other member => unbroken other (List.mem_cons_of_mem char member)]

theorem splitlines_flatMap {lines : List (List Char)} (unbroken : ∀ line ∈ lines, Unbroken line) :
    splitlines (universalNewlines (lines.flatMap fun line => line ++ ['\n'])) = lines := by
  have plain : '\r' ∉ lines.flatMap fun line => line ++ ['\n'] := by
    intro member
    obtain ⟨line, listed, inside⟩ := List.mem_flatMap.mp member
    rcases List.mem_append.mp inside with inLine | isEnd
    · cases unbroken line listed '\r' inLine
    · cases List.mem_singleton.mp isEnd
  rw [universalNewlines_eq_self plain]
  clear plain
  induction lines with
  | nil => rfl
  | cons line lines ih =>
      rw [List.forall_mem_cons] at unbroken
      rw [List.flatMap_cons, List.append_assoc, List.singleton_append,
        splitlines_line unbroken.1, ih unbroken.2]

section Words

theorem words_append_space {space : Char} (isBlank : isSpace space = true)
    (first second : List Char) : words (first ++ space :: second) = words first ++ words second := by
  rw [words, List.splitOnP_append_cons _ _ isBlank, List.filter_append, words, words]

theorem words_of_solid {word : List Char} (full : word ≠ [])
    (solid : ∀ char ∈ word, isSpace char = false) : words word = [word] := by
  rw [words, List.splitOnP_eq_singleton (by simpa using solid)]
  simp [full]

theorem solid_of_mem_splitOnP {text word : List Char} (member : word ∈ text.splitOnP isSpace) :
    ∀ char ∈ word, isSpace char = false := by
  induction text generalizing word with
  | nil => simp_all
  | cons first text ih =>
      rw [List.splitOnP_cons_eq_if_modifyHead] at member
      split at member
      case isTrue =>
        rcases List.mem_cons.mp member with rfl | later
        · simp
        · exact ih later
      case isFalse solid =>
        obtain ⟨head, others, split⟩ := List.exists_cons_of_ne_nil
          (List.splitOnP_ne_nil isSpace text)
        rw [split, List.modifyHead_cons] at member
        rw [split] at ih
        rcases List.mem_cons.mp member with rfl | later
        · rw [List.forall_mem_cons]
          exact ⟨by simpa using solid, ih List.mem_cons_self⟩
        · exact ih (List.mem_cons_of_mem head later)

theorem mem_words {text word : List Char} (member : word ∈ words text) :
    word ≠ [] ∧ ∀ char ∈ word, isSpace char = false := by
  obtain ⟨split, full⟩ := List.mem_filter.mp member
  exact ⟨by simpa using full, solid_of_mem_splitOnP split⟩

end Words

end Xpedite.Lib
