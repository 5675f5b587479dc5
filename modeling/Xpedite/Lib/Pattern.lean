import Mathlib.Data.List.TakeWhile

/-!
Regular expressions as Python's `re` takes them.  `found` lists the ways to match a pattern at the
start of a text in the order in which a backtracking matcher tries them; the first one counts.
No group stands inside an option or an alternative here, so each group has a text.
-/

namespace Xpedite.Lib

inductive Pattern where
  | literal (text : List Char)
  | one (accepts : Char → Bool)
  -- as many as there are first, or as few as possible
  | many (accepts : Char → Bool)
  | few (accepts : Char → Bool)
  | seq (first second : Pattern)
  | alt (first second : Pattern)
  | optional (pattern : Pattern)
  | group (pattern : Pattern)

structure Found where
  matched : List Char
  groups : List (List Char)
  rest : List Char
  deriving DecidableEq

namespace Found

def consume (char : Char) (found : Found) : Found := { found with matched := char :: found.matched }

def append (first second : Found) : Found :=
  ⟨first.matched ++ second.matched, first.groups ++ second.groups, second.rest⟩

def grouped (found : Found) : Found := { found with groups := found.matched :: found.groups }

def extend (behind : List Char) (found : Found) : Found :=
  { found with rest := found.rest ++ behind }

end Found

namespace Pattern

def between (low high char : Char) : Bool :=
  low.toNat ≤ char.toNat && char.toNat ≤ high.toNat

def dot (char : Char) : Bool := char != '\n'

def many1 (accepts : Char → Bool) : Pattern := seq (one accepts) (many accepts)

def longest (accepts : Char → Bool) : List Char → List Found
  | [] => [⟨[], [], []⟩]
  | char :: rest =>
      if accepts char then (longest accepts rest).map (.consume char) ++ [⟨[], [], char :: rest⟩]
      else [⟨[], [], char :: rest⟩]

def shortest (accepts : Char → Bool) : List Char → List Found
  | [] => [⟨[], [], []⟩]
  | char :: rest =>
      ⟨[], [], char :: rest⟩ ::
        if accepts char then (shortest accepts rest).map (.consume char) else []

def found : Pattern → List Char → List Found
  | literal wanted, text =>
      if wanted.isPrefixOf text then [⟨wanted, [], text.drop wanted.length⟩] else []
  | one _, [] => []
  | one accepts, char :: rest => if accepts char then [⟨[char], [], rest⟩] else []
  | many accepts, text => longest accepts text
  | few accepts, text => shortest accepts text
  | seq first second, text =>
      (found first text).flatMap fun before => (found second before.rest).map before.append
  | alt first second, text => found first text ++ found second text
  | optional pattern, text => found pattern text ++ [⟨[], [], text⟩]
  | group pattern, text => (found pattern text).map .grouped

section Matches

variable (accepts : Char → Bool) (char : Char) (rest text : List Char) (first second : Pattern)

theorem longest_cons :
    longest accepts (char :: rest) =
      if accepts char then (longest accepts rest).map (.consume char) ++ [⟨[], [], char :: rest⟩]
      else [⟨[], [], char :: rest⟩] :=
  rfl

theorem shortest_cons :
    shortest accepts (char :: rest) = ⟨[], [], char :: rest⟩ ::
      if accepts char then (shortest accepts rest).map (.consume char) else [] :=
  rfl

theorem found_literal (wanted : List Char) :
    (literal wanted).found text =
      if wanted.isPrefixOf text then [⟨wanted, [], text.drop wanted.length⟩] else [] :=
  rfl

theorem found_one :
    (one accepts).found (char :: rest) = if accepts char then [⟨[char], [], rest⟩] else [] :=
  rfl

theorem found_few : (few accepts).found text = shortest accepts text :=
  rfl

theorem found_seq :
    (seq first second).found text =
      (first.found text).flatMap fun before => (second.found before.rest).map before.append :=
  rfl

theorem found_alt : (alt first second).found text = first.found text ++ second.found text :=
  rfl

theorem found_optional : (optional first).found text = first.found text ++ [⟨[], [], text⟩] :=
  rfl

theorem found_group : (group first).found text = (first.found text).map .grouped :=
  rfl

end Matches

def first (pattern : Pattern) (text : List Char) : Option Found := (found pattern text).head?

section Local

def Avoids (char : Char) : Pattern → Prop
  | literal wanted => char ∉ wanted
  | one accepts => accepts char = false
  | many accepts => accepts char = false
  | few accepts => accepts char = false
  | seq first second => Avoids char first ∧ Avoids char second
  | alt first second => Avoids char first ∧ Avoids char second
  | optional pattern => Avoids char pattern
  | group pattern => Avoids char pattern

variable {behind : List Char}

theorem longest_append {accepts : Char → Bool} (stops : ∀ char ∈ behind.head?, accepts char = false)
    (text : List Char) :
    longest accepts (text ++ behind) = (longest accepts text).map (.extend behind) := by
  induction text with
  | nil =>
      cases behind with
      | nil => rfl
      | cons char behind =>
          have refused := stops char rfl
          simp [longest, refused, Found.extend]
  | cons char rest ih =>
      rw [List.cons_append, longest_cons, longest_cons]
      cases accepts char with
      | true =>
          simp only [if_true, ih, List.map_append, List.map_map]
          rfl
      | false => rfl

theorem shortest_append {accepts : Char → Bool}
    (stops : ∀ char ∈ behind.head?, accepts char = false) (text : List Char) :
    shortest accepts (text ++ behind) = (shortest accepts text).map (.extend behind) := by
  induction text with
  | nil =>
      cases behind with
      | nil => rfl
      | cons char behind =>
          have refused := stops char rfl
          simp [shortest, refused, Found.extend]
  | cons char rest ih =>
      rw [List.cons_append, shortest_cons, shortest_cons]
      cases accepts char with
      | true =>
          simp only [if_true, ih, List.map_cons, List.map_map]
          rfl
      | false => rfl

theorem isPrefixOf_append {wanted : List Char} (stops : ∀ char ∈ behind.head?, char ∉ wanted)
    (text : List Char) : wanted.isPrefixOf (text ++ behind) = wanted.isPrefixOf text := by
  induction text generalizing wanted with
  | nil =>
      cases behind with
      | nil => rfl
      | cons char behind =>
          cases wanted with
          | nil => rfl
          | cons first wanted =>
              have other : first ≠ char := fun same => stops char rfl (same ▸ List.mem_cons_self)
              simp [List.isPrefixOf, other]
  | cons char rest ih =>
      cases wanted with
      | nil => rfl
      | cons first wanted =>
          rw [List.cons_append, List.isPrefixOf, List.isPrefixOf, ih]
          exact fun char member inside => stops char member (List.mem_cons_of_mem first inside)

/-- What stands from a character on that the pattern avoids makes no difference to its matches. -/
theorem found_append (pattern : Pattern) (avoids : ∀ char ∈ behind.head?, pattern.Avoids char)
    (text : List Char) :
    pattern.found (text ++ behind) = (pattern.found text).map (.extend behind) := by
  induction pattern generalizing text with
  | literal wanted =>
      rw [found_literal, found_literal, isPrefixOf_append avoids]
      split
      case isTrue starts =>
        have short := (List.isPrefixOf_iff_prefix.mp starts).length_le
        rw [List.drop_append_of_le_length short]
        rfl
      case isFalse => rfl
  | one accepts =>
      cases text with
      | nil =>
          cases behind with
          | nil => rfl
          | cons char behind =>
              have refused : accepts char = false := avoids char rfl
              simp [found, refused]
      | cons char rest =>
          rw [List.cons_append, found_one, found_one]
          split
          · rfl
          · rfl
  | many accepts => exact longest_append avoids text
  | few accepts => exact shortest_append avoids text
  | seq first second ihFirst ihSecond =>
      have further : ∀ before : Found, (second.found (before.rest ++ behind)).map
          (Found.extend behind before).append =
          ((second.found before.rest).map before.append).map (.extend behind) := by
        intro before
        rw [ihSecond fun char member => (avoids char member).2, List.map_map, List.map_map]
        rfl
      rw [found_seq, found_seq, ihFirst fun char member => (avoids char member).1,
        List.flatMap_map, List.map_flatMap]
      exact congrArg (fun next => (found first text).flatMap next) (funext further)
  | alt first second ihFirst ihSecond =>
      rw [found_alt, found_alt, ihFirst fun char member => (avoids char member).1,
        ihSecond fun char member => (avoids char member).2, List.map_append]
  | optional pattern ih =>
      rw [found_optional, found_optional, ih avoids, List.map_append]
      rfl
  | group pattern ih =>
      rw [found_group, found_group, ih avoids, List.map_map, List.map_map]
      rfl

theorem first_append (pattern : Pattern) (avoids : ∀ char ∈ behind.head?, pattern.Avoids char)
    (text : List Char) :
    pattern.first (text ++ behind) = (pattern.first text).map (.extend behind) := by
  rw [first, first, found_append pattern avoids, List.head?_map]

end Local

section First

variable (pattern other : Pattern) (text : List Char)

theorem first_alt : (alt pattern other).first text = (pattern.first text).or (other.first text) := by
  rw [first, found_alt, List.head?_append]
  rfl

theorem first_group : (group pattern).first text = (pattern.first text).map .grouped := by
  rw [first, found_group, List.head?_map]
  rfl

theorem first_literal_append (wanted : List Char) :
    ((literal wanted).seq pattern).first (wanted ++ text) =
      (pattern.first text).map (Found.append ⟨wanted, [], text⟩) := by
  have starts : wanted.isPrefixOf (wanted ++ text) = true :=
    List.isPrefixOf_iff_prefix.mpr (List.prefix_append wanted text)
  rw [first, found_seq, found_literal, if_pos starts, List.drop_left, List.flatMap_singleton,
    List.head?_map]
  rfl

theorem first_literal_of_not_prefix {wanted : List Char} (misses : ¬wanted <+: text) :
    ((literal wanted).seq pattern).first text = none := by
  rw [first, found_seq, found_literal,
    if_neg fun starts => misses (List.isPrefixOf_iff_prefix.mp starts)]
  rfl

theorem first_optional :
    ((optional pattern).seq other).first text =
      ((pattern.seq other).first text).or (other.first text) := by
  have whole : other.found text =
      (other.found text).map (Found.append ⟨[], [], text⟩) := (List.map_id _).symm
  rw [first, first, first, found_seq, found_optional, found_seq, List.flatMap_append,
    List.flatMap_singleton, List.head?_append, ← whole]

theorem exists_longest (accepts : Char → Bool) :
    ∃ others, longest accepts text =
      ⟨text.takeWhile accepts, [], text.dropWhile accepts⟩ :: others := by
  induction text with
  | nil => exact ⟨[], rfl⟩
  | cons char rest ih =>
      obtain ⟨others, found⟩ := ih
      rw [longest_cons, List.takeWhile_cons, List.dropWhile_cons]
      cases accepts char with
      | true =>
          rw [found]
          exact ⟨_, rfl⟩
      | false => exact ⟨[], rfl⟩

theorem first_many (accepts : Char → Bool) :
    (many accepts).first text = some ⟨text.takeWhile accepts, [], text.dropWhile accepts⟩ := by
  obtain ⟨others, found⟩ := exists_longest text accepts
  exact congrArg List.head? found

theorem first_many1 (accepts : Char → Bool) :
    (many1 accepts).first text =
      if text.takeWhile accepts = [] then none
      else some ⟨text.takeWhile accepts, [], text.dropWhile accepts⟩ := by
  cases text with
  | nil => rfl
  | cons char rest =>
      rw [many1, first, found_seq, found_one, List.takeWhile_cons, List.dropWhile_cons]
      cases accepts char with
      | true =>
          have further := first_many rest accepts
          rw [first] at further
          rw [if_pos rfl, List.flatMap_singleton, List.head?_map, further]
          rfl
      | false => rfl

theorem exists_shortest {accepts : Char → Bool} {stop : Char} {before : List Char}
    (behind : List Char) (accepted : ∀ char ∈ before, accepts char) (absent : stop ∉ before) :
    ∃ earlier later, shortest accepts (before ++ stop :: behind) =
        earlier ++ ⟨before, [], stop :: behind⟩ :: later ∧
      ∀ found ∈ earlier, ¬[stop] <+: found.rest := by
  induction before with
  | nil => exact ⟨[], _, rfl, List.forall_mem_nil _⟩
  | cons char before ih =>
      rw [List.mem_cons, not_or] at absent
      obtain ⟨earlier, later, split, misses⟩ :=
        ih (fun other member => accepted other (List.mem_cons_of_mem char member)) absent.2
      refine ⟨⟨[], [], char :: (before ++ stop :: behind)⟩ :: earlier.map (.consume char),
        later.map (.consume char), ?_, ?_⟩
      · rw [List.cons_append, shortest_cons, if_pos (accepted char List.mem_cons_self), split,
          List.map_append]
        rfl
      · intro found member
        rcases List.mem_cons.mp member with rfl | member
        · exact fun starts => absent.1 (List.cons_prefix_cons.mp starts).1
        · obtain ⟨shorter, inner, rfl⟩ := List.mem_map.mp member
          exact misses shorter inner

theorem flatMap_literal_of_misses {stop : Char} {results : List Found}
    (misses : ∀ found ∈ results, ¬[stop] <+: found.rest) :
    (results.map Found.grouped).flatMap (fun before : Found =>
      (((literal [stop]).seq pattern).found before.rest).map before.append) = [] := by
  rw [List.flatMap_eq_nil_iff]
  intro grouped member
  obtain ⟨found, listed, rfl⟩ := List.mem_map.mp member
  have none := first_literal_of_not_prefix pattern found.rest (misses found listed)
  rw [first, List.head?_eq_none_iff] at none
  change (((literal [stop]).seq pattern).found found.rest).map _ = []
  rw [none, List.map_nil]

theorem first_few_literal {accepts : Char → Bool} {stop : Char} {before behind : List Char}
    {last : Found} (accepted : ∀ char ∈ before, accepts char) (absent : stop ∉ before)
    (ends : pattern.first behind = some last) :
    ((group (few accepts)).seq ((literal [stop]).seq pattern)).first (before ++ stop :: behind) =
      some ⟨before ++ stop :: last.matched, before :: last.groups, last.rest⟩ := by
  obtain ⟨earlier, later, split, misses⟩ := exists_shortest behind accepted absent
  have here := first_literal_append pattern behind [stop]
  rw [first, ends, List.singleton_append] at here
  rw [first, found_seq, found_group, found_few, split, List.map_append, List.flatMap_append,
    flatMap_literal_of_misses pattern misses, List.nil_append, List.map_cons, List.flatMap_cons,
    List.head?_append, List.head?_map]
  change ((((literal [stop]).seq pattern).found (stop :: behind)).head?.map _).or _ = _
  rw [here]
  rfl

theorem mem_shortest {accepts : Char → Bool} {text : List Char} {found : Found}
    (listed : found ∈ shortest accepts text) :
    found.matched ++ found.rest = text ∧ ∀ char ∈ found.matched, accepts char := by
  induction text generalizing found with
  | nil =>
      cases List.mem_singleton.mp listed
      exact ⟨rfl, List.forall_mem_nil _⟩
  | cons char rest ih =>
      rw [shortest_cons] at listed
      rcases List.mem_cons.mp listed with rfl | listed
      · exact ⟨rfl, List.forall_mem_nil _⟩
      · split at listed
        case isTrue accepted =>
          obtain ⟨shorter, member, rfl⟩ := List.mem_map.mp listed
          obtain ⟨whole, all⟩ := ih member
          exact ⟨congrArg (char :: ·) whole, List.forall_mem_cons.mpr ⟨accepted, all⟩⟩
        case isFalse => cases listed

theorem first_few_literal_of_not {accepts : Char → Bool} {stop : Char} {text : List Char}
    (never : ∀ before behind, text = before ++ stop :: behind →
      ¬∀ char ∈ before, accepts char = true) :
    ((group (few accepts)).seq ((literal [stop]).seq pattern)).first text = none := by
  have misses : ∀ found ∈ shortest accepts text, ¬[stop] <+: found.rest := by
    rintro found listed ⟨behind, starts⟩
    obtain ⟨whole, accepted⟩ := mem_shortest listed
    rw [← starts] at whole
    exact never found.matched behind whole.symm accepted
  rw [first, found_seq, found_group, found_few, flatMap_literal_of_misses pattern misses]
  rfl

end First

end Pattern

end Xpedite.Lib
