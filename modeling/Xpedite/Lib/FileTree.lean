import Mathlib.Data.List.Induction
import Mathlib.Data.List.Nodup
import Xpedite.Lib.OrderedDict

/-!
A tree of directories and files, kept as a dictionary from paths to what is there.  Everything is
in a directory, so below a path that is missing there is nothing.
-/

namespace Xpedite.Lib

inductive TreeEntry (Content : Type) where
  | directory
  | file (content : Content)
  deriving DecidableEq

/-- The empty path is the directory that everything is in. -/
structure FileTree (Name Content : Type) [DecidableEq Name] where
  entries : OrderedDict (List Name) (TreeEntry Content)
  distinct : (OrderedDict.keys entries).Nodup
  rooted : ∀ path name, (OrderedDict.get (path ++ [name]) entries).isSome →
    path = [] ∨ OrderedDict.get path entries = some .directory

namespace FileTree

variable {Name Content : Type} [DecidableEq Name]

def empty : FileTree Name Content where
  entries := []
  distinct := List.nodup_nil
  rooted := fun _ _ found => by cases found

def lookup (tree : FileTree Name Content) (path : List Name) : Option (TreeEntry Content) :=
  OrderedDict.get path tree.entries

def isDir (tree : FileTree Name Content) (path : List Name) : Bool :=
  path.isEmpty ||
    match tree.lookup path with
    | some .directory => true
    | _ => false

def content (tree : FileTree Name Content) (path : List Name) : Option Content :=
  match tree.lookup path with
  | some (.file content) => some content
  | _ => none

theorem isDir_iff {tree : FileTree Name Content} {path : List Name} :
    tree.isDir path = true ↔ path = [] ∨ tree.lookup path = some .directory := by
  rw [isDir, Bool.or_eq_true, List.isEmpty_iff]
  refine or_congr Iff.rfl ?_
  split <;> simp_all

theorem content_eq_some_iff {tree : FileTree Name Content} {path : List Name} {content : Content} :
    tree.content path = some content ↔ tree.lookup path = some (.file content) := by
  rw [FileTree.content]
  split <;> simp_all

def put (tree : FileTree Name Content) (path : List Name) (entry : TreeEntry Content)
    (inDirectory : tree.isDir path.dropLast = true)
    (keeps : tree.isDir path = false ∨ entry = .directory) : FileTree Name Content where
  entries := OrderedDict.update path entry tree.entries
  distinct := OrderedDict.nodup_keys_update path entry tree.distinct
  rooted := by
    intro front name found
    rw [OrderedDict.get_update] at found
    rw [OrderedDict.get_update]
    by_cases own : path = front
    · subst own
      rcases keeps with kept | rfl
      · rw [if_neg (by simp)] at found
        have parent := isDir_iff.mpr (tree.rooted path name found)
        rw [kept] at parent
        cases parent
      · simp
    · rw [if_neg own]
      split at found
      case isTrue same =>
        rw [same, List.dropLast_concat] at inDirectory
        exact isDir_iff.mp inDirectory
      case isFalse => exact tree.rooted front name found

theorem lookup_put {tree : FileTree Name Content} {path : List Name} {entry : TreeEntry Content}
    (inDirectory : tree.isDir path.dropLast = true)
    (keeps : tree.isDir path = false ∨ entry = .directory) (other : List Name) :
    (tree.put path entry inDirectory keeps).lookup other =
      if path = other then some entry else tree.lookup other :=
  OrderedDict.get_update path other entry tree.entries

theorem lookup_below {tree : FileTree Name Content} {path : List Name}
    (missing : tree.isDir path = false) {more : List Name} (below : more ≠ []) :
    tree.lookup (path ++ more) = none := by
  induction more using List.reverseRecOn with
  | nil => exact absurd rfl below
  | append_singleton more name ih =>
      by_contra found
      have present := Option.isSome_iff_ne_none.mpr found
      rw [lookup, ← List.append_assoc] at present
      have parent := tree.rooted (path ++ more) name present
      by_cases direct : more = []
      · subst direct
        rw [List.append_nil] at parent
        rw [isDir_iff.mpr parent] at missing
        cases missing
      · rcases parent with nothing | inDirectory
        · exact direct (List.append_eq_nil_iff.mp nothing).2
        · have above := ih direct
          rw [lookup, inDirectory] at above
          cases above

theorem isDir_of_prefix {tree : FileTree Name Content} {path front : List Name}
    (isDirectory : tree.isDir path = true) (shorter : front <+: path) : tree.isDir front = true := by
  obtain ⟨more, rfl⟩ := shorter
  by_contra missing
  rw [Bool.not_eq_true] at missing
  by_cases same : more = []
  · subst same
    rw [List.append_nil, missing] at isDirectory
    cases isDirectory
  · rcases isDir_iff.mp isDirectory with nothing | found
    · exact same (List.append_eq_nil_iff.mp nothing).2
    · rw [lookup_below missing same] at found
      cases found

section Listing

def nameIn : List Name → List Name → Option Name
  | [], [name] => some name
  | first :: directory, second :: path => if first = second then nameIn directory path else none
  | _, _ => none

theorem nameIn_eq_some_iff {directory path : List Name} {name : Name} :
    nameIn directory path = some name ↔ path = directory ++ [name] := by
  induction directory generalizing path with
  | nil =>
      match path with
      | [] => simp [nameIn]
      | [only] => simp [nameIn]
      | first :: second :: rest => simp [nameIn]
  | cons first directory ih =>
      cases path with
      | nil => simp [nameIn]
      | cons second path =>
          rw [nameIn, List.cons_append, List.cons_eq_cons]
          split
          case isTrue same => simp [same, ih]
          case isFalse differ => simp [Ne.symm differ]

def listdir (tree : FileTree Name Content) (directory : List Name) : List Name :=
  tree.entries.filterMap fun entry => nameIn directory entry.1

theorem mem_listdir_iff {tree : FileTree Name Content} {directory : List Name} {name : Name} :
    name ∈ tree.listdir directory ↔ (tree.lookup (directory ++ [name])).isSome := by
  rw [listdir, List.mem_filterMap, lookup]
  constructor
  · rintro ⟨⟨path, entry⟩, member, named⟩
    rw [nameIn_eq_some_iff] at named
    rw [← named, OrderedDict.get_of_mem tree.distinct member]
    rfl
  · intro found
    obtain ⟨entry, found⟩ := Option.isSome_iff_exists.mp found
    exact ⟨_, OrderedDict.mem_of_get found, nameIn_eq_some_iff.mpr rfl⟩

theorem nodup_listdir (tree : FileTree Name Content) (directory : List Name) :
    (tree.listdir directory).Nodup := by
  have distinct := tree.distinct
  rw [OrderedDict.keys] at distinct
  have names : tree.listdir directory =
      (tree.entries.map Prod.fst).filterMap (nameIn directory) := by
    rw [List.filterMap_map]
    rfl
  rw [names]
  refine List.Nodup.filterMap ?_ distinct
  intro first second name inFirst inSecond
  rw [Option.mem_def, nameIn_eq_some_iff] at inFirst inSecond
  rw [inFirst, inSecond]

end Listing

section Writing

def mkdir (tree : FileTree Name Content) (path : List Name) :
    Except (List Name) (FileTree Name Content) :=
  if free : tree.isDir path.dropLast = true ∧ (tree.lookup path).isNone then
    .ok (tree.put path .directory free.1 (.inr rfl))
  else .error path

def makedirsFrom (front : List Name) : List Name → FileTree Name Content →
    Except (List Name) (FileTree Name Content)
  | [], tree => .ok tree
  | name :: rest, tree => do
      let tree ← if tree.isDir (front ++ [name]) then .ok tree else tree.mkdir (front ++ [name])
      makedirsFrom (front ++ [name]) rest tree

def makedirs (tree : FileTree Name Content) (path : List Name) :
    Except (List Name) (FileTree Name Content) :=
  makedirsFrom [] path tree

def write (tree : FileTree Name Content) (path : List Name) (content : Content) :
    Except (List Name) (FileTree Name Content) :=
  if free : tree.isDir path.dropLast = true ∧ tree.isDir path = false then
    .ok (tree.put path (.file content) free.1 (.inl free.2))
  else .error path

theorem lookup_write {tree next : FileTree Name Content} {path : List Name} {content : Content}
    (written : tree.write path content = .ok next) (other : List Name) :
    next.lookup other = if path = other then some (.file content) else tree.lookup other := by
  rw [write] at written
  split at written
  · cases written
    exact lookup_put _ _ other
  · cases written

theorem isDir_of_write {tree next : FileTree Name Content} {path : List Name} {content : Content}
    (written : tree.write path content = .ok next) : tree.isDir path.dropLast = true := by
  rw [write] at written
  split at written
  case isTrue free => exact free.1
  case isFalse => cases written

theorem mkdir_spec {tree next : FileTree Name Content} {path : List Name}
    (made : tree.mkdir path = .ok next) :
    tree.content path = none ∧ ∀ other,
      next.lookup other = if path = other then some .directory else tree.lookup other := by
  rw [mkdir] at made
  split at made
  case isTrue free =>
    cases made
    refine ⟨?_, lookup_put _ _⟩
    rw [content, Option.isNone_iff_eq_none.mp free.2]
  case isFalse => cases made

theorem content_of_isDir {tree : FileTree Name Content} {path : List Name} (nonempty : path ≠ [])
    (isDirectory : tree.isDir path = true) : tree.content path = none := by
  rw [content, (isDir_iff.mp isDirectory).resolve_left nonempty]

def Between (front path other : List Name) : Prop :=
  front <+: other ∧ other ≠ front ∧ other <+: path

instance (front path other : List Name) : Decidable (Between front path other) :=
  inferInstanceAs (Decidable (_ ∧ _ ∧ _))

omit [DecidableEq Name] in
theorem between_self_iff {path other : List Name} :
    Between [] path other ↔ other ≠ [] ∧ other <+: path := by
  simp [Between]

omit [DecidableEq Name] in
theorem between_cons_iff {front rest other : List Name} {name : Name} :
    Between front (front ++ name :: rest) other ↔
      front ++ [name] = other ∨ Between (front ++ [name]) (front ++ [name] ++ rest) other := by
  rw [Between, Between, List.append_assoc, List.singleton_append]
  constructor
  · rintro ⟨⟨more, rfl⟩, differ, shorter⟩
    rw [List.prefix_append_right_inj] at shorter
    cases more with
    | nil => simp at differ
    | cons first more =>
        obtain ⟨rfl, -⟩ := List.cons_prefix_cons.mp shorter
        by_cases last : more = []
        · exact .inl (by rw [last])
        · refine .inr ⟨⟨more, by simp⟩, by simp [last], ?_⟩
          exact (List.prefix_append_right_inj front).mpr shorter
  · rintro (rfl | ⟨longer, differ, shorter⟩)
    · simp
    · refine ⟨(List.prefix_append front [name]).trans longer, ?_, shorter⟩
      rintro rfl
      have length := longer.length_le
      simp only [List.length_append, List.length_singleton] at length
      omega

theorem makedirsFrom_spec {front rest : List Name} {tree next : FileTree Name Content}
    (made : makedirsFrom front rest tree = .ok next) (other : List Name) :
    (Between front (front ++ rest) other → tree.content other = none) ∧
      next.lookup other =
        if Between front (front ++ rest) other then some .directory else tree.lookup other := by
  induction rest generalizing front tree with
  | nil =>
      cases made
      have outside : ¬Between front (front ++ []) other := by
        rintro ⟨longer, differ, shorter⟩
        rw [List.append_nil] at shorter
        exact differ (shorter.eq_of_length_le longer.length_le)
      exact ⟨fun inside => absurd inside outside, by rw [if_neg outside]⟩
  | cons name rest ih =>
      rw [makedirsFrom] at made
      have stepped : ∃ middle, makedirsFrom (front ++ [name]) rest middle = .ok next ∧
          tree.content (front ++ [name]) = none ∧ middle.lookup other =
            if front ++ [name] = other then some .directory else tree.lookup other := by
        split at made
        case isTrue present =>
          refine ⟨tree, made, content_of_isDir (by simp) present, ?_⟩
          split
          case isTrue same =>
            rw [← same]
            simpa using isDir_iff.mp present
          case isFalse => rfl
        case isFalse =>
          cases placed : tree.mkdir (front ++ [name]) with
          | error place =>
              rw [placed] at made
              cases made
          | ok middle =>
              rw [placed] at made
              exact ⟨middle, made, (mkdir_spec placed).1, (mkdir_spec placed).2 other⟩
      obtain ⟨middle, later, noFile, same⟩ := stepped
      obtain ⟨clear, after⟩ := ih later
      simp only [between_cons_iff]
      by_cases own : front ++ [name] = other
      · subst own
        exact ⟨fun _ => noFile, by simp [after, same]⟩
      · rw [if_neg own] at same
        have kept : middle.content other = tree.content other := by rw [content, content, same]
        rw [kept] at clear
        exact ⟨fun inside => clear (inside.resolve_left own), by simp [after, same, own]⟩

theorem makedirs_spec {tree next : FileTree Name Content} {path : List Name}
    (made : tree.makedirs path = .ok next) (other : List Name) :
    (other ≠ [] ∧ other <+: path → tree.content other = none) ∧
      next.lookup other =
        if other ≠ [] ∧ other <+: path then some .directory else tree.lookup other := by
  simpa only [between_self_iff, List.nil_append] using makedirsFrom_spec made other

end Writing

end FileTree

end Xpedite.Lib
