import Understudy.Path

/-!
# Understudy.FileTree.Basic

A file tree as a value: directories, files with their bytes, and symbolic links with the text they
hold. Every entry but the root is listed with its location, the names that lead to it from the root.
And why an operation on files fails.
-/

namespace Understudy

/-- Why an operation on files fails. -/
inductive Fault
  | notFound
  | permissionDenied
  | alreadyExists
  | notADirectory
  | isADirectory
  | nameTooLong
  | tooManyLinks
  /-- A path holds the null character, which no name can have. -/
  | nullCharacter
  /-- The bytes of a file are no text. -/
  | notText
  deriving Repr, DecidableEq

/-- The description of a fault, with its system number if it has one. -/
def Fault.message : Fault → String
  | notFound => "No such file or directory (os error 2)"
  | permissionDenied => "Permission denied (os error 13)"
  | alreadyExists => "File exists (os error 17)"
  | notADirectory => "Not a directory (os error 20)"
  | isADirectory => "Is a directory (os error 21)"
  | nameTooLong => "File name too long (os error 36)"
  | tooManyLinks => "Too many levels of symbolic links (os error 40)"
  | nullCharacter => "file name contained an unexpected NUL byte"
  | notText => "stream did not contain valid UTF-8"

/-- The names that lead from the root to an entry, none of them a `.`, a `..` or a link. -/
abbrev Location := List String

/-- The path of a location. -/
def Location.path (l : Location) : Path := ⟨"/" ++ "/".intercalate l⟩

/-- The name under which a directory at the first location holds the second one directly. -/
def Location.childName? : Location → Location → Option String
  | [], [name] => some name
  | d :: directory, l :: location => if d = l then childName? directory location else none
  | _, _ => none

/-- What stands at a location. -/
inductive Entry
  | file (bytes : ByteArray)
  | directory
  /-- A symbolic link and the text it holds. -/
  | link (target : String)

/-- Entries are compared by their kinds and by what they hold. -/
instance : DecidableEq Entry
  | .file a, .file b =>
    if h : a.data = b.data then isTrue (congrArg Entry.file (ByteArray.ext h))
    else isFalse fun e => h (congrArg ByteArray.data (Entry.file.inj e))
  | .directory, .directory => isTrue rfl
  | .link a, .link b =>
    if h : a = b then isTrue (congrArg Entry.link h) else isFalse fun e => h (Entry.link.inj e)
  | .file _, .directory | .file _, .link _ | .directory, .file _ | .directory, .link _
  | .link _, .file _ | .link _, .directory => isFalse nofun

/-- A file tree, and where relative paths start in it. -/
structure FileTree where
  entries : List (Location × Entry)
  workDir : Location := []
  deriving DecidableEq

namespace FileTree

/-- What stands at a location. The root is always a directory. -/
def get? (t : FileTree) : Location → Option Entry
  | [] => some .directory
  | l => t.entries.lookup l

/-- Replaces the entry of a location, or adds it at the end. -/
def setEntry (l : Location) (e : Entry) : List (Location × Entry) → List (Location × Entry)
  | [] => [(l, e)]
  | (k, old) :: rest => if k = l then (l, e) :: rest else (k, old) :: setEntry l e rest

/-- The tree with another entry at a location. -/
def set (t : FileTree) (l : Location) (e : Entry) : FileTree :=
  { t with entries := setEntry l e t.entries }

/-- The tree without the entry at a location and without all that is below it. -/
def erase (t : FileTree) (l : Location) : FileTree :=
  { t with entries := t.entries.filter fun entry => !l.isPrefixOf entry.1 }

/-- The tree without what is below a location. -/
def empty (t : FileTree) (l : Location) : FileTree :=
  { t with entries := t.entries.filter fun entry => !(l.isPrefixOf entry.1 && entry.1 != l) }

/-- The names that a directory holds, in the order of the entries. -/
def names (t : FileTree) (l : Location) : List String :=
  t.entries.filterMap fun entry => l.childName? entry.1

@[simp] theorem get?_nil (t : FileTree) : t.get? [] = some .directory := rfl

theorem get?_of_ne_nil (t : FileTree) {l : Location} (h : l ≠ []) :
    t.get? l = t.entries.lookup l := by
  cases l with
  | nil => contradiction
  | cons => rfl

theorem lookup_setEntry (l k : Location) (e : Entry) (entries : List (Location × Entry)) :
    (setEntry l e entries).lookup k = if k = l then some e else entries.lookup k := by
  induction entries with
  | nil =>
    by_cases h : k = l
    · simp [setEntry, h]
    · simp [setEntry, h, List.lookup_cons, beq_eq_false_iff_ne.2 h]
  | cons head rest ih =>
    obtain ⟨m, old⟩ := head
    by_cases hm : m = l
    · subst hm
      by_cases h : k = m
      · simp [setEntry, h]
      · simp [setEntry, h, List.lookup_cons, beq_eq_false_iff_ne.2 h]
    · simp only [setEntry, hm, if_false, List.lookup_cons, ih]
      by_cases h : k = m
      · subst h
        simp [hm]
      · simp [beq_eq_false_iff_ne.2 h]

/-- Setting an entry changes what stands at its location and nothing else. -/
theorem get?_set (t : FileTree) {l : Location} (h : l ≠ []) (e : Entry) (k : Location) :
    (t.set l e).get? k = if k = l then some e else t.get? k := by
  cases k with
  | nil => simp [h.symm]
  | cons name rest =>
    rw [get?_of_ne_nil _ (List.cons_ne_nil name rest), get?_of_ne_nil _ (List.cons_ne_nil name rest)]
    exact lookup_setEntry l (name :: rest) e t.entries

end FileTree

end Understudy
