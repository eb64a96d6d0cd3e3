import ShellPrompt.Text.Split

/-!
Paths of files. A path is a root, if it has one, and names; empty names and the name `.` are left
out when a path is read, and `..` stays. Two slashes in front are a root of their own, and more
than two count as one.
-/

namespace ShellPrompt

/-- Where a path starts. -/
inductive PathRoot where
  | relative | single | double
deriving DecidableEq, Repr

/-- The text of a root. -/
def PathRoot.text : PathRoot → String
  | relative => ""
  | single => "/"
  | double => "//"

/-- Whether a text may stand between two slashes of a path. -/
def isPathName (name : String) : Bool :=
  name ≠ "" && name ≠ "." && !name.toList.contains '/'

/-- A root and the names that follow it. -/
structure Path where
  root : PathRoot
  names : List String
  valid : ∀ name ∈ names, isPathName name = true
deriving DecidableEq, Repr

namespace Path

/-- The root that a text starts with. -/
def rootOf : List Char → PathRoot
  | '/' :: '/' :: '/' :: _ => .single
  | '/' :: '/' :: _ => .double
  | '/' :: _ => .single
  | _ => .relative

/-- The names of a text between slashes. -/
def namesOf (text : String) : List String := (Text.fields '/' text).filter isPathName

theorem isPathName_of_mem_namesOf {text name : String} (h : name ∈ namesOf text) :
    isPathName name = true := (List.mem_filter.1 h).2

/-- Reads a path. -/
def ofString (text : String) : Path :=
  ⟨rootOf text.toList, namesOf text, fun _ => isPathName_of_mem_namesOf⟩

/-- The text of a path; the path without names is `.` if it has no root. -/
def text (path : Path) : String :=
  if path.root = .relative ∧ path.names = [] then "."
  else path.root.text ++ Text.join "/" path.names

/-- Whether a path starts at a root. -/
def isAbsolute (path : Path) : Bool := path.root ≠ .relative

/-- A path without its last name. -/
def parent (path : Path) : Path :=
  ⟨path.root, path.names.dropLast, fun name h =>
    path.valid name ((List.dropLast_sublist path.names).subset h)⟩

/-- What has to follow `base` to give a path, if the path starts with it. -/
def relativeTo? (path base : Path) : Option Path :=
  if path.root = base.root ∧ base.names <+: path.names then
    some ⟨.relative, path.names.drop base.names.length,
      fun name h => path.valid name (List.mem_of_mem_drop h)⟩
  else none

/-- A path followed by another; one that starts at a root stands for itself. -/
def append (path tail : Path) : Path :=
  if tail.isAbsolute then tail
  else ⟨path.root, path.names ++ tail.names, fun name h =>
    (List.mem_append.1 h).elim (path.valid name) (tail.valid name)⟩

/-- A path followed by texts that are read as paths. -/
def extend (path : Path) (tails : List String) : Path :=
  tails.foldl (fun path tail => path.append (ofString tail)) path

end Path

end ShellPrompt
