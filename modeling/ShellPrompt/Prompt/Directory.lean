import ShellPrompt.Path

/-!
How the current directory is shown. The home directory is written as `~`; a short form also cuts
the names between home and a repository to their first characters.
-/

namespace ShellPrompt.Path

/-- A path with the home directory written as `~`. -/
def displayed (current : Path) (home : Option Path) : String :=
  match home with
  | none => current.text
  | some home =>
    if current = home then "~"
    else match current.relativeTo? home with
      | some rest => "~/" ++ rest.text
      | none => current.text

/-- The first character of a name. -/
def initial (name : String) : String := String.ofList (name.toList.take 1)

/-- A path in which the names between home and the directory that holds the repository are cut to
their first characters. -/
def shortened (current home repository : Path) : String :=
  match current.relativeTo? home, repository.parent.relativeTo? home,
      current.relativeTo? repository.parent with
  | some _, some outer, some rest =>
    (home.extend (outer.names.map initial ++ rest.names)).displayed (some home)
  | _, _, _ => current.displayed (some home)

end ShellPrompt.Path
