import ShellPrompt.Config.Files

/-!
The words that start the program. If it was started by the name of an executable file, that file
starts it again; otherwise an installed copy does, and failing that the interpreter.
-/

namespace ShellPrompt.CommandLine

/-- Follows names without looking at the files: `..` takes back the name before it. -/
def normalizeNames (names : List String) : List String :=
  names.foldl (fun here name => if name = ".." then here.dropLast else here ++ [name]) []

/-- The names from the root of the executable file that a text leads to. -/
def executableFile? (files : FileTree) (argument : String) : Option (List String) :=
  let path := Path.ofString argument
  let names := normalizeNames (if path.isAbsolute then path.names else files.here ++ path.names)
  match files.find? names with
  | some (.file _ true) => if argument = "" then none else some names
  | _ => none

/-- The words that start the program, where `installed` is what is found under its name. -/
def startWords (files : FileTree) (arguments : List String) (installed : Option String)
    (interpreter : String) : List String :=
  match arguments.head?.bind (executableFile? files) with
  | some names => ["/" ++ Text.join "/" names]
  | none =>
    match installed.filter (· ≠ "") with
    | some word => [word]
    | none => [interpreter, "-m", "promptline.cli"]

end ShellPrompt.CommandLine
