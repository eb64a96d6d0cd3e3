import ShellPrompt.Config.Basic
import ShellPrompt.Path
import ShellPrompt.Yaml.Value

/-!
Configuration files. Settings come from a main file and from the files of a directory, which are
merged into it one after another. A file that does not exist says nothing.
-/

namespace ShellPrompt

/-- What a name in a directory stands for. -/
inductive FileEntry where
  | directory
  | file (content : String) (executable : Bool)
deriving DecidableEq, Repr

/-- Files by the names that lead to them from the root, and the names that lead to the current
directory. -/
structure FileTree where
  entries : List (List String × FileEntry)
  here : List String

namespace FileTree

/-- Whether names lead to a directory: to one that is listed, or to one that holds something. -/
def isDirectory (tree : FileTree) (names : List String) : Bool :=
  names.isPrefixOf tree.here || tree.entries.any fun (path, entry) =>
    (path == names && entry == .directory) || (names.isPrefixOf path && names.length < path.length)

/-- What names lead to. -/
def find? (tree : FileTree) (names : List String) : Option FileEntry :=
  if tree.isDirectory names then some .directory
  else (tree.entries.find? fun (path, _) => path == names).map Prod.snd

/-- Follows names from a directory; `..` leads back to the directory before, and from the root to
the root. The names of files lead no further. -/
def walk (tree : FileTree) (start : List String) : List String → Option (List String)
  | [] => some start
  | name :: rest =>
    if !tree.isDirectory start then none
    else if name = ".." then walk tree start.dropLast rest
    else walk tree (start ++ [name]) rest

/-- The names from the root that a path leads to. -/
def locate? (tree : FileTree) (path : Path) : Option (List String) :=
  tree.walk (if path.isAbsolute then [] else tree.here) path.names

/-- What a path leads to. -/
def resolve? (tree : FileTree) (path : Path) : Option FileEntry := do
  tree.find? (← tree.locate? path)

/-- The names in a directory. -/
def children (tree : FileTree) (names : List String) : List String :=
  (tree.entries.filterMap fun (path, _) =>
    if names.isPrefixOf path then (path.drop names.length).head? else none).eraseDups

end FileTree

/-- Why settings are not loaded. -/
inductive LoadError where
  /-- a directory stands where a file should -/
  | isDirectory
  | faulty (source : String) (fault : Yaml.Fault)
  | notMapping (source : String)
  | config (error : ConfigError)

namespace Config

/-- What is said of a text that is no mapping. -/
def notMappingMessage (source : String) : String :=
  source ++ ": expected a mapping at the top level"

/-- The settings in a text. -/
def settingsOf (source text : String) : Except LoadError Entries :=
  match Yaml.read text with
  | .error fault => .error (.faulty source fault)
  | .ok (.scalar .null) => .ok []
  | .ok (.map entries) => .ok entries
  | .ok _ => .error (.notMapping source)

/-- A text with all line ends written alike. -/
def plainLines : List Char → List Char
  | [] => []
  | '\r' :: '\n' :: rest => '\n' :: plainLines rest
  | c :: rest => (if c = '\r' then '\n' else c) :: plainLines rest

/-- The settings in a file. -/
def settingsAt (tree : FileTree) (path : Path) : Except LoadError Entries :=
  match tree.resolve? path with
  | none => .ok []
  | some .directory => .error .isDirectory
  | some (.file content _) => settingsOf path.text (String.ofList (plainLines content.toList))

/-- The order of names by their characters. -/
def nameLe (a b : String) : Bool := decide (a ≤ b)

/-- The files of a directory whose names end in a certain way, in the order of their names. -/
def filesEnding (tree : FileTree) (names : List String) (ending : String) : List String :=
  ((tree.children names).filter fun name => ending.toList.isSuffixOf name.toList).mergeSort nameLe

/-- The files of a directory that hold settings. -/
def settingFiles (tree : FileTree) (names : List String) : List String :=
  filesEnding tree names ".yaml" ++ filesEnding tree names ".yml"

/-- The settings in the files of a directory, merged one after another. -/
def settingsIn (tree : FileTree) (directory : Path) : Except LoadError Entries :=
  match tree.locate? directory with
  | none => .ok []
  | some names =>
    if tree.isDirectory names then
      (settingFiles tree names).foldlM (fun settings name => do
        return Entries.merge settings (← settingsAt tree (directory.append (.ofString name)))) []
    else .ok []

/-- Where the main file is unless it is named, below a home directory. -/
def defaultFile (home : Path) : Path := home.append (.ofString ".config/promptline/config.yaml")

/-- Where the directory of further files is unless it is named, below a home directory. -/
def defaultDirectory (home : Path) : Path := home.append (.ofString ".config/promptline/conf.d")

/-- The configuration in a main file and a directory of further files. -/
def load (tree : FileTree) (home : Path) (file directory : Option Path) :
    Except LoadError Config := do
  let main ← settingsAt tree (file.getD (defaultFile home))
  let further ← settingsIn tree (directory.getD (defaultDirectory home))
  (Config.ofData (Entries.merge main further)).mapError .config

/-- The configuration in a text. -/
def ofText (text : String) : Except LoadError Config := do
  (Config.ofData (← settingsOf "<string>" text)).mapError .config

end Config

end ShellPrompt
