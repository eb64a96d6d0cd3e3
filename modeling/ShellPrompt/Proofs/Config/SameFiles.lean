import ShellPrompt.Config.Files

/-! # The same files seen from elsewhere

Of all paths, only those without a root depend on the current directory. So a configuration that is
looked for below a root is the same wherever it is looked for, if there are the same files. -/

namespace ShellPrompt

/-- The same files and the same directories, which may be seen from different directories. The
entries alone do not say as much: the current directory is one that need not be listed. -/
structure FileTree.SameFiles (first second : FileTree) : Prop where
  entries : first.entries = second.entries
  isDirectory : ∀ names, first.isDirectory names = second.isDirectory names

/-- A path leads to the same place from two directories, because it has a root or because the
directories are the same. -/
def Path.SameFrom (first second : FileTree) (path : Path) : Prop :=
  path.isAbsolute = true ∨ first.here = second.here

theorem Path.isAbsolute_append {path : Path} (h : path.isAbsolute = true) (tail : Path) :
    (path.append tail).isAbsolute = true := by
  rw [append]
  split
  · assumption
  · exact h

theorem Path.SameFrom.append {first second : FileTree} {path : Path}
    (h : path.SameFrom first second) (tail : Path) : (path.append tail).SameFrom first second :=
  h.imp_left fun habsolute => isAbsolute_append habsolute tail

namespace FileTree

/-! ## Current directories that are listed -/

/-- Whether the entries tell of a directory. -/
def tellsOf (tree : FileTree) (names : List String) : Bool :=
  tree.entries.any fun (path, entry) =>
    (path == names && entry == .directory) || (names.isPrefixOf path && names.length < path.length)

theorem tellsOf_of_prefix_here {tree : FileTree} {names : List String}
    (hlisted : (tree.here, .directory) ∈ tree.entries) (h : names <+: tree.here) :
    tree.tellsOf names = true := by
  refine List.any_eq_true.mpr ⟨_, hlisted, ?_⟩
  rcases Nat.lt_or_eq_of_le h.length_le with hlength | hlength
  · simp [List.isPrefixOf_iff_prefix.mpr h, hlength]
  · simp [h.eq_of_length hlength]

/-- Where the current directory is listed, the entries tell of all directories. -/
theorem isDirectory_of_listed {tree : FileTree}
    (hlisted : (tree.here, .directory) ∈ tree.entries) (names : List String) :
    tree.isDirectory names = tree.tellsOf names := by
  have hdirectory : tree.isDirectory names =
    (names.isPrefixOf tree.here || tree.tellsOf names) := rfl
  rw [hdirectory]
  cases hprefix : names.isPrefixOf tree.here with
  | true =>
      rw [tellsOf_of_prefix_here hlisted (List.isPrefixOf_iff_prefix.mp hprefix)]
      rfl
  | false => rfl

theorem sameFiles_of_listed {first second : FileTree} (hentries : first.entries = second.entries)
    (hfirst : (first.here, .directory) ∈ first.entries)
    (hsecond : (second.here, .directory) ∈ second.entries) : first.SameFiles second := by
  refine ⟨hentries, fun names => ?_⟩
  rw [isDirectory_of_listed hfirst, isDirectory_of_listed hsecond, tellsOf, tellsOf, hentries]

/-! ## What paths lead to -/

namespace SameFiles

variable {first second : FileTree} {path : Path}

theorem find?_eq (h : first.SameFiles second) (names : List String) :
    first.find? names = second.find? names := by
  rw [find?, find?, h.isDirectory, h.entries]

theorem walk_eq (h : first.SameFiles second) (start names : List String) :
    first.walk start names = second.walk start names := by
  induction names generalizing start with
  | nil => rfl
  | cons name rest ih => rw [walk, walk, h.isDirectory, ih, ih]

theorem locate?_eq (h : first.SameFiles second) (hpath : path.SameFrom first second) :
    first.locate? path = second.locate? path := by
  rw [locate?, locate?, h.walk_eq]
  rcases hpath with habsolute | hhere
  · rw [if_pos habsolute, if_pos habsolute]
  · rw [hhere]

theorem resolve?_eq (h : first.SameFiles second) (hpath : path.SameFrom first second) :
    first.resolve? path = second.resolve? path := by
  rw [resolve?, resolve?, h.locate?_eq hpath]
  exact congrArg _ (funext h.find?_eq)

end SameFiles

end FileTree

/-! ## Configurations -/

namespace Config

variable {first second : FileTree} {path home : Path}

theorem settingsAt_of_sameFiles (h : first.SameFiles second) (hpath : path.SameFrom first second) :
    settingsAt first path = settingsAt second path := by
  rw [settingsAt, settingsAt, h.resolve?_eq hpath]

theorem settingFiles_of_sameFiles (h : first.SameFiles second) (names : List String) :
    settingFiles first names = settingFiles second names := by
  have hchildren : first.children names = second.children names := by
    rw [FileTree.children, FileTree.children, h.entries]
  rw [settingFiles, settingFiles, filesEnding, filesEnding, filesEnding, filesEnding, hchildren]

theorem settingsIn_of_sameFiles (h : first.SameFiles second) (hpath : path.SameFrom first second) :
    settingsIn first path = settingsIn second path := by
  have hname : ∀ name : String, settingsAt first (path.append (.ofString name)) =
      settingsAt second (path.append (.ofString name)) :=
    fun name => settingsAt_of_sameFiles h (hpath.append _)
  simp only [settingsIn, h.locate?_eq hpath, h.isDirectory, settingFiles_of_sameFiles h, hname]

/-- A configuration that is not named is the same from two directories if the directory that it is
below is. -/
theorem load_of_sameFiles (h : first.SameFiles second) (hhome : home.SameFrom first second) :
    load first home none none = load second home none none := by
  have hmain : settingsAt first (defaultFile home) = settingsAt second (defaultFile home) :=
    settingsAt_of_sameFiles h (hhome.append _)
  have hfurther : settingsIn first (defaultDirectory home) =
      settingsIn second (defaultDirectory home) :=
    settingsIn_of_sameFiles h (hhome.append _)
  rw [load, load, Option.getD_none, Option.getD_none, hmain, hfurther]

end Config

end ShellPrompt
