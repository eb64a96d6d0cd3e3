import ShellPrompt.Prompt.Directory
import ShellPrompt.Proofs.Path

/-! # Directories as they are shown

Where the home directory is written as `~`, no two absolute directories are shown alike. In the
short form each directory between home and a repository shows as one character, except that the
initial of a hidden directory is a dot, which names no directory and is left out. -/

namespace ShellPrompt.Path

/-! ## The home directory -/

section

variable {home current other : Path} {names : List String}

/-- Whether a directory is home or a directory below it. -/
def IsWithin (current home : Path) : Prop :=
  current.root = home.root ∧ home.names <+: current.names

theorem displayed_self (home : Path) : home.displayed (some home) = "~" := by
  simp [displayed]

theorem displayed_below (hne : names ≠ []) (hroot : current.root = home.root)
    (hnames : current.names = home.names ++ names) :
    current.displayed (some home) = "~/" ++ Text.join "/" names := by
  have hother : current ≠ home := by
    rintro rfl
    exact hne (List.self_eq_append_right.mp hnames)
  obtain ⟨rest, hrelative, hrest, rfl⟩ := exists_relativeTo? hroot hnames
  have htext : rest.text = Text.join "/" rest.names := by
    simp [text, hrest, hne, PathRoot.text]
  simp only [displayed, if_neg hother, hrelative, htext]

theorem displayed_outside (h : ¬ current.IsWithin home) :
    current.displayed (some home) = current.text := by
  have hother : current ≠ home := by
    rintro rfl
    exact h ⟨rfl, List.prefix_rfl⟩
  have hrelative : current.relativeTo? home = none := relativeTo?_eq_none_iff.mpr h
  simp only [displayed, if_neg hother, hrelative]

/-- The three ways to show a directory. -/
theorem displayed_cases (home current : Path) :
    (current = home ∧ current.displayed (some home) = "~") ∨
      (∃ names, names ≠ [] ∧ current.root = home.root ∧ current.names = home.names ++ names ∧
        current.displayed (some home) = "~/" ++ Text.join "/" names) ∨
      (¬ current.IsWithin home ∧ current.displayed (some home) = current.text) := by
  by_cases hwithin : current.IsWithin home
  · obtain ⟨hroot, names, hnames⟩ := hwithin
    by_cases hne : names = []
    · obtain rfl : current = home := eq_of_names_eq hroot (by simpa [hne] using hnames.symm)
      exact .inl ⟨rfl, displayed_self current⟩
    · exact .inr (.inl ⟨names, hne, hroot, hnames.symm, displayed_below hne hroot hnames.symm⟩)
  · exact .inr (.inr ⟨hwithin, displayed_outside hwithin⟩)

/-- The directory that is shown as a text: home for `~`, a directory below it for `~/` and names,
and otherwise the one that the text is the path of. -/
def expanded (home : Path) (shown : String) : Path :=
  match shown.toList with
  | ['~'] => home
  | '~' :: '/' :: rest => home.append (ofString (String.ofList rest))
  | _ => ofString shown

theorem expanded_below (home : Path) (hvalid : ∀ name ∈ names, isPathName name = true) :
    (home.expanded ("~/" ++ Text.join "/" names)).root = home.root ∧
      (home.expanded ("~/" ++ Text.join "/" names)).names = home.names ++ names := by
  have hexpanded : home.expanded ("~/" ++ Text.join "/" names) =
      home.append (ofString (Text.join "/" names)) := by
    simp [expanded]
  have hroot : (ofString (Text.join "/" names)).root = .relative := by
    have hjoin := rootOf_append .relative (head?_join hvalid)
    rwa [PathRoot.text, String.empty_append] at hjoin
  have hnames : (ofString (Text.join "/" names)).names = names := namesOf_join hvalid
  rw [hexpanded]
  obtain ⟨hfirst, hlast⟩ := append_of_relative hroot
  exact ⟨hfirst, by rw [hlast, hnames]⟩

theorem head?_text (h : current.isAbsolute = true) : current.text.toList.head? = some '/' := by
  have habsolute : current.root ≠ .relative := by simpa [isAbsolute] using h
  rw [text, if_neg fun hempty => habsolute hempty.1]
  cases hroot : current.root with
  | relative => exact absurd hroot habsolute
  | single => simp [PathRoot.text]
  | double => simp [PathRoot.text]

theorem expanded_of_head? {shown : String} (h : shown.toList.head? = some '/') :
    home.expanded shown = ofString shown := by
  unfold expanded
  split
  · rename_i hlist
    rw [hlist] at h
    cases h
  · rename_i hlist
    rw [hlist] at h
    cases h
  · rfl

/-- The parts of a path, beginning with its root. -/
def components (path : Path) : List String :=
  if path.isAbsolute then path.root.text :: path.names else path.names

theorem components_prefix_iff (hhome : home.isAbsolute = true)
    (hcurrent : current.isAbsolute = true) :
    home.components <+: current.components ↔ current.IsWithin home := by
  have hroots : home.root.text = current.root.text ↔ current.root = home.root := by
    cases home.root <;> cases current.root <;> decide
  rw [components, components, if_pos hhome, if_pos hcurrent, List.cons_prefix_cons, hroots,
    IsWithin]

/-- Nothing is lost where home is written as `~`. -/
theorem expanded_displayed (h : current.isAbsolute = true) :
    home.expanded (current.displayed (some home)) = current := by
  rcases displayed_cases home current with
    ⟨rfl, hshown⟩ | ⟨names, _, hroot, hnames, hshown⟩ | ⟨_, hshown⟩
  · simp [hshown, expanded]
  · have hvalid : ∀ name ∈ names, isPathName name = true :=
      fun name hname => current.valid name (by simp [hnames, hname])
    rw [hshown]
    obtain ⟨hfirst, hlast⟩ := home.expanded_below hvalid
    exact eq_of_names_eq (hfirst.trans hroot.symm) (hlast.trans hnames.symm)
  · rw [hshown, expanded_of_head? (head?_text h), ofString_text]

theorem head?_displayed_iff (h : current.isAbsolute = true) :
    (current.displayed (some home)).toList.head? = some '~' ↔ current.IsWithin home := by
  rcases displayed_cases home current with
    ⟨rfl, hshown⟩ | ⟨names, _, hroot, hnames, hshown⟩ | ⟨houtside, hshown⟩
  · exact iff_of_true (by simp [hshown]) ⟨rfl, List.prefix_rfl⟩
  · exact iff_of_true (by simp [hshown]) ⟨hroot, hnames ▸ List.prefix_append ..⟩
  · refine iff_of_false ?_ houtside
    rw [hshown, head?_text h]
    decide

/-- Absolute directories are told from each other by how they are shown, and `~` is in front of
those that are home or below it. -/
theorem displayed_lossless (hhome : home.isAbsolute = true) (hcurrent : current.isAbsolute = true) :
    home.expanded (current.displayed (some home)) = current ∧
      (∀ other : Path, other.isAbsolute = true →
        other.displayed (some home) = current.displayed (some home) → other = current) ∧
      ((current.displayed (some home)).toList.head? = some '~' ↔
        home.components <+: current.components) := by
  refine ⟨expanded_displayed hcurrent, fun other hother hsame => ?_, ?_⟩
  · rw [← expanded_displayed hother, hsame, expanded_displayed hcurrent]
  · rw [head?_displayed_iff hcurrent, components_prefix_iff hhome hcurrent]

/-- A directory below the root with two slashes, which is home. -/
theorem displayed_lossless_doubleRoot :
    (Path.ofString "//").expanded ((Path.ofString "//~/..").displayed (some (.ofString "//"))) =
        .ofString "//~/.." ∧
      ((Path.ofString "//~/..").displayed (some (.ofString "//"))) = "~/~/.." := by
  have hhome : (Path.ofString "//").isAbsolute = true := by decide
  have hcurrent : (Path.ofString "//~/..").isAbsolute = true := by decide
  exact ⟨(displayed_lossless hhome hcurrent).1, by decide +kernel⟩

end

/-! ## Directories between home and a repository -/

section

variable {home : Path} {outer inner : List String} {repository name : String}

theorem toList_initial (name : String) : (initial name).toList = name.toList.take 1 := by
  simp [initial]

/-- The initial of a name is a name, unless it is a dot. -/
theorem isPathName_initial_iff (h : isPathName name = true) :
    isPathName (initial name) = true ↔ initial name ≠ "." := by
  obtain ⟨c, rest, hname, hc⟩ := exists_cons_of_isPathName h
  have hinitial : (initial name).toList = [c] := by simp [toList_initial, hname]
  have hne : initial name ≠ "" := by
    rw [ne_eq, ← String.toList_eq_nil_iff, hinitial]
    simp
  rw [isPathName_iff, hinitial]
  simp [hne, hc.symm]

theorem slash_notMem_initial (h : isPathName name = true) : '/' ∉ (initial name).toList := by
  rw [toList_initial]
  exact fun hslash => (isPathName_iff.mp h).2.2 (List.mem_of_mem_take hslash)

theorem initial_eq_dot_iff : initial name = "." ↔ name.toList.head? = some '.' := by
  rw [← String.toList_inj, toList_initial]
  cases name.toList <;> simp

theorem filter_map_initial (h : ∀ name ∈ outer, isPathName name = true) :
    (outer.map initial).filter isPathName = (outer.map initial).filter (· ≠ ".") := by
  apply List.filter_congr
  intro text htext
  obtain ⟨name, hname, rfl⟩ := List.mem_map.mp htext
  rw [Bool.eq_iff_iff, isPathName_initial_iff (h name hname), decide_eq_true_iff]

theorem slash_notMem_shown (houter : ∀ name ∈ outer, isPathName name = true)
    (hinner : ∀ name ∈ inner, isPathName name = true) :
    ∀ text ∈ outer.map initial ++ inner, '/' ∉ text.toList := by
  refine List.forall_mem_append.mpr ⟨fun text htext => ?_, fun name hname => ?_⟩
  · obtain ⟨name, hname, rfl⟩ := List.mem_map.mp htext
    exact slash_notMem_initial (houter name hname)
  · exact (isPathName_iff.mp (hinner name hname)).2.2

/-- The repository and the directories in it show by their names, and those between home and the
repository by the initials that are names. -/
theorem shortened_extend (home : Path) (houter : ∀ name ∈ outer, isPathName name = true)
    (hrepository : isPathName repository = true)
    (hinner : ∀ name ∈ inner, isPathName name = true) :
    ((home.extend (outer ++ [repository])).extend inner).shortened home
        (home.extend (outer ++ [repository])) =
      "~/" ++ Text.join "/" ((outer.map initial).filter (· ≠ ".") ++ repository :: inner) := by
  have hall : ∀ name ∈ repository :: inner, isPathName name = true :=
    List.forall_mem_cons.mpr ⟨hrepository, hinner⟩
  have htopValid : ∀ name ∈ outer ++ [repository], isPathName name = true :=
    List.forall_mem_append.mpr ⟨houter, by simpa using hrepository⟩
  obtain ⟨htop, htopNames⟩ := home.extend_of_isPathName htopValid
  generalize home.extend (outer ++ [repository]) = top at htop htopNames ⊢
  obtain ⟨hcurrent, hcurrentNames⟩ := top.extend_of_isPathName hinner
  generalize top.extend inner = current at hcurrent hcurrentNames ⊢
  have hparent : top.parent.root = home.root := htop
  have hparentNames : top.parent.names = home.names ++ outer := by
    rw [names_parent, htopNames, ← List.append_assoc, List.dropLast_concat]
  have hhomeNames : current.names = home.names ++ (outer ++ [repository] ++ inner) := by
    rw [hcurrentNames, htopNames, List.append_assoc]
  have hinnerNames : current.names = top.parent.names ++ repository :: inner := by
    rw [hhomeNames, hparentNames]
    simp
  obtain ⟨_, hbelow, _⟩ := exists_relativeTo? (hcurrent.trans htop) hhomeNames
  obtain ⟨between, hbetween, _, hbetweenNames⟩ := exists_relativeTo? hparent hparentNames
  obtain ⟨rest, hrest, _, hrestNames⟩ :=
    exists_relativeTo? (hcurrent.trans (htop.trans hparent.symm)) hinnerNames
  obtain ⟨hshort, hshortNames⟩ := home.extend_of_notMem (slash_notMem_shown houter hall)
  rw [List.filter_append, filter_map_initial houter, List.filter_eq_self.mpr hall] at hshortNames
  rw [shortened, hbelow, hbetween, hrest]
  simp only [hbetweenNames, hrestNames]
  exact displayed_below (by simp) hshort hshortNames

/-- A directory in a repository below home shows as the directories on the way to the repository,
cut to their initials, and the names from the repository on, if none of the directories on the way
is hidden. Those that are hidden do not show. -/
theorem shortened_below (home : Path) (houter : ∀ name ∈ outer, isPathName name = true)
    (hrepository : isPathName repository = true)
    (hinner : ∀ name ∈ inner, isPathName name = true) :
    let top := home.extend (outer ++ [repository])
    (top.extend inner).shortened home top =
        "~/" ++ Text.join "/" ((outer.map initial).filter (· ≠ ".") ++ repository :: inner) ∧
      ((top.extend inner).shortened home top =
          "~/" ++ Text.join "/" (outer.map initial ++ repository :: inner) ↔
        ∀ name ∈ outer, name.toList.head? ≠ some '.') := by
  have hall : ∀ name ∈ repository :: inner, isPathName name = true :=
    List.forall_mem_cons.mpr ⟨hrepository, hinner⟩
  have hshown := slash_notMem_shown houter hall
  have hkept : ∀ text ∈ (outer.map initial).filter (· ≠ ".") ++ repository :: inner,
      '/' ∉ text.toList := by
    intro text htext
    rw [List.mem_append, List.mem_filter] at htext
    exact hshown text (List.mem_append.mpr (htext.imp_left And.left))
  dsimp only
  rw [shortened_extend home houter hrepository hinner, and_iff_right rfl, String.append_right_inj,
    show "/" = String.singleton '/' from rfl, Text.join_inj (by simp) (by simp) hkept hshown,
    List.append_left_inj, List.filter_eq_self, List.forall_mem_map]
  simp [initial_eq_dot_iff]

/-- Two directories on the way to a repository, and one in it. -/
theorem shortened_below_nested :
    let top := (Path.ofString "/home/foo").extend (["axx", "bxx"] ++ ["repo"])
    (top.extend ["cxx"]).shortened (.ofString "/home/foo") top = "~/a/b/repo/cxx" := by
  have houter : ∀ name ∈ ["axx", "bxx"], isPathName name = true := by decide
  have hinner : ∀ name ∈ ["cxx"], isPathName name = true := by decide
  obtain ⟨hshown, _⟩ := shortened_below (.ofString "/home/foo") houter
    (show isPathName "repo" = true by decide) hinner
  exact hshown.trans (by decide)

/-- A hidden directory on the way to a repository does not show. -/
theorem shortened_hidden :
    let top := (Path.ofString "/home/foo").extend ([".config"] ++ ["repo"])
    (∀ name ∈ [".config", "repo"], isPathName name = true ∧ name ≠ "..") ∧
      (top.extend []).shortened (.ofString "/home/foo") top = "~/repo" ∧
      (top.extend []).shortened (.ofString "/home/foo") top ≠
        "~/" ++ Text.join "/" ([".config"].map initial ++ "repo" :: []) := by
  decide +kernel

end

end ShellPrompt.Path
