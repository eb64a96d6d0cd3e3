import ShellPrompt.Data.Basic

/-!
Merging mappings. What is merged last wins: it replaces the value of a key, except that mappings
are merged with mappings, key by key, and lists are put behind lists.
-/

namespace ShellPrompt

namespace Data

mutual

/-- A value put over another, if there is one. -/
def cover : Data → Option Data → Data
  | map entries, some (map base) => map (mergeAll entries base)
  | map entries, _ => map entries
  | list items, some (list base) => list (base ++ items)
  | list items, _ => list items
  | scalar value, _ => scalar value
  | tuple items, _ => tuple items
  | set items, _ => set items
termination_by structural value => value

/-- Entries merged one after another into a mapping. -/
def mergeAll : List (Scalar × Data) → Entries → Entries
  | [], base => base
  | entry :: rest, base => mergeAll rest (mergeEntry entry base)
termination_by structural entries => entries

/-- An entry merged into a mapping. -/
def mergeEntry : Scalar × Data → Entries → Entries
  | (key, value), base => Entries.alter key (fun old => cover value old) base
termination_by structural entry => entry

end

end Data

namespace Entries

/-- Two mappings merged; the second wins. -/
def merge (base override : Entries) : Entries := Data.mergeAll override base

end Entries

end ShellPrompt
