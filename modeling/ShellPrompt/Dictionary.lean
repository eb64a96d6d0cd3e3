/-!
Dictionaries that remember the order in which keys first came. Entering a value for a key that is
there already replaces the value and leaves the key in its place.
-/

namespace ShellPrompt

/-- Pairs with distinct keys, in order. -/
structure Dictionary (α β : Type) where
  entries : List (α × β)
  nodup : (entries.map Prod.fst).Nodup

namespace Dictionary

variable {α β : Type}

/-- The dictionary without entries. -/
def empty : Dictionary α β := ⟨[], List.nodup_nil⟩

instance : EmptyCollection (Dictionary α β) := ⟨empty⟩

instance : Inhabited (Dictionary α β) := ⟨empty⟩

instance [DecidableEq α] [DecidableEq β] : DecidableEq (Dictionary α β) := fun a b =>
  if h : a.entries = b.entries then
    .isTrue (by cases a; cases b; cases h; rfl)
  else .isFalse fun e => h (congrArg entries e)

/-- The keys in order. -/
def keys (d : Dictionary α β) : List α := d.entries.map Prod.fst

@[simp] theorem entries_empty : (empty : Dictionary α β).entries = [] := rfl

variable [DecidableEq α]

/-- Enters a pair into a list of pairs. -/
def enter (key : α) (value : β) : List (α × β) → List (α × β)
  | [] => [(key, value)]
  | (k, v) :: rest => if k = key then (k, value) :: rest else (k, v) :: enter key value rest

theorem mem_keys_enter {key k : α} {value : β} {pairs : List (α × β)} :
    k ∈ (enter key value pairs).map Prod.fst ↔ k = key ∨ k ∈ pairs.map Prod.fst := by
  induction pairs with
  | nil => simp [enter]
  | cons pair rest ih =>
    obtain ⟨k', v'⟩ := pair
    by_cases h : k' = key
    · subst h; simp [enter]
    · simp only [enter, if_neg h, List.map_cons, List.mem_cons, ih]
      constructor
      · rintro (rfl | rfl | h) <;> simp_all
      · rintro (rfl | rfl | h) <;> simp_all

theorem nodup_enter {key : α} {value : β} {pairs : List (α × β)}
    (h : (pairs.map Prod.fst).Nodup) : ((enter key value pairs).map Prod.fst).Nodup := by
  induction pairs with
  | nil => simp [enter]
  | cons pair rest ih =>
    obtain ⟨k', v'⟩ := pair
    simp only [List.map_cons, List.nodup_cons] at h
    by_cases hk : k' = key
    · simp only [enter, if_pos hk, List.map_cons, List.nodup_cons]; exact h
    · simp only [enter, if_neg hk, List.map_cons, List.nodup_cons]
      refine ⟨fun hm => ?_, ih h.2⟩
      rcases mem_keys_enter.1 hm with rfl | hm
      · exact hk rfl
      · exact h.1 hm

/-- Enters a value for a key. -/
def insert (d : Dictionary α β) (key : α) (value : β) : Dictionary α β :=
  ⟨enter key value d.entries, nodup_enter d.nodup⟩

/-- Enters pairs one after another. -/
def insertAll (d : Dictionary α β) (pairs : List (α × β)) : Dictionary α β :=
  pairs.foldl (fun d pair => d.insert pair.1 pair.2) d

/-- The dictionary of a list of pairs: of equal keys the first gives the place and the last the
value. -/
def ofPairs (pairs : List (α × β)) : Dictionary α β := empty.insertAll pairs

/-- The value of a key. -/
def get? (d : Dictionary α β) (key : α) : Option β :=
  (d.entries.find? fun pair => pair.1 = key).map Prod.snd

/-- Whether a key has a value. -/
def contains (d : Dictionary α β) (key : α) : Bool := d.entries.any fun pair => pair.1 = key

/-- Removes a key. -/
def erase (d : Dictionary α β) (key : α) : Dictionary α β :=
  ⟨d.entries.filter fun pair => pair.1 ≠ key,
    d.nodup.sublist (List.filter_sublist.map Prod.fst)⟩

/-- Whether there are no entries. -/
def isEmpty (d : Dictionary α β) : Bool := d.entries.isEmpty

@[simp] theorem entries_insert (d : Dictionary α β) (key : α) (value : β) :
    (d.insert key value).entries = enter key value d.entries := rfl

theorem contains_iff {d : Dictionary α β} {key : α} :
    d.contains key = true ↔ key ∈ d.keys := by
  simp [contains, keys]

theorem contains_insert {d : Dictionary α β} {key k : α} {value : β} :
    (d.insert key value).contains k = true ↔ k = key ∨ d.contains k = true := by
  simp only [contains_iff, keys, entries_insert, mem_keys_enter]

end Dictionary

end ShellPrompt
