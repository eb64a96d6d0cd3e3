import ShellPrompt.Data.Merge
import ShellPrompt.Proofs.Data.Keys

/-! # Merging mappings

What is merged keeps the entries of the first mapping in their places, with the values of the second
put over theirs, and adds the other entries of the second behind them. So merging can be described
key by key, and grouping it in another way changes something only where a value in the middle is of
another kind than those around it. -/

namespace ShellPrompt

namespace Data

/-! ## Kinds of values -/

/-- Mappings are merged, lists are put together, and everything else is replaced. -/
inductive Kind where
  | mapping | list | single
deriving DecidableEq

/-- The kind of a value. -/
def kind : Data → Kind
  | map _ => .mapping
  | list _ => .list
  | _ => .single

theorem exists_map_of_kind {value : Data} (h : value.kind = .mapping) :
    ∃ entries, value = map entries := by
  cases value <;> first | exact ⟨_, rfl⟩ | cases h

theorem exists_list_of_kind {value : Data} (h : value.kind = .list) :
    ∃ items, value = list items := by
  cases value <;> first | exact ⟨_, rfl⟩ | cases h

@[simp] theorem cover_none (value : Data) : cover value none = value := by
  cases value <;> rw [cover] <;> simp

theorem cover_map_map (entries base : Entries) :
    cover (map entries) (some (map base)) = map (Entries.merge base entries) := by
  rw [cover, Entries.merge]

theorem cover_list_list (items base : List Data) :
    cover (list items) (some (list base)) = list (base ++ items) := by
  rw [cover]

/-- Nothing is left of a value of another kind. -/
theorem cover_of_kind_ne {value old : Data} (h : old.kind ≠ value.kind) :
    cover value (some old) = value := by
  cases value <;> cases old <;> simp_all [cover, kind]

theorem cover_of_single {value : Data} (h : value.kind = .single) (old : Option Data) :
    cover value old = value := by
  cases value <;> simp_all [cover, kind]

@[simp] theorem kind_cover (value : Data) (old : Option Data) :
    (cover value old).kind = value.kind := by
  cases old with
  | none => rw [cover_none]
  | some old => cases value <;> cases old <;> simp [cover, kind]

/-- The value of a key after merging: what is put over it, if there is anything. -/
def overlay : Option Data → Option Data → Option Data
  | old, none => old
  | old, some value => some (cover value old)

@[simp] theorem overlay_none_left (value : Option Data) : overlay none value = value := by
  cases value <;> simp [overlay]

end Data

namespace Entries

open Data

variable {base override : Entries} {entry : Scalar × Data} {key : Scalar}

/-! ## The entries after merging -/

/-- An entry with the value that a mapping puts over its own. -/
def update (override : Entries) (entry : Scalar × Data) : Scalar × Data :=
  (entry.1, (override.get? entry.1).elim entry.2 fun value => cover value (some entry.2))

@[simp] theorem update_fst : (update override entry).1 = entry.1 := rfl

theorem update_of_absent (h : get? override entry.1 = none) : update override entry = entry := by
  rw [update, h, Option.elim_none]

theorem update_congr {other : Entries} (h : get? override entry.1 = get? other entry.1) :
    update override entry = update other entry := by
  rw [update, update, h]

@[simp] theorem merge_nil (base : Entries) : merge base [] = base := rfl

theorem merge_cons (base : Entries) (entry : Scalar × Data) (rest : Entries) :
    merge base (entry :: rest) = merge (alter entry.1 (cover entry.2) base) rest := by
  rw [merge, mergeAll, mergeEntry, merge]

theorem get?_merge (h : Distinct override) :
    get? (merge base override) key = overlay (get? base key) (get? override key) := by
  induction override generalizing base with
  | nil => rfl
  | cons entry rest ih =>
      rw [merge_cons, ih (List.pairwise_cons.mp h).2, get?_alter]
      by_cases hsame : entry.1.same key = true
      · rw [if_pos hsame, get?_cons_of_same hsame, ← get?_congr hsame, h.get?_tail,
          ← get?_congr hsame]
        rfl
      · rw [if_neg hsame, get?_cons_of_not_same (by simpa using hsame)]

/-- The entries after merging, in order. -/
theorem merge_eq (hbase : Distinct base) (h : Distinct override) :
    merge base override =
      base.map (update override) ++ override.filter fun entry => (get? base entry.1).isNone := by
  induction override generalizing base with
  | nil =>
      have hself : ∀ entry ∈ base, update [] entry = entry := fun _ _ => update_of_absent rfl
      rw [merge_nil, List.filter_nil, List.append_nil, List.map_congr_left hself, List.map_id']
  | cons entry rest ih =>
      have hrest := (List.pairwise_cons.mp h).2
      have htail := h.get?_tail
      have hother : ∀ later ∈ rest, entry.1.same later.1 = false := (List.pairwise_cons.mp h).1
      rw [merge_cons, ih hbase.alter hrest]
      by_cases hkey : get? base entry.1 = none
      · -- The entry is a new one: it is added behind the others and changed no more.
        have hbefore : ∀ old ∈ base, update rest old = update (entry :: rest) old := by
          intro old hold
          apply update_congr
          rw [get?_cons_of_not_same]
          rw [Scalar.same_comm]
          exact get?_eq_none_iff.mp hkey old hold
        have hfilter : ∀ later ∈ rest,
            (get? (base ++ [entry]) later.1).isNone = (get? base later.1).isNone := by
          intro later hlater
          rw [get?, List.find?_append, List.find?_singleton, hother later hlater]
          simp [get?]
        rw [alter_of_absent hkey, cover_none, List.map_append, List.map_congr_left hbefore,
          List.map_singleton, update_of_absent htail, List.filter_congr hfilter,
          List.filter_cons_of_pos (by simp [hkey]), List.append_assoc, List.singleton_append]
      · have hchanged : ∀ old ∈ base, update rest
            (old.1, if old.1.same entry.1 then cover entry.2 (some old.2) else old.2) =
              update (entry :: rest) old := by
          intro old hold
          by_cases hsame : old.1.same entry.1 = true
          · have hfound : get? (entry :: rest) old.1 = some entry.2 :=
              get?_cons_of_same (by rw [Scalar.same_comm]; exact hsame)
            have habsent : get? rest old.1 = none := (get?_congr hsame).trans htail
            rw [if_pos hsame, update, habsent, update, hfound]
            rfl
          · rw [if_neg hsame]
            apply update_congr
            rw [get?_cons_of_not_same]
            rw [Scalar.same_comm]
            simpa using hsame
        have hfilter : ∀ later ∈ rest,
            (get? (alter entry.1 (cover entry.2) base) later.1).isNone =
              (get? base later.1).isNone := by
          intro later hlater
          rw [get?_alter, hother later hlater]
          rfl
        rw [List.filter_congr hfilter, alter_of_present hbase hkey, List.map_map,
          List.filter_cons_of_neg (by simpa using hkey)]
        congr 1
        exact List.map_congr_left hchanged

theorem distinct_merge (hbase : Distinct base) (h : Distinct override) :
    Distinct (merge base override) := by
  rw [merge_eq hbase h]
  apply List.pairwise_append.mpr
  refine ⟨hbase.map_values fun _ => rfl, h.filter _, ?_⟩
  intro first hfirst second hsecond
  obtain ⟨old, hold, rfl⟩ := List.mem_map.mp hfirst
  have habsent : get? base second.1 = none := by simpa using (List.mem_filter.mp hsecond).2
  exact get?_eq_none_iff.mp habsent old hold

theorem mem_merge (hbase : Distinct base) (h : Distinct override)
    (hentry : entry ∈ merge base override) :
    (∃ old ∈ base, entry = update override old) ∨ entry ∈ override := by
  rw [merge_eq hbase h] at hentry
  rcases List.mem_append.mp hentry with hmap | hfilter
  · obtain ⟨old, hold, rfl⟩ := List.mem_map.mp hmap
    exact .inl ⟨old, hold, rfl⟩
  · exact .inr (List.mem_filter.mp hfilter).1

/-! ## Identity and grouping -/

/-- Nothing is changed by merging into the empty mapping. -/
theorem merge_nil_left (h : Distinct override) : merge [] override = override := by
  rw [merge_eq distinct_nil h]
  simp

/-- Mappings may be grouped in any way if the values of each key may. -/
theorem merge_assoc_of_values {first second third : Entries} (hfirst : Distinct first)
    (hsecond : Distinct second) (hthird : Distinct third)
    (hvalues : ∀ key a b c, get? first key = some a → get? second key = some b →
      get? third key = some c →
      cover c (some (cover b (some a))) = cover (cover c (some b)) (some a)) :
    merge (merge first second) third = merge first (merge second third) := by
  -- The entries of the first mapping get the same values,
  have hupdate : (first.map (update second)).map (update third) =
      first.map (update (merge second third)) := by
    rw [List.map_map]
    apply List.map_congr_left
    intro entry hentry
    rw [Function.comp_apply]
    have hmerged : get? (merge second third) entry.1 =
        overlay (get? second entry.1) (get? third entry.1) := get?_merge hthird
    cases hb : get? second entry.1 with
    | none =>
        rw [update_of_absent hb, update, update, hmerged, hb, overlay_none_left]
    | some b =>
        have ha : get? first entry.1 = some entry.2 := hfirst.get?_of_mem hentry
        rw [hb] at hmerged
        cases hc : get? third entry.1 with
        | none =>
            have habsent : get? third (update second entry).1 = none := hc
            rw [update_of_absent habsent]
            apply update_congr
            rw [hmerged, hc, hb]
            rfl
        | some c =>
            rw [hc] at hmerged
            simp only [update, hb, hc, hmerged, overlay, Option.elim_some,
              hvalues entry.1 entry.2 b c ha hb hc]
  -- those of the second are new ones in both groupings,
  have hmiddle : (second.filter fun entry => (get? first entry.1).isNone).map (update third) =
      (second.map (update third)).filter fun entry => (get? first entry.1).isNone := by
    rw [List.filter_map]
    rfl
  -- and those of the third are new if neither of the others has them.
  have hlast : ∀ entry ∈ third, (get? (merge first second) entry.1).isNone =
      ((get? first entry.1).isNone && (get? second entry.1).isNone) := by
    intro entry _
    rw [get?_merge hsecond]
    cases get? second entry.1 <;> cases get? first entry.1 <;> rfl
  calc
    merge (merge first second) third =
        (first.map (update second)).map (update third) ++
          (second.filter fun entry => (get? first entry.1).isNone).map (update third) ++
          third.filter fun entry => (get? (merge first second) entry.1).isNone := by
      rw [merge_eq (distinct_merge hfirst hsecond) hthird, merge_eq hfirst hsecond,
        List.map_append]
    _ = first.map (update (merge second third)) ++
          (second.map (update third) ++
              third.filter fun entry => (get? second entry.1).isNone).filter
            fun entry => (get? first entry.1).isNone := by
      rw [hupdate, hmiddle, List.filter_congr hlast, List.filter_append, List.filter_filter,
        List.append_assoc]
    _ = merge first (merge second third) := by
      rw [← merge_eq hsecond hthird, ← merge_eq hfirst (distinct_merge hsecond hthird)]

end Entries

end ShellPrompt
