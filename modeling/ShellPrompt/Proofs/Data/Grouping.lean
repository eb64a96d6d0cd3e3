import Mathlib.Data.List.Induction
import ShellPrompt.Proofs.Data.Merge

/-! # Merging in groups

Mappings that are merged one after another may be merged in groups first, unless a value is reset:
where it is a mapping, or a list, both before and afterwards and something else in between, the
grouping decides whether what was there before is lost. -/

namespace ShellPrompt

namespace Data

open Entries

/-! ## Mappings all the way down -/

/-- A value in which no key of a mapping occurs twice, and none in a mapping that is a value of it
and so on. -/
inductive Proper : Data → Prop where
  | map {entries : Entries} (distinct : entries.Distinct)
      (values : ∀ entry ∈ entries, Proper entry.2) : Proper (.map entries)
  | other {value : Data} (h : value.kind ≠ .mapping) : Proper value

section

variable {entries : Entries} {key : Scalar} {value : Data}

theorem Proper.distinct (h : Proper (.map entries)) : entries.Distinct := by
  cases h with
  | map distinct _ => exact distinct
  | other h => exact absurd rfl h

theorem Proper.values (h : Proper (.map entries)) : ∀ entry ∈ entries, Proper entry.2 := by
  cases h with
  | map _ values => exact values
  | other h => exact absurd rfl h

theorem Proper.of_get? (h : Proper (.map entries)) (hvalue : get? entries key = some value) :
    Proper value := by
  obtain ⟨entry, hentry, _, rfl⟩ := exists_of_get?_eq_some hvalue
  exact h.values entry hentry

theorem Proper.cover (h : Proper value) {old : Option Data} (hold : ∀ before ∈ old, Proper before) :
    Proper (cover value old) := by
  induction h generalizing old with
  | other h => exact .other (by rwa [kind_cover])
  | @map override hdistinct hvalues ih =>
      cases old with
      | none => rw [cover_none]; exact .map hdistinct hvalues
      | some before =>
          by_cases hkind : before.kind = .mapping
          · obtain ⟨base, rfl⟩ := exists_map_of_kind hkind
            have hbase : Proper (Data.map base) := hold _ rfl
            rw [cover_map_map]
            refine .map (distinct_merge hbase.distinct hdistinct) fun entry hentry => ?_
            rcases mem_merge hbase.distinct hdistinct hentry with ⟨first, hfirst, rfl⟩ | hentry
            · rw [update]
              cases hnew : get? override first.1 with
              | none => exact hbase.values first hfirst
              | some new =>
                  obtain ⟨other, hother, _, rfl⟩ := exists_of_get?_eq_some hnew
                  apply ih other hother
                  rintro _ ⟨⟩
                  exact hbase.values first hfirst
            · exact hvalues entry hentry
          · rw [cover_of_kind_ne hkind]
            exact .map hdistinct hvalues

theorem Proper.merge {base override : Entries} (hbase : Proper (.map base))
    (h : Proper (.map override)) : Proper (.map (Entries.merge base override)) := by
  rw [← cover_map_map]
  apply h.cover
  rintro _ ⟨⟩
  exact hbase

end

/-! ## Values at key paths -/

/-- The value that keys lead to, one after another. -/
def at? : Data → List Scalar → Option Data
  | value, [] => some value
  | map entries, key :: path => (get? entries key).bind fun inner => at? inner path
  | _, _ :: _ => none

theorem at?_map_cons (entries : Entries) (key : Scalar) (path : List Scalar) :
    (map entries).at? (key :: path) = (entries.get? key).bind fun inner => inner.at? path := rfl

theorem at?_cons_of_kind_ne {value : Data} (h : value.kind ≠ .mapping) (key : Scalar)
    (path : List Scalar) : value.at? (key :: path) = none := by
  cases value <;> first | rfl | exact absurd rfl h

/-- A value in a merged one is of a kind that it had in one of the two. -/
theorem exists_at?_of_cover {value old v : Data} {path : List Scalar} (hvalue : Proper value)
    (h : (cover value (some old)).at? path = some v) :
    ∃ before, (old.at? path = some before ∨ value.at? path = some before) ∧
      before.kind = v.kind := by
  induction path generalizing value old with
  | nil =>
      obtain rfl := Option.some.inj h
      exact ⟨value, .inr rfl, (kind_cover value (some old)).symm⟩
  | cons key path ih =>
      by_cases hmapping : value.kind = .mapping
      · obtain ⟨override, rfl⟩ := exists_map_of_kind hmapping
        by_cases hold : old.kind = .mapping
        · obtain ⟨base, rfl⟩ := exists_map_of_kind hold
          rw [cover_map_map, at?_map_cons, get?_merge hvalue.distinct] at h
          rw [at?_map_cons, at?_map_cons]
          cases hnew : get? override key with
          | none =>
              rw [hnew] at h
              exact ⟨v, .inl h, rfl⟩
          | some new =>
              rw [hnew] at h
              cases hbefore : get? base key with
              | none =>
                  rw [hbefore, overlay_none_left] at h
                  exact ⟨v, .inr h, rfl⟩
              | some before =>
                  rw [hbefore] at h
                  exact ih (hvalue.of_get? hnew) h
        · rw [cover_of_kind_ne hold] at h
          exact ⟨v, .inr h, rfl⟩
      · rw [at?_cons_of_kind_ne (by rwa [kind_cover])] at h
        cases h

/-! ## Resets -/

/-- Whether a value is reset: it is a mapping or a list in the first and the third, and in the
second something of another kind. -/
def Resets (first second third : Data) : Prop :=
  ∃ path a b c, first.at? path = some a ∧ second.at? path = some b ∧ third.at? path = some c ∧
    a.kind = c.kind ∧ a.kind ≠ .single ∧ b.kind ≠ a.kind

theorem resets_of_kind {a b c : Data} (hsame : a.kind = c.kind) (hsingle : a.kind ≠ .single)
    (hother : b.kind ≠ a.kind) : Resets a b c :=
  ⟨[], a, b, c, rfl, rfl, rfl, hsame, hsingle, hother⟩

theorem Resets.of_get? {first second third : Entries} {key : Scalar} {a b c : Data}
    (ha : get? first key = some a) (hb : get? second key = some b) (hc : get? third key = some c)
    (h : Resets a b c) : Resets (map first) (map second) (map third) := by
  obtain ⟨path, x, y, z, hx, hy, hz, hkinds⟩ := h
  refine ⟨key :: path, x, y, z, ?_, ?_, ?_, hkinds⟩
  · rw [at?_map_cons, ha, Option.bind_some, hx]
  · rw [at?_map_cons, hb, Option.bind_some, hy]
  · rw [at?_map_cons, hc, Option.bind_some, hz]

/-- Keys that the second mapping has and the third has not are not reset. -/
theorem not_resets_of_absent {first second third : Entries}
    (h : ∀ entry ∈ second, get? third entry.1 = none) :
    ¬ Resets (map first) (map second) (map third) := by
  intro hreset
  obtain ⟨path, a, b, c, ha, hb, hc, hsame, hsingle, hother⟩ := hreset
  cases path with
  | nil =>
      cases ha
      cases hb
      exact hother rfl
  | cons key path =>
      rw [at?_map_cons] at hb hc
      obtain ⟨inner, hinner, _⟩ := Option.bind_eq_some_iff.mp hb
      obtain ⟨entry, hentry, hkey, _⟩ := exists_of_get?_eq_some hinner
      rw [← get?_congr hkey, h entry hentry] at hc
      cases hc

/-- Where not all three are of one kind, what counts is what the last of them is put over. -/
theorem cover_assoc_of_kind_ne {a b c : Data} (h : ¬ Resets a b c)
    (hkinds : c.kind = .single ∨ b.kind ≠ c.kind ∨ a.kind ≠ c.kind) :
    cover c (some (cover b (some a))) = cover (cover c (some b)) (some a) := by
  by_cases hsingle : c.kind = .single
  · rw [cover_of_single hsingle, cover_of_single hsingle, cover_of_single hsingle]
  · by_cases hb : b.kind = c.kind
    · have ha : a.kind ≠ c.kind := (hkinds.resolve_left hsingle).resolve_left (not_not.mpr hb)
      have hmiddle : cover b (some a) = b := cover_of_kind_ne (by rwa [hb])
      have hlast : cover (cover c (some b)) (some a) = cover c (some b) :=
        cover_of_kind_ne (by rwa [kind_cover])
      rw [hmiddle, hlast]
    · have ha : a.kind ≠ c.kind := fun ha =>
        h (resets_of_kind ha (by rwa [ha]) (by rwa [ha]))
      have hfirst : cover c (some (cover b (some a))) = c := cover_of_kind_ne (by rwa [kind_cover])
      rw [hfirst, cover_of_kind_ne hb, cover_of_kind_ne ha]

/-- Values may be put over one another in any grouping if nothing is reset. -/
theorem cover_assoc {a b c : Data} (ha : Proper a) (hb : Proper b) (hc : Proper c)
    (h : ¬ Resets a b c) :
    cover c (some (cover b (some a))) = cover (cover c (some b)) (some a) := by
  induction hc generalizing a b with
  | @other c hmapping =>
      by_cases hlists : a.kind = .list ∧ b.kind = .list ∧ c.kind = .list
      · obtain ⟨base, rfl⟩ := exists_list_of_kind hlists.1
        obtain ⟨middle, rfl⟩ := exists_list_of_kind hlists.2.1
        obtain ⟨items, rfl⟩ := exists_list_of_kind hlists.2.2
        rw [cover_list_list, cover_list_list, cover_list_list, cover_list_list, List.append_assoc]
      · apply cover_assoc_of_kind_ne h
        cases hkind : c.kind with
        | mapping => exact absurd hkind hmapping
        | single => exact .inl rfl
        | list =>
            rw [hkind] at hlists
            simp only [and_true, not_and] at hlists
            by_cases ha : a.kind = .list
            · exact .inr (.inl (hlists ha))
            · exact .inr (.inr ha)
  | @map third hdistinct hvalues ih =>
      by_cases hmaps : a.kind = .mapping ∧ b.kind = .mapping
      · obtain ⟨first, rfl⟩ := exists_map_of_kind hmaps.1
        obtain ⟨second, rfl⟩ := exists_map_of_kind hmaps.2
        rw [cover_map_map, cover_map_map, cover_map_map, cover_map_map]
        congr 1
        apply merge_assoc_of_values ha.distinct hb.distinct hdistinct
        intro key x y z hx hy hz
        obtain ⟨entry, hentry, _, rfl⟩ := exists_of_get?_eq_some hz
        exact ih entry hentry (ha.of_get? hx) (hb.of_get? hy)
          fun hreset => h (hreset.of_get? hx hy hz)
      · apply cover_assoc_of_kind_ne h
        by_cases ha : a.kind = .mapping
        · exact .inr (.inl fun hb => hmaps ⟨ha, hb⟩)
        · exact .inr (.inr ha)

end Data

namespace Entries

open Data

theorem merge_assoc {first second third : Entries} (hfirst : Proper (.map first))
    (hsecond : Proper (.map second)) (hthird : Proper (.map third))
    (h : ¬ Resets (.map first) (.map second) (.map third)) :
    merge (merge first second) third = merge first (merge second third) := by
  have hassoc := cover_assoc hfirst hsecond hthird h
  rw [cover_map_map, cover_map_map, cover_map_map, cover_map_map] at hassoc
  exact Data.map.inj hassoc

/-- A list that is reset by a single value in between: the grouping decides whether the items of the
first mapping are lost. -/
example (old new : List Data) (reset : Scalar) :
    let first : Entries := [(.text "list", .list old)]
    let second : Entries := [(.text "list", .scalar reset)]
    let third : Entries := [(.text "list", .list new)]
    merge (merge first second) third = [(.text "list", .list new)] ∧
      merge first (merge second third) = [(.text "list", .list (old ++ new))] :=
  ⟨rfl, rfl⟩

/-! ## Many mappings -/

/-- Mappings merged one after another. -/
def merged (all : List Entries) : Entries := all.foldl merge []

/-- Whether no value is reset on the way from one mapping to a later one. -/
def ResetFree (all : List Entries) : Prop :=
  ∀ first second third, List.Sublist [first, second, third] all →
    ¬ Resets (.map first) (.map second) (.map third)

variable {all : List Entries}

theorem ResetFree.tail {first : Entries} (h : ResetFree (first :: all)) : ResetFree all :=
  fun a b c hsublist => h a b c (hsublist.cons first)

theorem merged_concat (all : List Entries) (last : Entries) :
    merged (all ++ [last]) = merge (merged all) last := by
  rw [merged, List.foldl_concat, merged]

theorem proper_merged (h : ∀ entries ∈ all, Proper (.map entries)) :
    Proper (.map (merged all)) := by
  induction all using List.reverseRecOn with
  | nil => exact .map distinct_nil (by simp [merged])
  | append_singleton all last ih =>
      rw [merged_concat]
      exact (ih fun entries hentries => h entries (List.mem_append_left _ hentries)).merge
        (h last (by simp))

/-- A value in what is merged is of a kind that it had somewhere. -/
theorem exists_at?_of_merged {key : Scalar} {path : List Scalar} {value : Data}
    (h : ∀ entries ∈ all, Proper (.map entries))
    (hvalue : (Data.map (merged all)).at? (key :: path) = some value) :
    ∃ entries ∈ all, ∃ before, (Data.map entries).at? (key :: path) = some before ∧
      before.kind = value.kind := by
  induction all using List.reverseRecOn generalizing value with
  | nil => cases hvalue
  | append_singleton all last ih =>
      rw [merged_concat, ← cover_map_map] at hvalue
      obtain ⟨before, hbefore | hbefore, hkind⟩ :=
        exists_at?_of_cover (h last (by simp)) hvalue
      · obtain ⟨entries, hentries, earlier, hearlier, heq⟩ :=
          ih (fun entries hentries => h entries (List.mem_append_left _ hentries)) hbefore
        exact ⟨entries, List.mem_append_left _ hentries, earlier, hearlier, heq.trans hkind⟩
      · exact ⟨last, by simp, before, hbefore, hkind⟩

/-- Without resets the later mappings may be merged among themselves first. -/
theorem merged_append {first second : List Entries}
    (hproper : ∀ entries ∈ first ++ second, Proper (.map entries))
    (h : ResetFree (first ++ second)) :
    merged (first ++ second) = merge (merged first) (merged second) := by
  induction second using List.reverseRecOn with
  | nil => rw [List.append_nil]; rfl
  | append_singleton second last ih =>
      rw [← List.append_assoc] at hproper h ⊢
      have hfront : ∀ entries ∈ first ++ second, Proper (.map entries) := fun entries hentries =>
        hproper entries (List.mem_append_left _ hentries)
      have hfirst : ∀ entries ∈ first, Proper (.map entries) := fun entries hentries =>
        hfront entries (List.mem_append_left _ hentries)
      have hsecond : ∀ entries ∈ second, Proper (.map entries) := fun entries hentries =>
        hfront entries (List.mem_append_right _ hentries)
      have hfree : ResetFree (first ++ second) := fun a b c hsublist =>
        h a b c (hsublist.trans (List.sublist_append_left _ _))
      rw [merged_concat, ih hfront hfree, merged_concat]
      apply merge_assoc (proper_merged hfirst) (proper_merged hsecond) (hproper last (by simp))
      rintro ⟨path, a, b, c, ha, hb, hc, hsame, hsingle, hother⟩
      cases path with
      | nil =>
          obtain rfl := Option.some.inj ha
          obtain rfl := Option.some.inj hb
          exact hother rfl
      | cons key path =>
          -- Both merged values have their kinds from mappings among those that were merged.
          obtain ⟨x, hx, a', ha', hakind⟩ := exists_at?_of_merged hfirst ha
          obtain ⟨y, hy, b', hb', hbkind⟩ := exists_at?_of_merged hsecond hb
          have hsublist : List.Sublist [x, y, last] (first ++ second ++ [last]) :=
            ((List.singleton_sublist.mpr hx).append (List.singleton_sublist.mpr hy)).append
              (List.Sublist.refl [last])
          rw [← hakind] at hsame hsingle hother
          rw [← hbkind] at hother
          exact h x y last hsublist
            ⟨key :: path, a', b', c, ha', hb', hc, hsame, hsingle, hother⟩

theorem merged_cons {first : Entries}
    (hproper : ∀ entries ∈ first :: all, Proper (.map entries)) (h : ResetFree (first :: all)) :
    merged (first :: all) = merge first (merged all) := by
  have hfirst : merged [first] = first := merge_nil_left (hproper first (by simp)).distinct
  rw [← List.singleton_append] at hproper h ⊢
  rw [merged_append hproper h, hfirst]

end Entries

end ShellPrompt
