import ShellPrompt.Config.Basic
import ShellPrompt.Proofs.Style.Table
import ShellPrompt.Proofs.Template.Keywords

/-! # Styles of the user's own

A configuration is accepted only if its styles can be used in templates, and if they leave alone all
templates that are written without them. -/

namespace ShellPrompt.Config

open Template

/-- A style whose name and description are accepted. -/
structure Accepted (pair : String × String) : Prop where
  name : checkStyleName pair.1 = .ok ()
  spec : ∃ look, Rendition.ofSpec pair.2 = .ok look

theorem addStyle_eq_ok {styles next : Dictionary String String} {entry : Scalar × Data}
    (h : addStyle styles entry = .ok next) :
    ∃ name spec, Accepted (name, spec) ∧ next = styles.insert name spec := by
  unfold addStyle at h
  dsimp only at h
  cases hname : checkStyleName entry.1.display with
  | error error =>
      rw [hname] at h
      cases h
  | ok =>
      cases hspec : Rendition.ofSpec entry.2.display with
      | error error =>
          rw [hname, hspec] at h
          cases h
      | ok look =>
          rw [hname, hspec] at h
          exact ⟨_, _, ⟨hname, look, hspec⟩, (Except.ok.inj h).symm⟩

theorem accepted_of_foldlM {entries : Entries} {styles last : Dictionary String String}
    (hstyles : ∀ pair ∈ styles.entries, Accepted pair)
    (h : entries.foldlM addStyle styles = .ok last) : ∀ pair ∈ last.entries, Accepted pair := by
  induction entries generalizing styles with
  | nil =>
      obtain rfl := Except.ok.inj h
      exact hstyles
  | cons entry entries ih =>
      rw [List.foldlM_cons] at h
      cases hadd : addStyle styles entry with
      | error error =>
          rw [hadd] at h
          cases h
      | ok next =>
          rw [hadd] at h
          obtain ⟨name, spec, haccepted, rfl⟩ := addStyle_eq_ok hadd
          refine ih (fun pair hpair => ?_) h
          rcases Dictionary.mem_of_mem_enter hpair with rfl | hpair
          · exact haccepted
          · exact hstyles pair hpair

theorem exists_stylesOf {entries : Entries} {config : Config} (h : ofMerged entries = .ok config) :
    ∃ raw, stylesOf raw = .ok config.styles := by
  unfold ofMerged at h
  split at h
  · cases h
  · split at h
    · cases h
    · rename_i raw _
      dsimp only at h
      split at h
      · rename_i hstyles
        obtain rfl := Except.ok.inj h
        refine ⟨raw, ?_⟩
        cases hraw : stylesOf raw with
        | error error =>
            rw [hraw] at hstyles
            cases hstyles
        | ok styles =>
            rw [hraw] at hstyles
            exact congrArg _ (Except.ok.inj hstyles)
      · cases h

/-- All styles of a configuration are accepted ones. -/
theorem accepted_of_ofData {settings : Entries} {config : Config}
    (h : ofData settings = .ok config) : ∀ pair ∈ config.styles.entries, Accepted pair := by
  obtain ⟨raw, hraw⟩ := exists_stylesOf h
  exact accepted_of_foldlM (by simp) hraw

/-! ## Names of styles -/

section

variable {pair : String × String}

theorem Accepted.isIdentifier (h : Accepted pair) : isIdentifier pair.1 = true := by
  have hname := h.name
  unfold checkStyleName at hname
  split at hname
  · cases hname
  · rename_i hidentifier
    simpa using hidentifier

theorem Accepted.not_isReserved (h : Accepted pair) : isReserved pair.1 = false := by
  have hname := h.name
  unfold checkStyleName at hname
  split at hname
  · cases hname
  · split at hname
    · cases hname
    · rename_i hreserved
      simpa using hreserved

theorem Accepted.isName (h : Accepted pair) : IsName pair.1 := by
  have hreserved := h.not_isReserved
  simp only [isReserved, Bool.or_eq_false_iff] at hreserved
  exact ⟨h.isIdentifier, by simpa using hreserved.1.1.1.2⟩

theorem Accepted.ne_reset (h : Accepted pair) : pair.1 ≠ StyleTable.resetName := by
  have hreserved := h.not_isReserved
  simp only [isReserved, Bool.or_eq_false_iff] at hreserved
  simpa using hreserved.1.1.1.1

theorem Accepted.isFree (h : Accepted pair) : IsFree pair.1 := by
  have hreserved := h.not_isReserved
  simp only [isReserved, Bool.or_eq_false_iff] at hreserved
  refine ⟨by simpa using hreserved.1.1.2, fun hif => ?_⟩
  have hprefix := List.isPrefixOf_iff_prefix.mpr hif
  cases hprefix.symm.trans hreserved.1.2

end

/-- The style table of an accepted configuration. Each style of the user's own is read as such, with
any white space around its name, and is no reset. Whatever the built-in keywords suffice to read is
read as before. -/
theorem parse_styleTable_of_ofData {settings : Entries} {config : Config}
    (h : ofData settings = .ok config) :
    ∃ table, config.styleTable = .ok table ∧
      (∀ name ∈ config.styles.keys, name ≠ StyleTable.resetName ∧
        ∀ before after : String, AllBlank before.toList → AllBlank after.toList →
          parse table ("\x7b" ++ before ++ name ++ after ++ "\x7d") = .ok [.style name]) ∧
      ∀ template tree, parse .builtin template = .ok tree → parse table template = .ok tree := by
  have haccepted := accepted_of_ofData h
  obtain ⟨table, htable⟩ := StyleTable.exists_ofSpecs fun pair hpair => (haccepted pair hpair).spec
  have hdefines := StyleTable.defines_ofSpecs htable
  have hextends : Extends table .builtin := by
    refine ⟨fun name hname => (hdefines.contains_iff name).mpr (.inl hname), fun name hname => ?_⟩
    refine ((hdefines.contains_iff name).mp hname).imp_right fun hcustom => ?_
    obtain ⟨pair, hpair, rfl⟩ := List.mem_map.mp hcustom
    exact (haccepted pair hpair).isFree
  refine ⟨table, htable, fun name hname => ?_, fun template tree => hextends.parse_eq_ok⟩
  obtain ⟨pair, hpair, rfl⟩ := List.mem_map.mp hname
  have hknown := (hdefines.contains_iff pair.1).mpr (.inr hname)
  refine ⟨(haccepted pair hpair).ne_reset, fun before after hbefore hafter => ?_⟩
  exact parse_keyword (haccepted pair hpair).isName hknown hbefore hafter

/-- A style with a name of its own, and one in the place of a built-in keyword. -/
def warnStyles : Dictionary String String :=
  .ofPairs [("warn", "bold yellow on red"), ("red", "bright red")]

/-- Settings with these styles only. -/
def warnSettings : Entries :=
  [(.text stylesField,
    .map (warnStyles.entries.map fun pair => (.text pair.1, .scalar (.text pair.2))))]

theorem parse_styleTable_warn : ∃ config table, ofData warnSettings = .ok config ∧
    config.styles = warnStyles ∧ config.styleTable = .ok table ∧
    parse table "\x7b warn\t\x7d" = .ok [.style "warn"] := by
  have hstyles : (ofData warnSettings).map Config.styles = .ok warnStyles := by decide +kernel
  cases hconfig : ofData warnSettings with
  | error error =>
      rw [hconfig] at hstyles
      cases hstyles
  | ok config =>
      rw [hconfig] at hstyles
      have hwarn : config.styles = warnStyles := Except.ok.inj hstyles
      obtain ⟨table, htable, hnames, _⟩ := parse_styleTable_of_ofData hconfig
      have hmem : "warn" ∈ config.styles.keys := by
        rw [hwarn]
        decide
      have hparse := (hnames "warn" hmem).2 " " "\t" (List.all_eq_true.mp (by decide))
        (List.all_eq_true.mp (by decide))
      exact ⟨config, table, rfl, hwarn, htable, hparse⟩

end ShellPrompt.Config
