import ShellPrompt.Proofs.Template.Reserved

/-! # Parsers read lexemes

At every place the parsers of the grammar agree with the scanner: the alternative that succeeds is
the one that the next lexeme calls for. -/

namespace ShellPrompt.Template

open Text

variable {styles : StyleTable} {start stop : Cursor}

/-! ## Where a tag ends -/

theorem AllBlank.closing_notMem {text : List Char} (h : AllBlank text) : '}' ∉ text :=
  notMem_of_all h (by decide)

theorem IsName.closing_notMem {name : String} (h : IsName name) : '}' ∉ name.toList :=
  notMem_of_all (isName_iff.mp h).2.1 (by decide)

theorem IsKey.closing_notMem {key : String} (h : IsKey key) : '}' ∉ key.toList :=
  notMem_of_all h.2 (by decide)

theorem IsValue.closing_notMem {value : String} (h : IsValue value) : '}' ∉ value.toList :=
  notMem_of_all h.2 (by decide)

/-- The first closing brace of a text divides it in one way only. -/
theorem append_closing_inj {first second rest last : List Char} (hfirst : '}' ∉ first)
    (hsecond : '}' ∉ second) (h : first ++ '}' :: rest = second ++ '}' :: last) :
    first = second ∧ rest = last := by
  have hstops : ∀ text, Stops (fun c => decide (c ≠ '}')) ('}' :: text) := fun text =>
    stops_cons.mpr (by simp)
  have hpass : ∀ text : List Char, '}' ∉ text → ∀ c ∈ text, decide (c ≠ '}') = true := by
    intro text htext c hc
    simpa using ne_of_mem_of_not_mem hc htext
  have heq : first = second := by
    have htake := congrArg (List.takeWhile fun c => decide (c ≠ '}')) h
    rwa [takeWhile_append_of_stops (hpass first hfirst) (hstops rest),
      takeWhile_append_of_stops (hpass second hsecond) (hstops last)] at htake
  subst heq
  exact ⟨rfl, by simpa using h⟩

/-- What is read from a text without meeting its closing brace is part of what stands before it. -/
theorem prefix_of_closing_notMem {text body rest last : List Char} (htext : '}' ∉ text)
    (h : text ++ last = body ++ '}' :: rest) :
    ∃ after, body = text ++ after ∧ last = after ++ '}' :: rest := by
  rcases List.append_eq_append_iff.mp h with ⟨after, hbody, hlast⟩ | ⟨after, htext', hrest⟩
  · exact ⟨after, hbody, hlast⟩
  · cases after with
    | nil =>
        rw [List.append_nil] at htext'
        exact ⟨[], by rw [htext', List.append_nil], hrest.symm⟩
    | cons c after =>
        obtain ⟨rfl, _⟩ := List.cons.inj hrest
        exact absurd (by simp [htext']) htext

theorem reads_tag_iff {body inner rest : List Char}
    (hstart : start.rest = '{' :: (body ++ '}' :: rest)) (hbody : '}' ∉ body)
    (hinner : '}' ∉ inner) :
    start.Reads ('{' :: (inner ++ ['}'])) stop ↔
      inner = body ∧ stop = start.advance (body.length + 2) := by
  constructor
  · intro h
    have hrest : inner ++ '}' :: stop.rest = body ++ '}' :: rest := by
      have := hstart.symm.trans h.1
      simpa using this.symm
    obtain ⟨rfl, _⟩ := append_closing_inj hinner hbody hrest
    refine ⟨rfl, ?_⟩
    simpa using h.eq_advance
  · rintro ⟨rfl, rfl⟩
    have hsplit : start.rest = ('{' :: (inner ++ ['}'])) ++ rest := by
      simpa using hstart
    simpa using Cursor.reads_advance hsplit

theorem advance_tag_rest {body rest : List Char}
    (hstart : start.rest = '{' :: (body ++ '}' :: rest)) :
    (start.advance (body.length + 2)).rest = rest := by
  rw [Cursor.advance_rest, hstart]
  simp

theorem eq_advance_tag {text body rest : List Char}
    (hstart : start.rest = '{' :: (body ++ '}' :: rest)) (h : start.Reads text stop)
    (hstop : stop.rest = rest) : stop = start.advance (body.length + 2) := by
  have hread : start.rest = ('{' :: (body ++ ['}'])) ++ stop.rest := by simpa [hstop] using hstart
  rw [h.eq_advance_of_rest hread, List.length_cons, List.length_append, List.length_singleton]

theorem mem_rest_of_reads {text : List Char} {c : Char} (h : start.Reads text stop)
    (hc : c ∈ text) : c ∈ start.rest := by
  rw [h.1]
  exact List.mem_append_left _ hc

/-! ## Tags by themselves -/

section

variable {body rest : List Char}

theorem style_tag (styles : StyleTable) (hstart : start.rest = '{' :: (body ++ '}' :: rest))
    (hbody : '}' ∉ body) :
    style styles start = (styleTag? styles body).map fun name =>
      (.style name, start.advance (body.length + 2)) := by
  refine Option.ext fun ⟨token, stop⟩ => ?_
  rw [style_eq_some_iff, Option.map_eq_some_iff]
  constructor
  · rintro ⟨before, name, after, rfl, hname, hknown, hbefore, hafter, hreads⟩
    have hinner : '}' ∉ before.toList ++ name.toList ++ after.toList := by
      simp [hbefore.closing_notMem, hname.closing_notMem, hafter.closing_notMem]
    obtain ⟨rfl, rfl⟩ := (reads_tag_iff hstart hbody hinner).mp hreads
    exact ⟨name, styleTag?_eq_some_iff.mpr ⟨hname, hknown, _, _, hbefore, hafter, rfl⟩, rfl⟩
  · rintro ⟨name, htag, heq⟩
    obtain ⟨rfl, rfl⟩ := Prod.mk.inj heq
    obtain ⟨hname, hknown, before, after, hbefore, hafter, rfl⟩ := styleTag?_eq_some_iff.mp htag
    refine ⟨String.ofList before, name, String.ofList after, rfl, hname, hknown, ?_, ?_, ?_⟩
    · simpa using hbefore
    · simpa using hafter
    · simpa using (reads_tag_iff hstart hbody hbody).mpr ⟨rfl, rfl⟩

theorem header_tag (hstart : start.rest = '{' :: (body ++ '}' :: rest)) (hbody : '}' ∉ body) :
    Parser.preceded ifStart ifCondition start = (headerTag? body).map fun condition =>
      (condition, start.advance (body.length + 2)) := by
  refine Option.ext fun ⟨condition, stop⟩ => ?_
  rw [header_eq_some_iff, Option.map_eq_some_iff]
  constructor
  · rintro ⟨before, between, name, hname, hcondition, hbefore, hbetween, hreads⟩
    have hinner : '}' ∉ before.toList ++ ['i', 'f'] ++ (between.toList ++ name.toList) := by
      simp [hbefore.closing_notMem, hname.closing_notMem, hbetween.closing_notMem]
    obtain ⟨rfl, rfl⟩ := (reads_tag_iff hstart hbody hinner).mp hreads
    exact ⟨condition, headerTag?_eq_some_iff.mpr
      ⟨_, _, name, hname, hcondition, hbefore, hbetween, rfl⟩, rfl⟩
  · rintro ⟨condition, htag, heq⟩
    obtain ⟨rfl, rfl⟩ := Prod.mk.inj heq
    obtain ⟨before, between, name, hname, hcondition, hbefore, hbetween, rfl⟩ :=
      headerTag?_eq_some_iff.mp htag
    refine ⟨String.ofList before, String.ofList between, name, hname, hcondition, ?_, ?_, ?_⟩
    · simpa using hbefore
    · simpa using hbetween
    · simpa using (reads_tag_iff hstart hbody hbody).mpr ⟨rfl, rfl⟩

theorem stops_closing {test : Char → Bool} {text last : List Char} (h : Stops test text)
    (hclosing : test '}' = false) : Stops test (text ++ '}' :: last) := by
  cases text with
  | nil => exact stops_cons.mpr hclosing
  | cons c text => exact stops_cons.mpr (stops_cons.mp h)

theorem stops_of_closing {test : Char → Bool} {text last : List Char}
    (h : Stops test (text ++ '}' :: last)) : Stops test text := by
  cases text with
  | nil => exact stops_nil test
  | cons c text => exact stops_cons.mpr (stops_cons.mp h)

/-- Inside a tag, options are read as the scanner takes them apart. -/
theorem repeats_option (hstart : start.rest = body ++ '}' :: rest) (hbody : '}' ∉ body) :
    ∃ stop, Parser.Repeats option start (longestPairs body).1 stop ∧
      stop.rest = (longestPairs body).2 ++ '}' :: rest ∧ '}' ∉ (longestPairs body).2 := by
  fun_induction longestPairs body generalizing start with
  | case1 text pair after hpair pairs last hlongest ih =>
      obtain ⟨blank, hne, hblank, hkey, hvalue, rfl, hstops⟩ := firstPair?_eq_some_iff.mp hpair
      have hafter : '}' ∉ after := fun h => hbody (List.mem_append_right _ h)
      rw [List.append_assoc] at hstart
      have hreads := Cursor.reads_advance hstart
      have hrest := List.append_cancel_left (hreads.1.symm.trans hstart)
      obtain ⟨stop, hrepeats, hstop⟩ := ih hrest hafter
      rw [hlongest] at hrepeats hstop
      refine ⟨stop, .more (option_eq_some_iff.mpr
        ⟨blank, hne, hblank, hkey, hvalue, hreads, ?_⟩) ?_ hrepeats, hstop⟩
      · rw [hrest]
        exact stops_closing hstops (by decide)
      · rw [hreads.1]
        simp only [List.length_append, List.length_cons]
        omega
  | case2 text hpair =>
      refine ⟨start, .done ?_, hstart, hbody⟩
      intro pair stop hoption
      obtain ⟨blank, hne, hblank, hkey, hvalue, hreads, hstops⟩ := option_eq_some_iff.mp hoption
      have hclosing : '}' ∉ blank.toList ++ (pair.1.toList ++ '=' :: pair.2.toList) := by
        simp [hblank.closing_notMem, hkey.closing_notMem, hvalue.closing_notMem]
      obtain ⟨after, rfl, hlast⟩ :=
        prefix_of_closing_notMem hclosing (hreads.1.symm.trans hstart)
      have hsome := firstPair?_eq_some_iff.mpr
        ⟨blank, hne, hblank, hkey, hvalue, rfl, stops_of_closing (hlast ▸ hstops)⟩
      cases hpair.symm.trans hsome

/-- Options are characters that are read. -/
theorem reads_of_repeats_option {pairs : List (String × String)}
    (h : Parser.Repeats option start pairs stop) : ∃ text, start.Reads text stop := by
  induction h with
  | @done start _ => exact ⟨[], .refl start⟩
  | more h _ _ ih =>
      obtain ⟨_, _, _, _, _, hreads, _⟩ := option_eq_some_iff.mp h
      obtain ⟨text, hrest⟩ := ih
      exact ⟨_, hreads.trans hrest⟩

theorem componentTag?_of_component {token : Token}
    (hstart : start.rest = '{' :: (body ++ '}' :: rest)) (hbody : '}' ∉ body)
    (h : component start = some (token, stop)) :
    ∃ name pairs, componentTag? body = some (name, pairs) ∧
      token = .component name (.ofPairs pairs) ∧ stop = start.advance (body.length + 2) := by
  obtain ⟨name, pairs, middle, last, after, rfl, hname, hpairs, hafter, hclosing⟩ :=
    component_eq_some_iff.mp h
  obtain ⟨before, word, hword, hname, hbefore, hopening, hend⟩ :=
    componentName_eq_some_iff.mp hname
  obtain rfl := ofIdentifier?_eq_some_iff.mp hname
  -- The name stands before the closing brace, and so do the options after it.
  have hnotMem : '}' ∉ before.toList ++ name.identifier.toList := by
    simp [hbefore.closing_notMem, hword.closing_notMem]
  have htext : (before.toList ++ name.identifier.toList) ++ middle.rest = body ++ '}' :: rest := by
    simpa using hopening.1.symm.trans hstart
  obtain ⟨inner, rfl, hmiddle⟩ := prefix_of_closing_notMem hnotMem htext
  have hinner : '}' ∉ inner := fun h => hbody (List.mem_append_right _ h)
  obtain ⟨_, hrepeats, hlast, hremains⟩ := repeats_option hmiddle hinner
  obtain ⟨hpairsEq, rfl⟩ := Prod.mk.inj (hpairs.eq.symm.trans hrepeats.eq)
  have hclosed : after.toList ++ '}' :: stop.rest = (longestPairs inner).2 ++ '}' :: rest := by
    simpa using hclosing.1.symm.trans hlast
  obtain ⟨hafterEq, hstop⟩ := append_closing_inj hafter.closing_notMem hremains hclosed
  obtain ⟨text, hoptions⟩ := reads_of_repeats_option hpairs
  refine ⟨name, pairs, componentTag?_eq_some_iff.mpr ⟨before.toList, inner, hbefore,
    stops_of_closing (hmiddle ▸ hend), pairs?_eq_some_iff.mpr ⟨hpairsEq.symm, ?_⟩, rfl⟩, rfl, ?_⟩
  · rw [← hafterEq]
    exact hafter
  · exact eq_advance_tag hstart ((hopening.trans hoptions).trans hclosing) hstop

theorem component_of_componentTag? {name : ComponentName} {pairs : List (String × String)}
    (hstart : start.rest = '{' :: (body ++ '}' :: rest)) (hbody : '}' ∉ body)
    (h : componentTag? body = some (name, pairs)) :
    component start =
      some (.component name (.ofPairs pairs), start.advance (body.length + 2)) := by
  obtain ⟨before, inner, hbefore, hend, hpairs, rfl⟩ := componentTag?_eq_some_iff.mp h
  obtain ⟨rfl, hafter⟩ := pairs?_eq_some_iff.mp hpairs
  have hinner : '}' ∉ inner := fun h => hbody (List.mem_append_right _ h)
  have hread : start.rest =
      ('{' :: (before ++ name.identifier.toList)) ++ (inner ++ '}' :: rest) := by
    simpa using hstart
  have hopening := Cursor.reads_advance hread
  have hmiddle := List.append_cancel_left (hopening.1.symm.trans hread)
  obtain ⟨last, hrepeats, hlast, _⟩ := repeats_option hmiddle hinner
  have hlast : last.rest = ((longestPairs inner).2 ++ ['}']) ++ rest := by simpa using hlast
  have hclosing := Cursor.reads_advance hlast
  have hstop := List.append_cancel_left (hclosing.1.symm.trans hlast)
  obtain ⟨text, hoptions⟩ := reads_of_repeats_option hrepeats
  rw [← eq_advance_tag hstart ((hopening.trans hoptions).trans hclosing) hstop,
    component_eq_some_iff]
  refine ⟨name, _, _, last, String.ofList (longestPairs inner).2, rfl,
    componentName_eq_some_iff.mpr ⟨String.ofList before, name.identifier,
      isName_identifier name, ofIdentifier?_eq_some_iff.mpr rfl, ?_, ?_, ?_⟩, hrepeats, ?_, ?_⟩
  · simpa using hbefore
  · simpa using hopening
  · rw [hmiddle]
    exact stops_closing hend (by decide)
  · simpa using hafter
  · simpa using hclosing

theorem component_tag (hstart : start.rest = '{' :: (body ++ '}' :: rest)) (hbody : '}' ∉ body) :
    component start = (componentTag? body).map fun (name, pairs) =>
      (.component name (.ofPairs pairs), start.advance (body.length + 2)) := by
  cases htag : componentTag? body with
  | some result => exact component_of_componentTag? hstart hbody htag
  | none =>
      apply Option.eq_none_iff_forall_ne_some.mpr
      rintro ⟨token, stop⟩ h
      obtain ⟨name, pairs, hsome, _⟩ := componentTag?_of_component hstart hbody h
      cases htag.symm.trans hsome

end

/-! ## The next lexeme decides -/

section

variable {rest : List Char} {lexeme : Lexeme} {inner : Parser Token}

theorem static_eq_none (h : ∀ c ∈ start.rest.head?, c = '{') : static start = none := by
  apply Option.eq_none_iff_forall_ne_some.mpr
  rintro ⟨token, stop⟩ hstatic
  obtain ⟨run, _, hne, hreads, hchars, _⟩ := static_eq_some_iff.mp hstatic
  obtain ⟨c, text, hrun⟩ := List.exists_cons_of_ne_nil (mt String.toList_eq_nil_iff.mp hne)
  rw [hreads.1, hrun] at h
  exact hchars c (by simp [hrun]) (h c (by simp))

theorem doubledBrace_eq_none (hstart : start.rest = '{' :: rest) (hhead : rest.head? ≠ some '{') :
    doubledBrace start = none := by
  apply Option.eq_none_iff_forall_ne_some.mpr
  rintro ⟨token, stop⟩ hdoubled
  have hrest := (doubledBrace_eq_some_iff.mp hdoubled).2.1
  obtain ⟨_, hrest⟩ := List.cons.inj (hstart.symm.trans hrest)
  exact hhead (by simp [hrest])

/-- Only texts with a closing brace are headers, whatever their branches are. -/
theorem conditionalOf_eq_none {branch : Parser (List Token)}
    (h : Parser.preceded ifStart ifCondition start = none) : conditionalOf branch start = none := by
  simp [conditionalOf, Parser.map, Parser.both, h]

/-- Where no closing brace follows, no tag is read. -/
theorem tokenOf_of_closing_notMem (hstatic : static start = none)
    (hdoubled : doubledBrace start = none) (hclosing : '}' ∉ start.rest) :
    tokenOf styles inner start = none := by
  have hstyle : style styles start = none := by
    apply Option.eq_none_iff_forall_ne_some.mpr
    rintro ⟨token, stop⟩ h
    obtain ⟨_, _, _, _, _, _, _, _, hreads⟩ := style_eq_some_iff.mp h
    exact hclosing (mem_rest_of_reads hreads (by simp))
  have hheader : Parser.preceded ifStart ifCondition start = none := by
    apply Option.eq_none_iff_forall_ne_some.mpr
    rintro ⟨condition, stop⟩ h
    obtain ⟨_, _, _, _, _, _, _, hreads⟩ := header_eq_some_iff.mp h
    exact hclosing (mem_rest_of_reads hreads (by simp))
  have hcomponent : component start = none := by
    apply Option.eq_none_iff_forall_ne_some.mpr
    rintro ⟨token, stop⟩ h
    obtain ⟨_, _, _, _, _, _, hname, hpairs, _, hreads⟩ := component_eq_some_iff.mp h
    obtain ⟨_, _, _, _, _, hopening, _⟩ := componentName_eq_some_iff.mp hname
    obtain ⟨_, hoptions⟩ := reads_of_repeats_option hpairs
    exact hclosing (mem_rest_of_reads ((hopening.trans hoptions).trans hreads) (by simp))
  rw [tokenOf, Parser.firstOf_cons_of_none hstatic, Parser.firstOf_cons_of_none hdoubled,
    Parser.firstOf_cons_of_none hstyle, Parser.firstOf_cons_of_none (conditionalOf_eq_none hheader),
    Parser.firstOf_cons_of_none hcomponent, Parser.firstOf]

/-- What is read at a tag, by the order of the alternatives. -/
theorem tokenOf_tag {body : List Char} (hstart : start.rest = '{' :: (body ++ '}' :: rest))
    (hhead : body.head? ≠ some '{') (hbody : '}' ∉ body) :
    tokenOf styles inner start =
      match styleTag? styles body, headerTag? body, componentTag? body with
      | some name, _, _ => some (.style name, start.advance (body.length + 2))
      | none, some _, _ => conditionalOf (.many1 inner) start
      | none, none, some (name, pairs) =>
        some (.component name (.ofPairs pairs), start.advance (body.length + 2))
      | none, none, none => none := by
  have hhead : (body ++ '}' :: rest).head? ≠ some '{' := by
    cases body with
    | nil => simp
    | cons c body => simpa using hhead
  have hstyle := style_tag styles hstart hbody
  have hheader := header_tag hstart hbody
  have hcomponent := component_tag hstart hbody
  rw [tokenOf, Parser.firstOf_cons_of_none (static_eq_none (by simp [hstart])),
    Parser.firstOf_cons_of_none (doubledBrace_eq_none hstart hhead)]
  cases hname : styleTag? styles body with
  | some name =>
      rw [hname, Option.map_some] at hstyle
      rw [Parser.firstOf_cons_of_some hstyle]
  | none =>
      rw [hname, Option.map_none] at hstyle
      rw [Parser.firstOf_cons_of_none hstyle]
      cases hcondition : headerTag? body with
      | some condition =>
          rw [componentTag?_of_headerTag? hcondition, Option.map_none] at hcomponent
          cases hconditional : conditionalOf (.many1 inner) start with
          | some result => rw [Parser.firstOf_cons_of_some hconditional]
          | none =>
              rw [Parser.firstOf_cons_of_none hconditional,
                Parser.firstOf_cons_of_none hcomponent, Parser.firstOf]
      | none =>
          rw [hcondition, Option.map_none] at hheader
          rw [Parser.firstOf_cons_of_none (conditionalOf_eq_none hheader)]
          cases hpairs : componentTag? body with
          | some result =>
              rw [hpairs, Option.map_some] at hcomponent
              rw [Parser.firstOf_cons_of_some hcomponent]
          | none =>
              rw [hpairs, Option.map_none] at hcomponent
              rw [Parser.firstOf_cons_of_none hcomponent, Parser.firstOf]

/-- A lexeme that is a token by itself is read as that token. -/
theorem tokenOf_of_token? (inner : Parser Token) {token : Token}
    (h : next? styles start.rest = some (lexeme, rest)) (htoken : lexeme.token? = some token) :
    ∃ stop, stop.rest = rest ∧ tokenOf styles inner start = some (token, stop) := by
  generalize htext : start.rest = text at h
  cases begins_of_next? h with
  | @text run _ hne hrun hrest =>
      obtain rfl := Option.some.inj htoken
      have hreads := Cursor.reads_advance htext
      have hlast := List.append_cancel_left (hreads.1.symm.trans htext)
      refine ⟨_, hlast, Parser.firstOf_cons_of_some (static_eq_some_iff.mpr
        ⟨String.ofList run, rfl, ?_, ?_, ?_, ?_⟩)⟩
      · simpa using hne
      · simpa using hreads
      · simpa using hrun
      · rw [hlast]
        exact hrest
  | escape =>
      obtain rfl := Option.some.inj htoken
      have hreads : start.Reads ['{', '{'] (start.advance 2) := Cursor.reads_advance htext
      refine ⟨_, List.append_cancel_left (hreads.1.symm.trans htext), ?_⟩
      rw [tokenOf, Parser.firstOf_cons_of_none (static_eq_none (by simp [htext]))]
      exact Parser.firstOf_cons_of_some (doubledBrace_eq_some_iff.mpr ⟨rfl, hreads⟩)
  | @tag body _ _ hhead hbody htag =>
      refine ⟨_, advance_tag_rest htext, ?_⟩
      rw [tokenOf_tag htext hhead hbody]
      cases classified_of_tag? htag with
      | close => cases htoken
      | alternate => cases htoken
      | header => cases htoken
      | style hstyle =>
          obtain rfl := Option.some.inj htoken
          rw [hstyle]
      | component hstyle hcomponent =>
          obtain rfl := Option.some.inj htoken
          rw [hstyle, headerTag?_of_componentTag? hcomponent, hcomponent]

/-- At the header of a conditional there is a conditional or nothing. -/
theorem tokenOf_of_header (inner : Parser Token) {condition : Condition}
    (h : next? styles start.rest = some (.header condition, rest)) :
    tokenOf styles inner start = conditionalOf (.many1 inner) start ∧
      ∃ middle, middle.rest = rest ∧
        Parser.preceded ifStart ifCondition start = some (condition, middle) := by
  generalize htext : start.rest = text at h
  cases begins_of_next? h with
  | @tag body _ _ hhead hbody htag =>
      obtain ⟨hstyle, hheader⟩ := tag?_eq_header_iff.mp htag
      rw [tokenOf_tag htext hhead hbody, header_tag htext hbody, hstyle, hheader]
      exact ⟨rfl, _, advance_tag_rest htext, rfl⟩

/-- Where no lexeme begins a token, no token is read. -/
theorem tokenOf_eq_none (h : ∀ lexeme rest, next? styles start.rest = some (lexeme, rest) →
    lexeme = .alternate ∨ lexeme = .close) : tokenOf styles inner start = none := by
  have hfront := front start.rest
  generalize htext : start.rest = text at h hfront
  cases hfront with
  | empty =>
      refine tokenOf_of_closing_notMem (static_eq_none (by simp [htext])) ?_ (by simp [htext])
      apply Option.eq_none_iff_forall_ne_some.mpr
      rintro ⟨token, stop⟩ hdoubled
      cases htext.symm.trans (doubledBrace_eq_some_iff.mp hdoubled).2.1
  | @run run last hne hrun hrest =>
      rcases h _ _ (next?_run hne hrun hrest) with h | h <;> cases h
  | @doubled last => rcases h .escape last rfl with h | h <;> cases h
  | @tag body last hhead hbody =>
      have hreserved : ∀ lexeme, tag? styles body = some lexeme →
          lexeme = .alternate ∨ lexeme = .close := fun lexeme htag =>
        h lexeme last (by rw [next?_tag hhead hbody, htag, Option.map_some])
      rw [tokenOf_tag htext hhead hbody]
      cases htag : tag? styles body with
      | some lexeme =>
          have hword : ∃ word ∈ reservedWords, body = word.toList := by
            rcases hreserved lexeme htag with rfl | rfl
            · exact ⟨"else", by decide, tag?_eq_alternate_iff.mp htag⟩
            · exact ⟨"end", by decide, tag?_eq_close_iff.mp htag⟩
          obtain ⟨word, hword, rfl⟩ := hword
          rw [styleTag?_reserved word hword, headerTag?_reserved word hword,
            componentTag?_reserved word hword]
      | none =>
          obtain ⟨_, _, hstyle, hheader, hcomponent⟩ := tag?_eq_none_iff.mp htag
          rw [hstyle, hheader, hcomponent]
  | @unclosed body hhead hbody =>
      exact tokenOf_of_closing_notMem (static_eq_none (by simp [htext]))
        (doubledBrace_eq_none htext hhead) (by simp [htext, hbody])

/-! ## The tags of branches -/

/-- A lexeme with one spelling is met at its spelling and nowhere else. -/
theorem next?_eq_some_iff_of_spelling {word text : List Char}
    (hword : ∀ body, tag? styles body = some lexeme ↔ body = word)
    (hlexeme : lexeme = .alternate ∨ lexeme = .close) (hhead : word.head? ≠ some '{')
    (hclosing : '}' ∉ word) :
    next? styles text = some (lexeme, rest) ↔ text = ('{' :: (word ++ ['}'])) ++ rest := by
  constructor
  · intro h
    cases begins_of_next? h with
    | text => rcases hlexeme with hlexeme | hlexeme <;> cases hlexeme
    | escape => rcases hlexeme with hlexeme | hlexeme <;> cases hlexeme
    | tag _ _ htag => simp [(hword _).mp htag]
  · intro h
    rw [h, ← next?_of_tag? ((hword word).mpr rfl) hhead hclosing]
    simp

theorem next?_eq_close_iff (styles : StyleTable) {text : List Char} :
    next? styles text = some (.close, rest) ↔ text = "\x7bend\x7d".toList ++ rest :=
  next?_eq_some_iff_of_spelling (fun _ => tag?_eq_close_iff) (.inr rfl) (by decide) (by decide)

theorem next?_eq_alternate_iff (styles : StyleTable) {text : List Char} :
    next? styles text = some (.alternate, rest) ↔ text = "\x7belse\x7d".toList ++ rest :=
  next?_eq_some_iff_of_spelling (fun _ => tag?_eq_alternate_iff) (.inl rfl) (by decide) (by decide)

end

end ShellPrompt.Template
