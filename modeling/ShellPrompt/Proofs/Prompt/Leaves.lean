import ShellPrompt.Proofs.Prompt.Reach
import ShellPrompt.Proofs.Prompt.Shown
import ShellPrompt.Proofs.Template.WellFormed

/-! # The leaves of a token tree

A tree is drawn leaf by leaf, in order. The conditions decide which leaves that are, before any of
them is drawn. -/

namespace ShellPrompt

/-- A token other than a conditional. -/
inductive Leaf where
  | text (text : String)
  | style (name : String)
  | component (name : ComponentName) (options : Options)

/-- Whether a leaf reaches the repository. -/
def Leaf.reaches : Leaf → Bool
  | .text _ | .style _ => false
  | .component name options => Component.reaches name options

theorem Leaf.exists_component {leaf : Leaf} (h : leaf.reaches = true) :
    ∃ name options, leaf = .component name options := by
  cases leaf with
  | component name options => exact ⟨name, options, rfl⟩
  | _ => cases h

mutual

/-- The leaves of all branches of a token. -/
def Token.leaves : Token → List Leaf
  | .static text => [.text text]
  | .style name => [.style name]
  | .component name options => [.component name options]
  | .conditional _ left right => leavesOf left ++ leavesOfElse right
termination_by structural token => token

/-- The leaves of all branches of some tokens. -/
def Token.leavesOf : List Token → List Leaf
  | [] => []
  | token :: rest => token.leaves ++ leavesOf rest
termination_by structural tokens => tokens

/-- The leaves of all branches of a second branch. -/
def Token.leavesOfElse : Option (List Token) → List Leaf
  | none => []
  | some tokens => leavesOf tokens
termination_by structural tokens => tokens

end

section

variable {styles : StyleTable} {name : String}

mutual

theorem contains_of_validToken : ∀ {token : Token}, Template.ValidToken styles token →
    .style name ∈ token.leaves → styles.contains name = true
  | .static text, _, h => by simp [Token.leaves] at h
  | .style keyword, hvalid, h => by
      obtain rfl : name = keyword := by simpa [Token.leaves] using h
      exact hvalid.2
  | .component component options, _, h => by simp [Token.leaves] at h
  | .conditional condition left right, hvalid, h => by
      obtain ⟨_, _, hleft, hright⟩ := hvalid
      rcases List.mem_append.mp h with h | h
      · exact contains_of_validTokens hleft h
      · exact contains_of_validElse hright h

theorem contains_of_validTokens : ∀ {tokens : List Token}, Template.ValidTokens styles tokens →
    .style name ∈ Token.leavesOf tokens → styles.contains name = true
  | [], _, h => by simp [Token.leavesOf] at h
  | token :: rest, hvalid, h => by
      rcases List.mem_append.mp h with h | h
      · exact contains_of_validToken hvalid.1 h
      · exact contains_of_validTokens hvalid.2.2 h

theorem contains_of_validElse : ∀ {tokens : Option (List Token)},
    Template.ValidElse styles tokens → .style name ∈ Token.leavesOfElse tokens →
    styles.contains name = true
  | none, _, h => by simp [Token.leavesOfElse] at h
  | some tokens, hvalid, h => contains_of_validTokens hvalid.2 h

end

/-- The keywords in a template are those of the table that it is read with. -/
theorem contains_of_parse {template : String} {tokens : List Token}
    (hparse : Template.parse styles template = .ok tokens)
    (h : .style name ∈ Token.leavesOf tokens) : styles.contains name = true :=
  contains_of_validTokens (Template.wellFormed_of_parse hparse).2 h

end

namespace Context

mutual

/-- The leaves of a token in the branches that the conditions choose. -/
def drawnToken (context : Context) : Token → List Leaf
  | .static text => [.text text]
  | .style name => [.style name]
  | .component name options => [.component name options]
  | .conditional condition left right =>
    if context.holds condition then drawn context left else drawnElse context right
termination_by structural token => token

/-- The leaves of some tokens in the branches that the conditions choose. -/
def drawn (context : Context) : List Token → List Leaf
  | [] => []
  | token :: rest => drawnToken context token ++ drawn context rest
termination_by structural tokens => tokens

/-- The leaves of a second branch in the branches that the conditions choose. -/
def drawnElse (context : Context) : Option (List Token) → List Leaf
  | none => []
  | some tokens => drawn context tokens
termination_by structural tokens => tokens

end

/-- The slot of a leaf. -/
def slot (context : Context) : Leaf → Draw Slot
  | .text text => return some (.text text)
  | .style name => .ofExcept (context.styleSlot name)
  | .component name options => Component.run context name options

mutual

theorem evaluateToken_eq_mapM (context : Context) : ∀ token,
    context.evaluateToken token = (context.drawnToken token).mapM context.slot
  | .static text => rfl
  | .style name => rfl
  | .component name options => rfl
  | .conditional condition left right => by
      have hleft := evaluate_eq_mapM context left
      have hright := evaluateElse_eq_mapM context right
      rw [evaluateToken_conditional, drawnToken, hleft, hright]
      split <;> rfl

/-- The slots of a tree are those of its leaves, one after another. -/
theorem evaluate_eq_mapM (context : Context) : ∀ tokens,
    context.evaluate tokens = (context.drawn tokens).mapM context.slot
  | [] => rfl
  | token :: rest => by
      have hfirst := evaluateToken_eq_mapM context token
      have hrest := evaluate_eq_mapM context rest
      rw [evaluate_cons, hfirst, hrest, drawn, List.mapM_append]

theorem evaluateElse_eq_mapM (context : Context) : ∀ tokens,
    context.evaluateElse tokens = (context.drawnElse tokens).mapM context.slot
  | none => rfl
  | some tokens => evaluate_eq_mapM context tokens

end

theorem render_eq_map (context : Context) (tokens : List Token) :
    context.render tokens = (fun slots => Fragment.render (Segment.squash slots)) <$>
      (context.drawn tokens).mapM context.slot := by
  rw [← evaluate_eq_mapM]
  rfl

mutual

theorem leaves_of_drawnToken (context : Context) {leaf : Leaf} : ∀ token,
    leaf ∈ context.drawnToken token → leaf ∈ token.leaves
  | .static text, h => h
  | .style name, h => h
  | .component name options, h => h
  | .conditional condition left right, h => by
      rw [drawnToken] at h
      split at h
      · exact List.mem_append_left _ (leavesOf_of_drawn context left h)
      · exact List.mem_append_right _ (leavesOfElse_of_drawnElse context right h)

/-- What is drawn is in the tree. -/
theorem leavesOf_of_drawn (context : Context) {leaf : Leaf} : ∀ tokens,
    leaf ∈ context.drawn tokens → leaf ∈ Token.leavesOf tokens
  | [], h => h
  | token :: rest, h => by
      rcases List.mem_append.mp h with h | h
      · exact List.mem_append_left _ (leaves_of_drawnToken context token h)
      · exact List.mem_append_right _ (leavesOf_of_drawn context rest h)

theorem leavesOfElse_of_drawnElse (context : Context) {leaf : Leaf} : ∀ tokens,
    leaf ∈ context.drawnElse tokens → leaf ∈ Token.leavesOfElse tokens
  | none, h => h
  | some tokens, h => leavesOf_of_drawn context tokens h

end

/-! ## Slots -/

/-- The slot of a leaf that does not need the repository. -/
def ownSlot (context : Context) : Leaf → Except RenderError Slot
  | .text text => .ok (some (.text text))
  | .style name => context.styleSlot name
  | .component name options =>
    Component.ownText context name options >>= Component.slotOf context name options

/-- A keyword with an escape sequence has one in every shell, with colors or without. -/
theorem exists_styleSequence {context : Context} {name : String}
    (h : ∃ code, context.styles.sequence name = .ok code) :
    ∃ code, context.styleSequence name = .ok code := by
  obtain ⟨code, hcode⟩ := h
  unfold styleSequence
  split
  · rw [hcode]
    exact ⟨_, rfl⟩
  · exact ⟨_, rfl⟩

theorem slot_of_not_reaches {context : Context} {leaf : Leaf} (h : leaf.reaches = false) :
    context.slot leaf = .ofExcept (context.ownSlot leaf) := by
  cases leaf with
  | text text => rfl
  | style name => rfl
  | component name options =>
      rw [slot, ownSlot, Component.run_eq_bind, Component.text_of_not_reaches h]
      cases Component.ownText context name options <;> rfl

/-- During a borrow a leaf that reaches the repository is not drawn. -/
theorem slot_of_borrowed (context : Context) {leaf : Leaf} {access : Access}
    (hreaches : leaf.reaches = true) (h : access.borrowed = true) :
    ∃ error, error.IsBorrow ∧ context.slot leaf access = (.error error, access) := by
  cases leaf with
  | text text => cases hreaches
  | style name => cases hreaches
  | component name options =>
      have hreaches : Component.reaches name options = true := hreaches
      obtain ⟨error, herror, htext⟩ := Component.text_of_borrowed context hreaches h
      refine ⟨error, herror, ?_⟩
      rw [slot, Component.run_eq_bind, Action.bind_run, htext]

theorem slot_of_free {context : Context} {name : ComponentName} {options : Options}
    {access : Access} (hreaches : Component.reaches name options = true)
    (h : access.borrowed = false) :
    context.slot (.component name options) access =
      (context.discover >>= fun repository => Draw.ofRun (Component.found context name repository)
        >>= fun shown => .ofExcept (Component.slotOf context name options shown)) access := by
  rw [slot, Component.run_eq_bind, Action.bind_run, Component.text_of_free hreaches h,
    ← Action.bind_run, bind_assoc]

end Context

end ShellPrompt
