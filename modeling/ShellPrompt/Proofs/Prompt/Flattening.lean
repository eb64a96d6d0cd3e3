import ShellPrompt.Proofs.Prompt.Leaves

/-! # Trees without conditionals

The conditions of a tree are settled before anything is drawn, and drawing does not change them. So a
tree is drawn like the row of its chosen leaves, and those are drawn one by one: each gives a slot, or
the first that fails ends everything. -/

namespace ShellPrompt

/-- A leaf as a token of its own. -/
def Leaf.token : Leaf → Token
  | .text content => .static content
  | .style name => .style name
  | .component name options => .component name options

theorem Leaf.token_ne_conditional (leaf : Leaf) (condition : Condition) (left : List Token)
    (right : Option (List Token)) : leaf.token ≠ .conditional condition left right := by
  cases leaf <;> nofun

namespace Context

/-- A tree with the tokens of its chosen branches in the places of the conditionals. -/
def flatten (context : Context) (tokens : List Token) : List Token :=
  (context.drawn tokens).map Leaf.token

theorem drawn_leaves (context : Context) (leaves : List Leaf) :
    context.drawn (leaves.map Leaf.token) = leaves := by
  induction leaves with
  | nil => rfl
  | cons leaf leaves ih =>
      rw [List.map_cons, drawn, ih]
      cases leaf <;> rfl

theorem evaluate_flatten (context : Context) (tokens : List Token) :
    context.evaluate (context.flatten tokens) = context.evaluate tokens := by
  rw [evaluate_eq_mapM, evaluate_eq_mapM, flatten, drawn_leaves]

/-! ## One by one -/

/-- Tokens that are evaluated one by one, each in the state that those before it leave, give a slot
each. -/
inductive Yields (context : Context) : List Token → Access → List Slot → Access → Prop where
  | nil (access) : Yields context [] access [] access
  | cons {token tokens access middle last slot slots}
      (h : context.evaluateToken token access = (.ok [slot], middle)) :
      Yields context tokens middle slots last →
      Yields context (token :: tokens) access (slot :: slots) last

variable {context : Context} {access last : Access} {tokens : List Token} {slots : List Slot}

theorem Yields.length_eq (h : Yields context tokens access slots last) :
    slots.length = tokens.length := by
  induction h with
  | nil => rfl
  | cons _ _ ih => rw [List.length_cons, List.length_cons, ih]

/-- A leaf gives one slot. -/
theorem evaluateToken_token (leaf : Leaf) :
    context.evaluateToken leaf.token = (fun slot => [slot]) <$> context.slot leaf := by
  cases leaf <;> rfl

theorem evaluateToken_eq_ok {leaf : Leaf}
    (h : context.evaluateToken leaf.token access = (.ok slots, last)) : ∃ slot, slots = [slot] := by
  rw [evaluateToken_token] at h
  obtain ⟨slot, _, hslots⟩ := Action.map_eq_ok_iff.mp h
  exact ⟨slot, hslots.symm⟩

theorem evaluate_cons_eq_ok_iff {token : Token} :
    context.evaluate (token :: tokens) access = (.ok slots, last) ↔
      ∃ first middle others, context.evaluateToken token access = (.ok first, middle) ∧
        context.evaluate tokens middle = (.ok others, last) ∧ first ++ others = slots := by
  rw [evaluate_cons, Action.bind_eq_ok_iff]
  refine exists_congr fun first => exists_congr fun middle => ?_
  rw [exists_and_left]
  exact and_congr_right fun _ => Action.map_eq_ok_iff

theorem evaluate_cons_eq_error_iff {token : Token} {error : RenderError} :
    context.evaluate (token :: tokens) access = (.error error, last) ↔
      context.evaluateToken token access = (.error error, last) ∨
        ∃ first middle, context.evaluateToken token access = (.ok first, middle) ∧
          context.evaluate tokens middle = (.error error, last) := by
  rw [evaluate_cons, Action.bind_eq_error_iff]
  refine or_congr_right (exists_congr fun first => exists_congr fun middle =>
    and_congr_right fun _ => ?_)
  -- Putting the slots together does not fail.
  rw [Action.bind_eq_error_iff]
  simp

/-- Evaluating leaves in a row is evaluating them one by one. -/
theorem yields_iff (leaves : List Leaf) :
    Yields context (leaves.map Leaf.token) access slots last ↔
      context.evaluate (leaves.map Leaf.token) access = (.ok slots, last) := by
  induction leaves generalizing access slots with
  | nil =>
      constructor
      · intro h
        cases h
        rfl
      · intro h
        obtain ⟨hslots, rfl⟩ := Prod.mk.inj h
        obtain rfl := Except.ok.inj hslots
        exact .nil access
  | cons leaf leaves ih =>
      rw [List.map_cons, evaluate_cons_eq_ok_iff]
      constructor
      · intro h
        cases h with
        | cons h hrest => exact ⟨_, _, _, h, ih.mp hrest, rfl⟩
      · rintro ⟨first, middle, others, h, hrest, rfl⟩
        obtain ⟨slot, rfl⟩ := evaluateToken_eq_ok h
        exact .cons h (ih.mpr hrest)

/-- Evaluation fails at the first leaf that fails, in the state that those before it leave. -/
theorem evaluate_eq_error_iff (leaves : List Leaf) {error : RenderError} :
    context.evaluate (leaves.map Leaf.token) access = (.error error, last) ↔
      ∃ before token after slots middle, leaves.map Leaf.token = before ++ token :: after ∧
        Yields context before access slots middle ∧
        context.evaluateToken token middle = (.error error, last) := by
  induction leaves generalizing access with
  | nil =>
      constructor
      · intro h
        cases h
      · rintro ⟨before, token, after, slots, middle, happend, _⟩
        simp at happend
  | cons leaf leaves ih =>
      rw [List.map_cons, evaluate_cons_eq_error_iff]
      constructor
      · rintro (h | ⟨first, middle, h, hrest⟩)
        · exact ⟨[], leaf.token, leaves.map Leaf.token, [], access, rfl, .nil access, h⟩
        · obtain ⟨slot, rfl⟩ := evaluateToken_eq_ok h
          obtain ⟨before, token, after, slots, reached, happend, hbefore, herror⟩ := ih.mp hrest
          exact ⟨leaf.token :: before, token, after, slot :: slots, reached,
            by rw [happend, List.cons_append], .cons h hbefore, herror⟩
      · rintro ⟨before, token, after, slots, reached, happend, hbefore, herror⟩
        cases hbefore with
        | nil =>
            obtain ⟨rfl, _⟩ := List.cons.inj happend
            exact .inl herror
        | cons h hbefore =>
            obtain ⟨rfl, hrest⟩ := List.cons.inj happend
            exact .inr ⟨_, _, h, ih.mpr ⟨_, token, after, _, reached, hrest, hbefore, herror⟩⟩

/-! ## Branches that are not chosen -/

mutual

/-- Tokens that differ in branches only that are not chosen. -/
inductive SameToken (context : Context) : Token → Token → Prop where
  | refl (token) : SameToken context token token
  | first {condition left left' right right'} (h : context.holds condition = true) :
      Same context left left' →
      SameToken context (.conditional condition left right) (.conditional condition left' right')
  | second {condition left left' right right'} (h : context.holds condition = false) :
      SameElse context right right' →
      SameToken context (.conditional condition left right) (.conditional condition left' right')

/-- Trees that differ in branches only that are not chosen. -/
inductive Same (context : Context) : List Token → List Token → Prop where
  | nil : Same context [] []
  | cons {token token' tokens tokens'} : SameToken context token token' →
      Same context tokens tokens' → Same context (token :: tokens) (token' :: tokens')

/-- Second branches that differ in branches only that are not chosen. -/
inductive SameElse (context : Context) : Option (List Token) → Option (List Token) → Prop where
  | none : SameElse context none none
  | some {tokens tokens'} : Same context tokens tokens' →
      SameElse context (some tokens) (some tokens')

end

mutual

theorem drawnToken_of_same : ∀ {token token' : Token}, SameToken context token token' →
    context.drawnToken token = context.drawnToken token'
  | _, _, .refl _ => rfl
  | _, _, .first h hleft => by
      rw [drawnToken, drawnToken, if_pos h, if_pos h, drawn_of_same hleft]
  | _, _, .second h hright => by
      simp only [drawnToken, h]
      exact drawnElse_of_same hright

theorem drawn_of_same : ∀ {tokens tokens' : List Token}, Same context tokens tokens' →
    context.drawn tokens = context.drawn tokens'
  | _, _, .nil => rfl
  | _, _, .cons h hrest => by
      rw [drawn, drawn, drawnToken_of_same h, drawn_of_same hrest]

theorem drawnElse_of_same : ∀ {tokens tokens' : Option (List Token)},
    SameElse context tokens tokens' → context.drawnElse tokens = context.drawnElse tokens'
  | _, _, .none => rfl
  | _, _, .some h => drawn_of_same h

end

/-- A tree is evaluated like its flattening, where the chosen branch stands for each conditional: as
one row, and token by token. The slots are those of the tokens, one for each, and git is asked the
same; where a token fails, the error is its error, and nothing behind it is evaluated. So branches
that are not chosen have no part in it. -/
theorem evaluate_flattened (context : Context) (tokens : List Token) :
    (∀ condition left right, .conditional condition left right ∉ context.flatten tokens) ∧
    context.evaluate tokens = context.evaluate (context.flatten tokens) ∧
    (∀ access slots last, context.evaluate tokens access = (.ok slots, last) ↔
      Yields context (context.flatten tokens) access slots last) ∧
    (∀ access slots last, context.evaluate tokens access = (.ok slots, last) →
      slots.length = (context.flatten tokens).length) ∧
    (∀ access error last, context.evaluate tokens access = (.error error, last) ↔
      ∃ before token after slots middle, context.flatten tokens = before ++ token :: after ∧
        Yields context before access slots middle ∧
        context.evaluateToken token middle = (.error error, last)) ∧
    ∀ tokens', Same context tokens tokens' → context.evaluate tokens' = context.evaluate tokens := by
  have hok : ∀ access slots last, context.evaluate tokens access = (.ok slots, last) ↔
      Yields context (context.flatten tokens) access slots last := by
    intro access slots last
    rw [← evaluate_flatten]
    exact (yields_iff _).symm
  refine ⟨?_, (context.evaluate_flatten tokens).symm, hok, ?_, ?_, ?_⟩
  · intro condition left right hmem
    obtain ⟨leaf, _, hleaf⟩ := List.mem_map.mp hmem
    exact leaf.token_ne_conditional condition left right hleaf
  · intro access slots last h
    exact ((hok access slots last).mp h).length_eq
  · intro access error last
    rw [← evaluate_flatten]
    exact evaluate_eq_error_iff _
  · intro tokens' hsame
    rw [evaluate_eq_mapM, evaluate_eq_mapM, drawn_of_same hsame]

end Context

end ShellPrompt
