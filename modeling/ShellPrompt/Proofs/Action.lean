import ShellPrompt.Action

/-! # Actions put together

An action on each item in turn stops where it first fails. A property of actions that holds of
values and is kept from one action to the next is kept when actions are done in turn. -/

namespace ShellPrompt.Action

variable {σ ε α β : Type}

/-! ## Actions in turn -/

section

variable {step : α → Action σ ε β} {item : α} {items : List α} {state last : σ}

theorem mapM_cons_eq_ok_iff {values : List β} :
    (item :: items).mapM step state = (.ok values, last) ↔
      ∃ value middle others, step item state = (.ok value, middle) ∧
        items.mapM step middle = (.ok others, last) ∧ value :: others = values := by
  rw [List.mapM_cons, bind_eq_ok_iff]
  refine exists_congr fun value => exists_congr fun middle => ?_
  rw [bind_pure_comp, map_eq_ok_iff, exists_and_left]

theorem mapM_cons_eq_error_iff {error : ε} :
    (item :: items).mapM step state = (.error error, last) ↔
      step item state = (.error error, last) ∨
        ∃ value middle, step item state = (.ok value, middle) ∧
          items.mapM step middle = (.error error, last) := by
  rw [List.mapM_cons, bind_eq_error_iff]
  refine or_congr_right (exists_congr fun value => exists_congr fun middle =>
    and_congr_right fun _ => ?_)
  rw [bind_eq_error_iff]
  simp

/-- An action on each item in turn fails where it first fails on one. -/
theorem mapM_eq_error_iff {error : ε} :
    items.mapM step state = (.error error, last) ↔
      ∃ before item after values middle, items = before ++ item :: after ∧
        before.mapM step state = (.ok values, middle) ∧
        step item middle = (.error error, last) := by
  induction items generalizing state with
  | nil =>
      constructor
      · intro h
        cases h
      · rintro ⟨before, item, after, values, middle, happend, _⟩
        simp at happend
  | cons first rest ih =>
      rw [mapM_cons_eq_error_iff]
      constructor
      · rintro (h | ⟨value, middle, h, hrest⟩)
        · exact ⟨[], first, rest, [], state, rfl, rfl, h⟩
        · obtain ⟨before, item, after, values, reached, rfl, hbefore, hitem⟩ := ih.mp hrest
          exact ⟨first :: before, item, after, value :: values, reached, rfl,
            mapM_cons_eq_ok_iff.mpr ⟨value, middle, values, h, hbefore, rfl⟩, hitem⟩
      · rintro ⟨before, item, after, values, reached, happend, hbefore, hitem⟩
        cases before with
        | nil =>
            cases hbefore
            obtain ⟨rfl, _⟩ := List.cons.inj happend
            exact .inl hitem
        | cons other before =>
            obtain ⟨rfl, hrest⟩ := List.cons.inj happend
            obtain ⟨value, middle, others, hother, hbefore, _⟩ := mapM_cons_eq_ok_iff.mp hbefore
            exact .inr ⟨value, middle, hother,
              ih.mpr ⟨before, item, after, others, reached, hrest, hbefore, hitem⟩⟩

/-- An action on each item in turn succeeds only if it does on every item. -/
theorem exists_step_of_mapM_eq_ok {values : List β} (h : items.mapM step state = (.ok values, last))
    (hitem : item ∈ items) :
    ∃ before after others middle value next, items = before ++ item :: after ∧
      before.mapM step state = (.ok others, middle) ∧ step item middle = (.ok value, next) := by
  obtain ⟨before, after, rfl⟩ := List.append_of_mem hitem
  rw [List.mapM_append, bind_eq_ok_iff] at h
  obtain ⟨others, middle, hbefore, h⟩ := h
  obtain ⟨rest, between, hrest, _⟩ := bind_eq_ok_iff.mp h
  obtain ⟨value, next, _, hvalue, _⟩ := mapM_cons_eq_ok_iff.mp hrest
  exact ⟨before, after, others, middle, value, next, rfl, hbefore, hvalue⟩

end

/-! ## Properties that are kept -/

/-- A property of actions that holds of values, and of an action with what comes after it if it
holds of both. -/
structure Closed (property : ∀ {α : Type}, Action σ ε α → Prop) : Prop where
  pure : ∀ {α : Type} (value : α), property (Pure.pure value)
  bind : ∀ {α β : Type} {action : Action σ ε α} {next : α → Action σ ε β}, property action →
    (∀ value, property (next value)) → property (action >>= next)

namespace Closed

variable {property : ∀ {α : Type}, Action σ ε α → Prop}

theorem map (h : Closed property) (f : α → β) {action : Action σ ε α} (haction : property action) :
    property (f <$> action) := by
  rw [← bind_pure_comp]
  exact h.bind haction fun value => h.pure (f value)

theorem mapM (h : Closed property) {step : α → Action σ ε β} (hstep : ∀ item, property (step item))
    (items : List α) : property (items.mapM step) := by
  induction items with
  | nil => exact h.pure []
  | cons item rest ih =>
      rw [List.mapM_cons]
      exact h.bind (hstep item) fun value => h.bind ih fun values => h.pure (value :: values)

end Closed

end ShellPrompt.Action
