import DocAtlas.Failure

/-!
When an attempt gives a result.

What is proved about entities does not look at the events, so a computation that may fail is opened
through one relation, `Gives x a`: the attempt `x` succeeds with `a`. Each way to put attempts
together has its own `↔`, and proofs about conversion take a `do` block apart with these and never
unfold the transformer. `Fails x e` does the same for failures, and both together tell the result
without the events (`result_bind_congr`). Where the events matter as well, `outcome_bind_of_ok` and
`outcome_bind_of_error` say how a `do` block goes on.
-/

set_option autoImplicit false

namespace DocAtlas.Attempt

variable {α β : Type}

/-- The attempt succeeds with this result. -/
def Gives (x : Attempt α) (a : α) : Prop := x.outcome.1 = .ok a

/-- The attempt has a result. -/
def Succeeds (x : Attempt α) : Prop := ∃ a, Gives x a

/-- A pure attempt succeeds with its value. -/
@[simp] theorem gives_pure {a b : α} : Gives (pure a) b ↔ a = b := by
  constructor
  · intro h
    exact Except.ok.inj h
  · rintro rfl
    rfl

/-- An attempt comes to a result or to a failure. -/
theorem outcome_cases (x : Attempt α) :
    (∃ a events, x.outcome = (.ok a, events)) ∨ ∃ e events, x.outcome = (.error e, events) := by
  obtain ⟨result, events⟩ := x.outcome
  cases result with
  | ok a => exact Or.inl ⟨a, events, rfl⟩
  | error e => exact Or.inr ⟨e, events, rfl⟩

/-- There is nothing to an attempt but its outcome. -/
theorem ext {x y : Attempt α} (h : x.outcome = y.outcome) : x = y :=
  Logged.ext_iff.mpr (Prod.mk.inj h)

/-- After a result, what comes next runs on it. -/
theorem outcome_bind_of_ok {x : Attempt α} (f : α → Attempt β) {a : α} {events : List Event}
    (h : x.outcome = (.ok a, events)) :
    (x >>= f).outcome = ((f a).outcome.1, events ++ (f a).outcome.2) := by
  obtain ⟨hvalue, rfl⟩ := Prod.mk.inj h
  -- the transformer is opened here and in the next lemma, and nowhere else
  change ((ExceptT.bindCont f (ExceptT.run x).value).value,
    x.run.events ++ (ExceptT.bindCont f (ExceptT.run x).value).events) = _
  rw [hvalue]
  rfl

/-- A failure is final. -/
theorem outcome_bind_of_error {x : Attempt α} (f : α → Attempt β) {e : Failure}
    {events : List Event} (h : x.outcome = (.error e, events)) :
    (x >>= f).outcome = (.error e, events) := by
  obtain ⟨hvalue, rfl⟩ := Prod.mk.inj h
  change ((ExceptT.bindCont f (ExceptT.run x).value).value,
    x.run.events ++ (ExceptT.bindCont f (ExceptT.run x).value).events) = _
  rw [hvalue]
  exact congrArg _ (List.append_nil _)

/-- What is only computed from a result keeps a failure. -/
theorem result_bind_pure (x : Attempt α) (f : α → β) :
    (x >>= fun a => pure (f a)).outcome.1 = x.outcome.1.map f := by
  rcases x.outcome_cases with ⟨a, events, hx⟩ | ⟨e, events, hx⟩
  · rw [outcome_bind_of_ok _ hx, hx]
    rfl
  · rw [outcome_bind_of_error _ hx, hx]
    rfl

/-- A `do` block gives a result if its first step gives one and the rest gives the result from
there. -/
@[simp] theorem gives_bind {x : Attempt α} {f : α → Attempt β} {b : β} :
    Gives (x >>= f) b ↔ ∃ a, Gives x a ∧ Gives (f a) b := by
  rcases x.outcome_cases with ⟨a, events, hx⟩ | ⟨e, events, hx⟩
  · rw [Gives, outcome_bind_of_ok f hx, ← Gives]
    constructor
    · intro h
      exact ⟨a, congrArg Prod.fst hx, h⟩
    · -- an attempt has one result
      rintro ⟨a', ha', h⟩
      rw [Gives, hx] at ha'
      cases ha'
      exact h
  · rw [Gives, outcome_bind_of_error f hx]
    constructor
    · intro h
      cases h
    · rintro ⟨a, ha, -⟩
      rw [Gives, hx] at ha
      cases ha

/-- What is computed from a result is given if the result is. -/
@[simp] theorem gives_map {x : Attempt α} {f : α → β} {b : β} :
    Gives (f <$> x) b ↔ ∃ a, Gives x a ∧ f a = b := by
  rw [← bind_pure_comp]
  simp only [gives_bind, gives_pure]

@[simp] theorem gives_log {e : Event} {u : Unit} : Gives (Attempt.log e) u := rfl

/-- What only logs always succeeds, and keeps its events. -/
theorem outcome_liftM (x : Logged α) : (liftM x : Attempt α).outcome = (.ok x.value, x.events) :=
  Prod.ext rfl (List.append_nil x.events)

/-- What only logs may be replaced by what logs the same, if it makes no difference to what comes
next. -/
theorem liftM_bind_congr {γ : Type} {x : Logged α} {y : Logged β} {f : α → Attempt γ}
    {g : β → Attempt γ} (hevents : x.events = y.events) (hnext : f x.value = g y.value) :
    (liftM x >>= f : Attempt γ) = liftM y >>= g := by
  refine ext ?_
  rw [outcome_bind_of_ok f (outcome_liftM x), outcome_bind_of_ok g (outcome_liftM y),
    hevents, hnext]

/-- What only logs gives its value. -/
@[simp] theorem gives_liftM {x : Logged α} {a : α} : Gives (liftM x) a ↔ x.value = a := by
  constructor
  · intro h
    exact Except.ok.inj h
  · rintro rfl
    rfl

/-- A failure gives nothing. -/
@[simp] theorem not_gives_throw {e : Failure} {a : α} : ¬ Gives (throw e : Attempt α) a := by
  intro h
  cases h

/-- What can be computed from the result of an attempt tells that there is one. -/
theorem exists_gives_of_map {x : Attempt α} (f : α → β) {b : β}
    (h : x.outcome.1.toOption.map f = some b) :
    ∃ a, Gives x a ∧ f a = b := by
  obtain ⟨a, ha, hf⟩ := Option.map_eq_some_iff.mp h
  refine ⟨a, ?_, hf⟩
  rw [Gives]
  cases hx : x.outcome.1 with
  | ok a' =>
    rw [hx] at ha
    cases ha
    rfl
  | error e =>
    rw [hx] at ha
    cases ha

/-! ## Failures -/

/-- The attempt fails for this reason. -/
def Fails (x : Attempt α) (e : Failure) : Prop := x.outcome.1 = .error e

/-- A pure attempt does not fail. -/
@[simp] theorem not_fails_pure {a : α} {e : Failure} : ¬ Fails (pure a) e := by
  intro h
  cases h

@[simp] theorem not_fails_log {event : Event} {e : Failure} : ¬ Fails (Attempt.log event) e := by
  intro h
  cases h

/-- What only logs does not fail. -/
@[simp] theorem not_fails_liftM {x : Logged α} {e : Failure} : ¬ Fails (liftM x : Attempt α) e := by
  intro h
  cases h

/-- A `do` block fails where its first step fails, or where the rest fails on the result of that
step. -/
@[simp] theorem fails_bind {x : Attempt α} {f : α → Attempt β} {e : Failure} :
    Fails (x >>= f) e ↔ Fails x e ∨ ∃ a, Gives x a ∧ Fails (f a) e := by
  rcases x.outcome_cases with ⟨a, events, hx⟩ | ⟨failure, events, hx⟩
  · simp [Fails, Gives, outcome_bind_of_ok f hx, hx]
  · simp [Fails, Gives, outcome_bind_of_error f hx, hx]

/-- A map neither fails nor saves a failure. -/
@[simp] theorem fails_map {x : Attempt α} {f : α → β} {e : Failure} :
    Fails (f <$> x) e ↔ Fails x e := by
  rw [← bind_pure_comp]
  simp only [fails_bind, not_fails_pure, and_false, exists_false, or_false]

/-- Attempts that succeed alike and fail alike have the same result. -/
theorem result_eq {x y : Attempt α} (hgives : ∀ a, Gives x a → Gives y a)
    (hfails : ∀ e, Fails x e → Fails y e) :
    x.outcome.1 = y.outcome.1 := by
  -- one of the two holds of the first attempt, and it decides the second
  rcases x.outcome_cases with ⟨a, events, hx⟩ | ⟨failure, events, hx⟩
  · rw [hgives a (by rw [Gives, hx]), hx]
  · rw [hfails failure (by rw [Fails, hx]), hx]

/-- The result of what comes next depends on nothing but the result before it. -/
theorem result_bind_congr {x y : Attempt α} {f g : α → Attempt β} (h : x.outcome.1 = y.outcome.1)
    (hnext : ∀ a, (f a).outcome.1 = (g a).outcome.1) :
    (x >>= f).outcome.1 = (y >>= g).outcome.1 := by
  refine result_eq ?_ ?_
  · intro b hb
    obtain ⟨a, ha, hb⟩ := gives_bind.mp hb
    exact gives_bind.mpr ⟨a, h.symm.trans ha, (hnext a).symm.trans hb⟩
  · intro e he
    rcases fails_bind.mp he with he | ⟨a, ha, he⟩
    · exact fails_bind.mpr (.inl (h.symm.trans he))
    · exact fails_bind.mpr (.inr ⟨a, h.symm.trans ha, (hnext a).symm.trans he⟩)

end DocAtlas.Attempt
