import DocAtlas.Log.Event

/-!
Results with the events that led to them, in their order.

A computation that may fail is an `ExceptT` over `Logged`, so the events up to a failure are kept.
-/

set_option autoImplicit false

namespace DocAtlas

/-- A value, and the events logged on the way to it. -/
structure Logged (α : Type) where
  value : α
  events : List Event

namespace Logged

variable {α β : Type}

instance : Monad Logged where
  pure a := ⟨a, []⟩
  bind x f :=
    let y := f x.value
    ⟨y.value, x.events ++ y.events⟩

/-- A pure value is kept as it is. -/
@[simp] theorem value_pure (a : α) : (pure a : Logged α).value = a := rfl

/-- A pure value logs nothing. -/
@[simp] theorem events_pure (a : α) : (pure a : Logged α).events = [] := rfl

/-- What comes next is computed from the value, and the events do not matter to it. -/
@[simp] theorem value_bind (x : Logged α) (f : α → Logged β) :
    (x >>= f).value = (f x.value).value := rfl

/-- Events are kept in the order in which they were logged. -/
@[simp] theorem events_bind (x : Logged α) (f : α → Logged β) :
    (x >>= f).events = x.events ++ (f x.value).events := rfl

/-- A map acts on the value. -/
@[simp] theorem value_map (f : α → β) (x : Logged α) : (f <$> x).value = f x.value := rfl

/-- A map logs nothing of its own. -/
@[simp] theorem events_map (f : α → β) (x : Logged α) : (f <$> x).events = x.events :=
  List.append_nil x.events

/-- A logged value is its value and its events. -/
theorem ext_iff {x y : Logged α} : x = y ↔ x.value = y.value ∧ x.events = y.events := by
  cases x; cases y; simp

instance : LawfulMonad Logged := LawfulMonad.mk' Logged
  (by intro α x; simp [ext_iff])
  (by intro α β a f; simp [ext_iff])
  (by intro α β γ x f g; simp [ext_iff])

/-- Logs an event. -/
def log (e : Event) : Logged Unit := ⟨(), [e]⟩

end Logged

end DocAtlas
