import Mathlib.Data.List.Basic

/-!
# Outcomes with the events on the way

Code which can throw returns a value or an error.  Here it returns with that
the events which have happened until then, in their order; an error keeps the
events before it.
-/

namespace TracedOutcome

structure Traced (ε Event α : Type) where
  outcome : Except ε α
  events : List Event

namespace Traced

variable {ε Event α β γ : Type}

def lift (outcome : Except ε α) : Traced ε Event α := ⟨outcome, []⟩

def record (event : Event) : Traced ε Event Unit := ⟨.ok (), [event]⟩

instance : Monad (Traced ε Event) where
  pure a := lift (.ok a)
  bind first next :=
    match first.outcome with
    | .ok a => ⟨(next a).outcome, first.events ++ (next a).events⟩
    | .error error => ⟨.error error, first.events⟩

@[simp] theorem pure_bind (a : α) (next : α → Traced ε Event β) :
    ((pure a : Traced ε Event α) >>= next) = next a := rfl

@[simp] theorem ok_bind (a : α) (next : α → Traced ε Event β) :
    (lift (.ok a) >>= next) = next a := rfl

@[simp] theorem fail_bind (error : ε) (next : α → Traced ε Event β) :
    (lift (.error error) >>= next) = lift (.error error) := rfl

theorem record_bind (event : Event) (next : Unit → Traced ε Event β) :
    (record event >>= next) = ⟨(next ()).outcome, event :: (next ()).events⟩ :=
  rfl

theorem bind_assoc (first : Traced ε Event α) (second : α → Traced ε Event β)
    (third : β → Traced ε Event γ) :
    first >>= second >>= third = first >>= fun a => second a >>= third := by
  obtain ⟨outcome, events⟩ := first
  cases outcome with
  | error error => rfl
  | ok a =>
      simp only [bind]
      cases (second a).outcome with
      | error error => rfl
      | ok b => simp only [List.append_assoc]

end Traced

end TracedOutcome
