/-!
# What a call comes to

A recursive function of a source may go on for ever, and it may panic. Where its recursion is
bounded by fuel, a call has three outcomes: the fuel runs out, an access panics, or the call
returns.

* `Outcome` — the three, and the monad in which the first that is not a return ends the call.
* `access` — an access, which panics where it has no value.
-/

universe u v

/-- What a call comes to. -/
inductive Outcome (α : Type u) : Type u where
  | outOfFuel
  | panics
  | returns (a : α)

namespace Outcome

variable {α : Type u} {β : Type v}

/-- Go on with what is returned. -/
protected def bind (x : Outcome α) (f : α → Outcome β) : Outcome β :=
  match x with
  | outOfFuel => outOfFuel
  | panics => panics
  | returns a => f a

instance : Monad Outcome where
  pure := returns
  bind := Outcome.bind

@[simp] theorem pure_eq (a : α) : (pure a : Outcome α) = returns a := rfl

@[simp] theorem returns_bind {α β : Type u} (a : α) (f : α → Outcome β) : (returns a >>= f) = f a :=
  rfl

/-- An access, which panics where there is nothing. -/
def access : Option α → Outcome α
  | some a => returns a
  | none => panics

@[simp] theorem access_some (a : α) : access (some a) = returns a := rfl

end Outcome
