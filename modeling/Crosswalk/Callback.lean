/-!
# Callbacks

A field of function kind holds a callback: an action on some state, or nothing. Actions cannot be
compared, so each one has an identity, which its copies share. Two callbacks are the same if they
hold the same action or both hold none. Such a field is never copied from one record to another.
-/

namespace Crosswalk

/-- An action with its identity, or nothing. -/
structure Callback (σ : Type) where
  action : Option (Nat × (σ → σ))

namespace Callback

variable {σ : Type}

/-- The callback that holds nothing. -/
def unset : Callback σ := ⟨none⟩

/-- A callback with an action that is told from others by its identity. -/
def new (id : Nat) (act : σ → σ) : Callback σ := ⟨some (id, act)⟩

def isSet (c : Callback σ) : Bool := c.action.isSome

/-- The state after the callback has been called. -/
def call (c : Callback σ) (s : σ) : σ :=
  match c.action with
  | some (_, act) => act s
  | none => s

/-- Whether two callbacks hold the same action, or none. -/
def same (a b : Callback σ) : Bool := a.action.map (·.1) == b.action.map (·.1)

/-- The callback in diagnostics. -/
def debugText (c : Callback σ) : String :=
  if c.isSet then "Callback(set)" else "Callback(unset)"

end Callback

end Crosswalk
