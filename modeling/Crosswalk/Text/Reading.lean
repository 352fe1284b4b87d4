/-!
# Reading a text from the front

A `Reading` takes something off the front of a text, or refuses the text. Readings are put together
in `do` blocks, each going on with what the one before has left.
-/

namespace Crosswalk.Text

/-- Reads something off the front of a text, or refuses the text. -/
abbrev Reading := StateT (List Char) Option

namespace Reading

variable {α : Type}

/-- The first character, which is left where it is. -/
def peek? : Reading (Option Char) := return (← get).head?

/-- The first character, which must be there. -/
def next : Reading Char
  | [] => none
  | c :: cs => some (c, cs)

/-- Whether this character was first and has been taken off. -/
def accept (c : Char) : Reading Bool
  | [] => some (false, [])
  | d :: cs => some (if d = c then (true, cs) else (false, d :: cs))

/-- Whether one of these characters was first and has been taken off. -/
def acceptAny (cs : List Char) : Reading Bool
  | [] => some (false, [])
  | d :: rest => some (if d ∈ cs then (true, rest) else (false, d :: rest))

/-- Whether the text began with these characters, which have been taken off. -/
def acceptAll (cs : List Char) : Reading Bool := fun text =>
  some (if cs.isPrefixOf text then (true, text.drop cs.length) else (false, text))

/-- Takes off a character, which must be first. -/
def expect (c : Char) : Reading Unit := do
  guard (← accept c)

/-- The longest run of characters that satisfy a test. -/
def run (test : Char → Bool) : Reading (List Char) := fun text =>
  some (text.takeWhile test, text.dropWhile test)

/-- Whether nothing is left. -/
def atEnd : Reading Bool := return (← get).isEmpty

/-- A reading that must take the whole text. -/
def all? (reading : Reading α) (text : List Char) : Option α :=
  match reading text with
  | some (a, []) => some a
  | _ => none

end Reading

end Crosswalk.Text
