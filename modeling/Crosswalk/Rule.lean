import Crosswalk.Decimal.Shortest
import Crosswalk.Pattern.Match
import Crosswalk.Pattern.Reader
import Crosswalk.Text.Quoted
import Crosswalk.Value.Coerce

/-!
# Rules

A rule tests one field of a record. What it tests is up to whoever makes the rule: a test may look
at a state and change it, and its answer may depend on that. An `Audit` is that state with a log,
and to run a rule (`Rule.check`) is what enters it there.

Most rules ask for a `Requirement`, which has no effects. Each requirement concerns values of
certain shapes, and every other value satisfies it; in particular an absent value satisfies all of
them except that it be there. A length is a number of characters. A range is a range of
double-precision numbers, and a number that is none of them is rounded to one before it is compared.
-/

namespace Crosswalk

/-- What may be asked of a value. -/
inductive Requirement
  /-- The value is there, and it is no empty text, byte string or list. -/
  | present
  /-- A text has at least so many characters. -/
  | atLeast (length : Nat)
  /-- A text has at most so many characters. -/
  | atMost (length : Nat)
  /-- A number lies between two numbers. -/
  | between (least most : Binary64)
  /-- A text has a part that the pattern describes. The written pattern is kept for the message. -/
  | matching (written : String) (pattern : Pattern)
  /-- A text is one of these. -/
  | among (options : List String)

namespace Requirement

/-- The requirement that a text has a part described by a written pattern, if that is well
formed. -/
def ofPattern? (written : String) : Option Requirement :=
  (Pattern.ofText? written).map (.matching written)

/-- What is said of a value that does not meet the requirement. -/
def message : Requirement → String
  | present => "is required"
  | atLeast length => s!"must be at least {length} characters"
  | atMost length => s!"must be at most {length} characters"
  | between least most => s!"must be between {least.text} and {most.text}"
  | matching written _ => "must match " ++ written
  | among options => "must be one of [" ++ ", ".intercalate options ++ "]"

/-- Whether a value meets the requirement. -/
def holds (r : Requirement) (v : Value) : Bool :=
  match r, v with
  | present, .null => false
  | present, .string s => s ≠ ""
  | present, .bytes bs => bs ≠ []
  | present, .list items => !items.isEmpty
  | atLeast length, .string s => decide (length ≤ s.length)
  | atMost length, .string s => decide (s.length ≤ length)
  | between least most, v =>
    v.number?.all fun n =>
      let x := (Binary64.ofNumber n).number
      least.number.le x && x.le most.number
  | matching _ pattern, .string s => pattern.isMatch s
  | among options, .string s => options.contains s
  | _, _ => true

end Requirement

/-- A rule on the field of a name, with what it says of a value that it rejects. Its test answers
for a value in a state and leaves another state. -/
structure Rule (σ : Type) where
  field : String
  message : String
  test : Value → σ → Bool × σ

/-- The state that tests have left, and the rules that were run, each with the value that it was run
on. -/
structure Audit (σ : Type) where
  state : σ
  log : List (Rule σ × Value)

namespace Rule

variable {σ : Type}

/-- The rule that a field meet a requirement. -/
def asking (field : String) (requirement : Requirement) : Rule σ where
  field := field
  message := requirement.message
  test := fun v state => (requirement.holds v, state)

/-- Runs the test of the rule on a value. -/
def check (rule : Rule σ) (v : Value) (audit : Audit σ) : Bool × Audit σ :=
  let (answer, state) := rule.test v audit.state
  (answer, ⟨state, audit.log ++ [(rule, v)]⟩)

/-- The rule in diagnostics, which do not show what it tests. -/
def debugText (r : Rule σ) : String :=
  "ValidationRule \x7b field_name: " ++ Text.quote r.field ++ ", message: " ++
    Text.quote r.message ++ ", .. \x7d"

/-- A list of rules in diagnostics. -/
def debugTextAll (rules : List (Rule σ)) : String :=
  "[" ++ ", ".intercalate (rules.map debugText) ++ "]"

end Rule

end Crosswalk
