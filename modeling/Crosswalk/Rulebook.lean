import Crosswalk.Error
import Crosswalk.Rule

/-!
# Rules of record types

A rulebook lists rules under the declared names of the types whose records they concern, in the
order in which they were added. It is a value: a list of rules taken from it is not affected by what
is added or removed later.

A record is reviewed by running the rules of a name one after another, up to the first that rejects
it. A rule is run on what the record shows under its name, which is the first field of that name,
and nothing if there is no such field to be read.
-/

namespace Crosswalk

variable {σ : Type}

/-- Rules in the order in which they were added, each under the name of a type. -/
structure Rulebook (σ : Type) where
  entries : List (String × Rule σ)

/-- What a record shows under a name. -/
def Record.shown (S : Schema) (r : Record) (name : String) : Value :=
  (r.getByName? S name).getD .null

namespace Rulebook

def empty : Rulebook σ := ⟨[]⟩

/-- The rules in force for a name. -/
def rulesFor (b : Rulebook σ) (name : String) : List (Rule σ) :=
  b.entries.filterMap fun (n, rule) => if n = name then some rule else none

/-- Adds rules for a name after those that are there. -/
def register (b : Rulebook σ) (name : String) (rules : List (Rule σ)) : Rulebook σ :=
  ⟨b.entries ++ rules.map (name, ·)⟩

/-- Removes all rules for a name. -/
def clear (b : Rulebook σ) (name : String) : Rulebook σ :=
  ⟨b.entries.filter (·.1 ≠ name)⟩

/-- Reviews a record by some rules, in order, up to the first that rejects it. -/
def reviewBy (S : Schema) (typeName : String) (r : Record) :
    List (Rule σ) → Audit σ → Option RuleFailure × Audit σ
  | [], audit => (none, audit)
  | rule :: rest, audit =>
    match rule.check (r.shown S rule.field) audit with
    | (true, audit) => reviewBy S typeName r rest audit
    | (false, audit) => (some ⟨typeName, rule.field, rule.message⟩, audit)

/-- Reviews a record by the rules in force for a name. -/
def review (b : Rulebook σ) (S : Schema) (name : String) (r : Record) (audit : Audit σ) :
    Option RuleFailure × Audit σ :=
  reviewBy S name r (b.rulesFor name) audit

end Rulebook

end Crosswalk
