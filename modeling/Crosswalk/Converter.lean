import Crosswalk.Redaction
import Crosswalk.Rulebook
import Crosswalk.Settings

/-!
# Converters

A converter belongs to a wire type and a model type. It has settings, rules, and whatever its tier
keeps.

A call copies the source into the destination. If redaction is in effect the destination is then
redacted, also when the copy failed, since fields that were written before the failure stay written.
A failure of the copy is reported before one of the redaction. Only when both went well, and
checking is in effect, is the destination reviewed by the rules in force for the declared name of
its type. Without a source, or without a destination, nothing is done. Running rules is the only
thing that a call does to the audit which it is given.

A list is converted item by item into fresh records, up to the first item that fails.
-/

namespace Crosswalk

structure Converter (σ : Type) where
  wire : TypeId
  model : TypeId
  settings : Settings
  rules : Rulebook σ
  store : Store

/-- What came of a call: its result, and the destination and the audit after it. -/
structure Call (σ : Type) where
  result : Except ConvertError Unit
  target : Option Record
  audit : Audit σ

namespace Converter

variable {σ : Type} (S : Schema)

/-- A converter with no rules, which has kept nothing yet. -/
def new (wire model : TypeId) (settings : Settings) : Converter σ :=
  ⟨wire, model, settings, .empty, .empty⟩

def tier (c : Converter σ) : Tier := c.settings.level.tier

/-- The key of the plan for a direction. -/
def key (c : Converter σ) (direction : Direction) : PlanKey := ⟨⟨c.wire, c.model⟩, direction⟩

/-- The plan for a direction, which does not depend on the settings. -/
def plan (c : Converter σ) (direction : Direction) : Except ConvertError Plan :=
  (Plan.resolve S (c.key direction)).mapError .noPlan

/-- Adds rules for a declared name. -/
def register (c : Converter σ) (name : String) (rules : List (Rule σ)) : Converter σ :=
  { c with rules := c.rules.register name rules }

/-- Checks the destination of a copy by the rules. -/
def check (c : Converter σ) (r : Record) (audit : Audit σ) : Call σ :=
  match c.rules.review S (S.nameOf r.type) r audit with
  | (some failure, audit) => ⟨.error (.invalid failure), some r, audit⟩
  | (none, audit) => ⟨.ok (), some r, audit⟩

/-- What is left to do after a copy: redaction and the rules, as far as they are in effect. -/
def complete (c : Converter σ) (direction : Direction) (options : CallOptions) (audit : Audit σ)
    (copied : Except ConvertError Unit) (copy : Record) : Call σ :=
  let (redacted, target) :=
    if c.settings.redactsUnder options then copy.redact S else (.ok 0, copy)
  match copied, redacted with
  | .error e, _ => ⟨.error e, some target, audit⟩
  | .ok _, .error e => ⟨.error (.access e), some target, audit⟩
  | .ok _, .ok _ =>
    if c.settings.checksUnder options direction then c.check S target audit
    else ⟨.ok (), some target, audit⟩

/-- A call with two records of whatever type, either of which may be absent. -/
def call (c : Converter σ) (src dst : Option Record) (direction : Direction)
    (options : CallOptions) (audit : Audit σ) : Call σ × Converter σ :=
  let ((copied, copy?), store) := c.tier.convert S src dst direction c.store
  let c := { c with store }
  match src, copy? with
  | some _, some copy => (c.complete S direction options audit copied copy, c)
  | _, copy? => (⟨copied, copy?, audit⟩, c)

/-- The result of a list, and the audit after it. -/
structure ListCall (σ : Type) where
  result : Except ConvertError (List Record)
  audit : Audit σ

/-- Converts records into fresh ones of a type, counted from a given index. -/
def callEach (target : TypeId) (direction : Direction) (options : CallOptions) :
    Nat → List Record → Audit σ → Converter σ → ListCall σ × Converter σ
  | _, [], audit, c => (⟨.ok [], audit⟩, c)
  | index, src :: rest, audit, c =>
    let (first, c) := c.call S (some src) (some (.initial S target)) direction options audit
    match first.result with
    | .error e => (⟨.error (.element index e), first.audit⟩, c)
    | .ok _ =>
      let (others, c) := callEach target direction options (index + 1) rest first.audit c
      ({ others with result := others.result.map (first.target.toList ++ ·) }, c)

/-- Converts a list of records into fresh ones. -/
def callList (c : Converter σ) (srcs : List Record) (direction : Direction)
    (options : CallOptions) (audit : Audit σ) : ListCall σ × Converter σ :=
  callEach S (c.key direction).target direction options 0 srcs audit c

/-- The converter in diagnostics. -/
def debugText (c : Converter σ) : String :=
  "Converter \x7b config: " ++ c.settings.debugText ++ ", strategy: \"" ++ c.tier.name ++
    "\", .. \x7d"

end Converter

end Crosswalk
