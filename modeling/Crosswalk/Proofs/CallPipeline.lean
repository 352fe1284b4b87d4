import Crosswalk.Proofs.CallRedaction
import Crosswalk.Proofs.Noninterference
import Crosswalk.Proofs.RulesInForce

/-!
# How calls end

A call copies, redacts and checks, in this order and all on one destination. Each of the three may
fail. `Call.Ends` lists the ways in which that can go. The destination is in all of them the one
that redaction has left, or the copy if there was none. It is so after a failed copy too. The error
is the one of the first stage that failed. Rules are run in the last stage only, and there up to the
first that rejects the destination. What their tests do to the state that they share is what a call
does to it.

`Converter.call_ends` says that every call with two records ends in one of these ways. The rules
are the ones that a history of changes has left in force for the declared name of the destination's
type, and what is in effect is said by the options of the call or else by the settings. The copy is
one of the converter's tier with what the converter has kept so far, and a call changes nothing of
the converter but that.
-/

namespace Crosswalk

variable {σ : Type}

/-- How a call with two records ends, given what came of the copy and of the redaction, the record
that is left then, the rules in force for it, whether they are to be checked, and the audit before
the call. -/
inductive Call.Ends (S : Schema) (rules : List (Rule σ)) (checks : Bool) (left : Record)
    (audit : Audit σ) : Except ConvertError Unit → Except AccessError Nat → Call σ → Prop
  | copyFailed (e : ConvertError) (redacted : Except AccessError Nat) :
    Ends S rules checks left audit (.error e) redacted ⟨.error e, some left, audit⟩
  | redactionFailed (e : AccessError) :
    Ends S rules checks left audit (.ok ()) (.error e) ⟨.error (.access e), some left, audit⟩
  | unchecked (count : Nat) (h : checks = false) :
    Ends S rules checks left audit (.ok ()) (.ok count) ⟨.ok (), some left, audit⟩
  | satisfied (count : Nat) (h : checks = true) (s : σ)
    (hall : Rule.AcceptAll S left rules audit.state s) :
    Ends S rules checks left audit (.ok ()) (.ok count)
      ⟨.ok (), some left, ⟨s, audit.log ++ rules.map (·.on S left)⟩⟩
  | violated (count : Nat) (h : checks = true) (passed : List (Rule σ)) (rule : Rule σ)
    (rest : List (Rule σ)) (hrules : rules = passed ++ rule :: rest) (s s' : σ)
    (hpassed : Rule.AcceptAll S left passed audit.state s) (hrule : rule.Rejects S left s s') :
    Ends S rules checks left audit (.ok ()) (.ok count)
      ⟨.error (.invalid ⟨S.nameOf left.type, rule.field, rule.message⟩), some left,
        ⟨s', audit.log ++ (passed ++ [rule]).map (·.on S left)⟩⟩

namespace Converter

variable (S : Schema) (c : Converter σ) (direction : Direction) (options : CallOptions)
  (audit : Audit σ)

/-- The stage of the rules, when they are to be checked. -/
theorem ends_check (left : Record) (count : Nat) :
    Call.Ends S (c.rules.rulesFor (S.nameOf left.type)) true left audit (.ok ()) (.ok count)
      (c.check S left audit) := by
  rw [check, Rulebook.review]
  rcases Rulebook.reviewBy_cases S (S.nameOf left.type) left
      (c.rules.rulesFor (S.nameOf left.type)) audit with
    ⟨s, hall, hreview⟩ | ⟨passed, rule, rest, s, s', hrules, hpassed, hrule, hreview⟩
  · rw [hreview]
    exact .satisfied count rfl s hall
  · rw [hreview]
    exact .violated count rfl passed rule rest hrules s s' hpassed hrule

/-- What is done after a copy ends in one of these ways, whatever became of the copy. -/
theorem ends_complete (copied : Except ConvertError Unit) (copy : Record) :
    ∃ redacted left,
      (if c.settings.redactsUnder options then copy.redact S else (.ok 0, copy)) =
        (redacted, left) ∧
      Call.Ends S (c.rules.rulesFor (S.nameOf left.type))
        (c.settings.checksUnder options direction) left audit copied redacted
        (c.complete S direction options audit copied copy) := by
  rw [complete]
  generalize (if c.settings.redactsUnder options then copy.redact S else (.ok 0, copy)) = redaction
  obtain ⟨redacted, left⟩ := redaction
  refine ⟨redacted, left, rfl, ?_⟩
  cases copied with
  | error e => exact .copyFailed e redacted
  | ok _ =>
    cases redacted with
    | error e => exact .redactionFailed e
    | ok count =>
      cases hchecks : c.settings.checksUnder options direction with
      | false => exact .unchecked count rfl
      | true => exact ends_check S c audit left count

/-- **How a call ends**, for any two records or their absence and a converter with any settings,
after any history of changes to its rules and whatever it has kept. -/
theorem call_ends (changes : List (RuleChange σ)) (hrules : c.rules = .after changes)
    (src dst : Option Record) :
    let copied := c.tier.convert S src dst direction c.store
    let call := (c.call S src dst direction options audit).1
    (c.call S src dst direction options audit).2 = { c with store := copied.2 } ∧
      match src, dst with
      | none, dst => call = ⟨.error (.absent .source), dst, audit⟩
      | some _, none => call = ⟨.error (.absent .destination), none, audit⟩
      | some _, some _ => ∃ copy redacted left, copied.1.2 = some copy ∧
        (if options.redacts.getD c.settings.redacts then copy.redact S else (.ok 0, copy)) =
          (redacted, left) ∧
        Call.Ends S (Rulebook.standing (S.nameOf left.type) changes)
          (options.checks.getD (c.settings.scope.covers direction)) left audit copied.1.1
          redacted call := by
  intro copied call
  cases src with
  | none => exact ⟨rfl, rfl⟩
  | some src =>
    cases dst with
    | none => exact ⟨rfl, rfl⟩
    | some dst =>
      refine ⟨rfl, ?_⟩
      obtain ⟨copy, hcopy, hcall⟩ := call_eq_complete S c src dst direction options audit
      obtain ⟨redacted, left, hredaction, hends⟩ :=
        ends_complete S c direction options audit copied.1.1 copy
      rw [← hcall, hrules, Rulebook.rulesFor_after] at hends
      exact ⟨copy, redacted, left, hcopy, hredaction, hends⟩

end Converter

namespace Accounts

/-- The rule that a field meet a requirement, with a test that counts how often it is made. -/
def counted (field : String) (requirement : Requirement) : Rule Nat where
  field := field
  message := requirement.message
  test := fun v made => (requirement.holds v, made + 1)

/-- The owner is to be there, the password not too long, and there is to be a pin. The rule that was
made before them has been withdrawn, and the one in between is none for accounts. -/
def ruleChanges : List (RuleChange Nat) :=
  [.register "Account" [counted "card" .present], .clear "Account",
    .register "Account" [counted "owner" .present, counted "password" (.atMost 8)],
    .register "Person" [counted "name" (.atLeast 20)],
    .register "Account" [counted "pin" .present]]

/-- A converter of accounts that redacts, and checks in one direction. -/
def converter : Converter Nat :=
  ⟨⟨0⟩, ⟨0⟩, ⟨.ultraFast, true, .toModel⟩, .after ruleChanges, .empty⟩

end Accounts

/-- The password of an account is short enough, but what redaction puts in its place is not. The
rule before is satisfied, and the one after it is not run. -/
theorem Converter.call_ends_account :
    let account := Accounts.account .zero "hunter2" 1234 "blue" .null ⟨5, 7⟩
    let failure : RuleFailure := ⟨"Account", "password", "must be at most 8 characters"⟩
    Accounts.converter.rules = .after Accounts.ruleChanges ∧
      ∃ left passed rule rest made,
        (Accounts.converter.call Accounts.schema (some account)
          (some (.initial Accounts.schema ⟨0⟩)) .toModel .none ⟨0, []⟩).1 =
            ⟨.error (.invalid failure), some left,
              ⟨2, (passed ++ [rule]).map (·.on Accounts.schema left)⟩⟩ ∧
        Rulebook.standing "Account" Accounts.ruleChanges = passed ++ rule :: rest ∧
        Rule.AcceptAll Accounts.schema left passed 0 made ∧
        rule.Rejects Accounts.schema left made 2 := by
  intro account failure
  have hrules : Accounts.converter.rules = .after Accounts.ruleChanges := rfl
  have hcopied : (Accounts.converter.tier.convert Accounts.schema (some account)
      (some (.initial Accounts.schema ⟨0⟩)) .toModel Accounts.converter.store).1.1 = .ok () := by
    decide +kernel
  have hresult : (Accounts.converter.call Accounts.schema (some account)
      (some (.initial Accounts.schema ⟨0⟩)) .toModel .none ⟨0, []⟩).1.result =
        .error (.invalid failure) := by
    decide +kernel
  have hmade : (Accounts.converter.call Accounts.schema (some account)
      (some (.initial Accounts.schema ⟨0⟩)) .toModel .none ⟨0, []⟩).1.audit.state = 2 := by
    decide +kernel
  obtain ⟨-, copy, redacted, left, -, -, hends⟩ := call_ends Accounts.schema Accounts.converter
    .toModel .none ⟨0, []⟩ Accounts.ruleChanges hrules (some account)
    (some (.initial Accounts.schema ⟨0⟩))
  refine ⟨hrules, left, ?_⟩
  rw [hcopied] at hends
  generalize (Accounts.converter.call Accounts.schema (some account)
    (some (.initial Accounts.schema ⟨0⟩)) .toModel .none ⟨0, []⟩).1 = call at hends hresult hmade ⊢
  cases hends with
  | redactionFailed e => cases hresult
  | unchecked => cases hresult
  | satisfied => cases hresult
  | violated count _ passed rule rest hstanding made made' hpassed hrule =>
    have hname : Accounts.schema.nameOf left.type = "Account" :=
      congrArg RuleFailure.typeName (ConvertError.invalid.inj (Except.error.inj hresult))
    obtain rfl : made' = 2 := hmade
    dsimp only at hresult
    rw [hresult]
    rw [hname] at hstanding
    exact ⟨passed, rule, rest, made, rfl, hstanding, hpassed, hrule⟩

end Crosswalk
