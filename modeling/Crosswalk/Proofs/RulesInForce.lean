import Crosswalk.Proofs.Columns
import Crosswalk.Rulebook
import Mathlib.Data.List.DropRight

/-!
# The rules in force

Rules are added for a name and removed for a name, in any order and for any names. What is in force
for a name after a history of changes is then easily said without the rulebook. It is what has been
added for that name since its rules were last removed, in the order in which it was added. That is
`Rulebook.standing`, which looks at the history only, and `Rulebook.rulesFor_after` says that the
rulebook agrees. The step lemma is `Rulebook.rulesFor_apply`. A change for another name does
nothing, and for the name itself it either forgets everything or appends.

A review runs the rules in order and stops at the first that rejects what the record shows under
its name. A rule may be any test, with effects on a state that later tests see, and so a test that
is not due must not be made. `Rule.Accepts` and `Rule.Rejects` are what one test does to the state,
`Rule.AcceptAll` is a sequence of tests that accept, and `Rulebook.reviewBy_cases` says what a
review leaves: the state after the tests up to the first that rejects, and a log of exactly these.

What a record shows under a name is `Record.Shows`. It is what can be read from the first field of
that name, and nothing if there is no such field or it cannot be read. A later field of the same
name is never shown in its place.
-/

namespace Crosswalk

variable {σ : Type}

/-- A change to a rulebook. -/
inductive RuleChange (σ : Type)
  | register (name : String) (rules : List (Rule σ))
  | clear (name : String)

namespace RuleChange

/-- The rulebook after the change. -/
def apply (b : Rulebook σ) : RuleChange σ → Rulebook σ
  | register name rules => b.register name rules
  | clear name => b.clear name

/-- Whether the change removes the rules for the name. -/
def clears (name : String) : RuleChange σ → Bool
  | register _ _ => false
  | clear other => other = name

/-- The rules that the change adds for the name. -/
def added (name : String) : RuleChange σ → List (Rule σ)
  | register other rules => if other = name then rules else []
  | clear _ => []

end RuleChange

/-! ### What a record shows under a name -/

/-- The value is what a record shows under a name. -/
inductive Record.Shows (S : Schema) (r : Record) (name : String) : Value → Prop
  | field {index : Nat} {v : Value} (h : (r.decl S).FirstNamed name index)
    (hv : r.get? S index = some v) : Shows S r name v
  | nothing (h : ∀ index, (r.decl S).FirstNamed name index → r.get? S index = none) :
    Shows S r name .null

theorem Record.shows_iff {S : Schema} {r : Record} {name : String} {v : Value} :
    r.Shows S name v ↔ r.shown S name = v := by
  rw [shown]
  constructor
  · intro h
    cases h with
    | field h hv => rw [getByName?_of_firstNamed h, hv, Option.getD_some]
    | nothing h =>
      rw [getByName?]
      cases hc : (r.decl S).column? name with
      | none => rfl
      | some c =>
        rw [Option.bind_some, h c.index (TypeDecl.column?_eq_some_iff_firstNamed _ |>.mp hc).2]
        rfl
  · rintro rfl
    cases hread : r.getByName? S name with
    | none => exact .nothing fun index h => (getByName?_of_firstNamed h).symm.trans hread
    | some v =>
      obtain ⟨c, hc, hv⟩ := Option.bind_eq_some_iff.mp hread
      exact .field (TypeDecl.column?_eq_some_iff_firstNamed _ |>.mp hc).2 hv

/-! ### What tests do to the state -/

namespace Rule

variable (S : Schema) (r : Record)

/-- The test of the rule accepts what the record shows under its name, in the first state, and
leaves the second. -/
def Accepts (rule : Rule σ) (s s' : σ) : Prop :=
  ∃ v, r.Shows S rule.field v ∧ rule.test v s = (true, s')

/-- The test of the rule rejects what the record shows under its name, in the first state, and
leaves the second. -/
def Rejects (rule : Rule σ) (s s' : σ) : Prop :=
  ∃ v, r.Shows S rule.field v ∧ rule.test v s = (false, s')

/-- The tests of all these rules accept the record, each in the state that the one before has
left. -/
inductive AcceptAll : List (Rule σ) → σ → σ → Prop
  | nil (s : σ) : AcceptAll [] s s
  | cons {rule : Rule σ} {rest : List (Rule σ)} {s s' s'' : σ} (h : rule.Accepts S r s s')
    (hrest : AcceptAll rest s' s'') : AcceptAll (rule :: rest) s s''

/-- The entry of the log for the rule when it is run on the record. -/
def on (rule : Rule σ) : Rule σ × Value := (rule, r.shown S rule.field)

variable {S r} {rule : Rule σ} {s s' s'' : σ}

theorem accepts_iff : rule.Accepts S r s s' ↔ rule.test (r.shown S rule.field) s = (true, s') := by
  simp [Accepts, Record.shows_iff]

theorem rejects_iff : rule.Rejects S r s s' ↔ rule.test (r.shown S rule.field) s = (false, s') := by
  simp [Rejects, Record.shows_iff]

/-- A rule that accepts a record does not reject it in the same state. -/
theorem Accepts.not_rejects (h : rule.Accepts S r s s') : ¬ rule.Rejects S r s s'' := by
  rw [accepts_iff] at h
  simp [rejects_iff, h]

theorem Accepts.unique (h : rule.Accepts S r s s') (h' : rule.Accepts S r s s'') : s' = s'' := by
  rw [accepts_iff] at h h'
  rw [h] at h'
  exact (Prod.mk.inj h').2

theorem Rejects.unique (h : rule.Rejects S r s s') (h' : rule.Rejects S r s s'') : s' = s'' := by
  rw [rejects_iff] at h h'
  rw [h] at h'
  exact (Prod.mk.inj h').2

theorem on_injective : Function.Injective fun rule : Rule σ => rule.on S r :=
  fun _ _ h => (Prod.mk.inj h).1

theorem AcceptAll.unique {rules : List (Rule σ)} (h : AcceptAll S r rules s s')
    (h' : AcceptAll S r rules s s'') : s' = s'' := by
  induction h with
  | nil =>
    cases h'
    rfl
  | cons hrule _ ih =>
    cases h' with
    | cons hrule' hrest' =>
      obtain rfl := hrule.unique hrule'
      exact ih hrest'

theorem acceptAll_append_iff {earlier later : List (Rule σ)} :
    AcceptAll S r (earlier ++ later) s s'' ↔
      ∃ s', AcceptAll S r earlier s s' ∧ AcceptAll S r later s' s'' := by
  induction earlier generalizing s with
  | nil =>
    constructor
    · exact fun h => ⟨s, .nil s, h⟩
    · rintro ⟨s', ⟨⟩, h⟩
      exact h
  | cons rule earlier ih =>
    constructor
    · rintro (_ | ⟨hrule, hrest⟩)
      obtain ⟨s', hearlier, hlater⟩ := ih.mp hrest
      exact ⟨s', .cons hrule hearlier, hlater⟩
    · rintro ⟨s', _ | ⟨hrule, hearlier⟩, hlater⟩
      exact .cons hrule (ih.mpr ⟨s', hearlier, hlater⟩)

/-- Where the first rejecting rule of a list stands is determined by the list. -/
theorem AcceptAll.first_rejecting_unique {passed passed' rest rest' : List (Rule σ)}
    {rule' : Rule σ} {t t' u u' : σ} (h : passed ++ rule :: rest = passed' ++ rule' :: rest')
    (hpassed : AcceptAll S r passed s t) (hrule : rule.Rejects S r t u)
    (hpassed' : AcceptAll S r passed' s t') (hrule' : rule'.Rejects S r t' u') :
    passed = passed' ∧ rule = rule' := by
  rcases List.append_eq_append_iff.mp h with ⟨more, rfl, hmore⟩ | ⟨more, rfl, hmore⟩
  · obtain ⟨t₀, hfirst, hothers⟩ := acceptAll_append_iff.mp hpassed'
    obtain rfl := hpassed.unique hfirst
    cases hothers with
    | nil => exact ⟨(List.append_nil _).symm, (List.cons.inj hmore).1⟩
    | cons haccepts =>
      obtain ⟨rfl, -⟩ := List.cons.inj hmore
      exact absurd hrule haccepts.not_rejects
  · obtain ⟨t₀, hfirst, hothers⟩ := acceptAll_append_iff.mp hpassed
    obtain rfl := hpassed'.unique hfirst
    cases hothers with
    | nil => exact ⟨List.append_nil _, (List.cons.inj hmore).1.symm⟩
    | cons haccepts =>
      obtain ⟨rfl, -⟩ := List.cons.inj hmore
      exact absurd hrule' haccepts.not_rejects

/-- Rules are not all accepted where one of them rejects. -/
theorem AcceptAll.not_acceptAll {passed rest : List (Rule σ)} (h : AcceptAll S r passed s s')
    (hrule : rule.Rejects S r s' s'') (t : σ) : ¬ AcceptAll S r (passed ++ rule :: rest) s t := by
  intro hall
  obtain ⟨t', hpassed, hothers⟩ := acceptAll_append_iff.mp hall
  obtain rfl := h.unique hpassed
  cases hothers with
  | cons haccepts => exact absurd hrule haccepts.not_rejects

end Rule

/-! ### Histories of changes -/

namespace Rulebook

/-- The rulebook that a history of changes leads to, beginning with no rules. -/
def after (changes : List (RuleChange σ)) : Rulebook σ := changes.foldl RuleChange.apply empty

/-- What a history of changes has added for the name since it last removed the rules for it. -/
def standing (name : String) (changes : List (RuleChange σ)) : List (Rule σ) :=
  (changes.rtakeWhile fun change => !change.clears name).flatMap (·.added name)

variable (b : Rulebook σ) (name : String)

theorem rulesFor_register (other : String) (rules : List (Rule σ)) :
    (b.register other rules).rulesFor name =
      b.rulesFor name ++ if other = name then rules else [] := by
  rw [rulesFor, rulesFor, register, List.filterMap_append, List.filterMap_map]
  congr 1
  by_cases h : other = name <;> simp [h]

theorem rulesFor_clear (other : String) :
    (b.clear other).rulesFor name = if other = name then [] else b.rulesFor name := by
  rw [rulesFor, rulesFor, clear, List.filterMap_filter]
  by_cases h : other = name
  · rw [if_pos h, List.filterMap_eq_nil_iff]
    intro entry _
    by_cases hn : entry.1 = name <;> simp [h, hn]
  · rw [if_neg h]
    refine List.filterMap_congr fun entry _ => ?_
    by_cases hn : entry.1 = name
    · have hother : entry.1 ≠ other := fun he => h (he.symm.trans hn)
      simp [hother]
    · simp [hn]

/-- **What one change does to the rules in force for a name.** -/
theorem rulesFor_apply (change : RuleChange σ) :
    (change.apply b).rulesFor name =
      if change.clears name then [] else b.rulesFor name ++ change.added name := by
  cases change with
  | register other rules => exact b.rulesFor_register name other rules
  | clear other =>
    rw [RuleChange.apply, rulesFor_clear]
    by_cases h : other = name <;> simp [RuleChange.clears, RuleChange.added, h]

/-- **The rules in force after a history of changes** are those that were added since the last
removal, in order. -/
theorem rulesFor_after (changes : List (RuleChange σ)) :
    (after changes).rulesFor name = standing name changes := by
  induction changes using List.reverseRecOn with
  | nil => rfl
  | append_singleton changes change ih =>
    rw [after, List.foldl_concat, ← after, rulesFor_apply, ih, standing, standing,
      List.rtakeWhile_concat]
    cases change.clears name with
    | true => rfl
    | false => simp

/-! ### One review -/

/-- **A review stops at the first rule that rejects the record**, and runs none after it. -/
theorem reviewBy_cases (S : Schema) (typeName : String) (r : Record) (rules : List (Rule σ))
    (audit : Audit σ) :
    (∃ s, Rule.AcceptAll S r rules audit.state s ∧
      reviewBy S typeName r rules audit = (none, ⟨s, audit.log ++ rules.map (·.on S r)⟩)) ∨
      ∃ passed rule rest s s', rules = passed ++ rule :: rest ∧
        Rule.AcceptAll S r passed audit.state s ∧ rule.Rejects S r s s' ∧
        reviewBy S typeName r rules audit =
          (some ⟨typeName, rule.field, rule.message⟩,
            ⟨s', audit.log ++ (passed ++ [rule]).map (·.on S r)⟩) := by
  induction rules generalizing audit with
  | nil => exact .inl ⟨audit.state, .nil _, by simp [reviewBy]⟩
  | cons first rules ih =>
    rw [reviewBy, Rule.check]
    rcases hfirst : first.test (r.shown S first.field) audit.state with ⟨_ | _, s₁⟩
    · exact .inr ⟨[], first, rules, audit.state, s₁, rfl, .nil _, Rule.rejects_iff.mpr hfirst, rfl⟩
    · have haccepts : first.Accepts S r audit.state s₁ := Rule.accepts_iff.mpr hfirst
      rcases ih ⟨s₁, audit.log ++ [(first, r.shown S first.field)]⟩ with
        ⟨s, hall, hreview⟩ | ⟨passed, rule, rest, s, s', rfl, hpassed, hrule, hreview⟩
      · refine .inl ⟨s, .cons haccepts hall, ?_⟩
        simp [hreview, Rule.on]
      · refine .inr ⟨first :: passed, rule, rest, s, s', rfl, .cons haccepts hpassed, hrule, ?_⟩
        simp [hreview, Rule.on]

end Rulebook

end Crosswalk
