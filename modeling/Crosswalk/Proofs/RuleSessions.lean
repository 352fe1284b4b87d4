import Crosswalk.Proofs.RulesInForce

/-!
# Sessions with a rulebook

A rulebook is changed, is asked for the rules in force for a name, and reviews records. A
`RuleSession` is a rulebook with all that it has answered and the audit that its reviews have left,
and `RuleSession.after` is the session that a history of requests leads to. What it has come to is
said by `RuleSession.after_history`:

* the rules in force for a name are those that the changes in the history leave standing, and any
  request that does not change the rules for that name could as well be left out;
* an answer is what the rulebook had to say when it was asked, and stays so whatever comes later;
* a review fails over the first rule that rejects what the record shows under its name, having run
  the rules up to that one, and passes if there is no such rule, having run all;
* nothing but a review runs a rule.

A test may depend on what earlier tests have left, also on those of earlier reviews. What it accepts
is therefore said of the state in which it is run. The log does not determine that state, nor the
state the log, and the theorem gives both.
-/

namespace Crosswalk

variable {σ : Type}

/-! ### Sessions -/

inductive RuleRequest (σ : Type)
  | change (made : RuleChange σ)
  | rules (name : String)
  | review (name : String) (r : Record)

inductive RuleReply (σ : Type)
  | changed
  | rules (rules : List (Rule σ))
  | review (failure? : Option RuleFailure)

namespace RuleRequest

/-- The change that is asked for, if any. -/
def change? : RuleRequest σ → Option (RuleChange σ)
  | .change made => some made
  | .rules _ | .review _ _ => none

/-- Whether the rules for the name are to be changed. -/
def changes (name : String) : RuleRequest σ → Bool
  | .change (.register other _) | .change (.clear other) => other = name
  | .rules _ | .review _ _ => false

/-- Whether a record is to be reviewed. -/
def reviews : RuleRequest σ → Bool
  | .change _ | .rules _ => false
  | .review _ _ => true

/-- What is answered, and the audit after it. -/
def reply (S : Schema) (b : Rulebook σ) (audit : Audit σ) : RuleRequest σ → RuleReply σ × Audit σ
  | .change _ => (.changed, audit)
  | .rules name => (.rules (b.rulesFor name), audit)
  | .review name r =>
    let (failure?, audit) := b.review S name r audit
    (.review failure?, audit)

def serve (b : Rulebook σ) : RuleRequest σ → Rulebook σ
  | .change made => made.apply b
  | .rules _ | .review _ _ => b

/-- **A request that does not change the rules for a name** leaves them as they are. -/
theorem rulesFor_serve {name : String} {request : RuleRequest σ} (b : Rulebook σ)
    (h : request.changes name = false) : (request.serve b).rulesFor name = b.rulesFor name := by
  cases request with
  | change made =>
    cases made with
    | register other rules =>
      have hother : ¬ other = name := by simpa [changes] using h
      exact (b.rulesFor_register name other rules).trans (by simp [hother])
    | clear other =>
      have hother : ¬ other = name := by simpa [changes] using h
      exact (b.rulesFor_clear name other).trans (if_neg hother)
  | rules => rfl
  | review => rfl

/-- What a request does to the rules for a name depends on nothing but those rules. -/
theorem rulesFor_serve_congr {name : String} {b₁ b₂ : Rulebook σ} (request : RuleRequest σ)
    (h : b₁.rulesFor name = b₂.rulesFor name) :
    (request.serve b₁).rulesFor name = (request.serve b₂).rulesFor name := by
  cases request with
  | change made => rw [serve, serve, Rulebook.rulesFor_apply, Rulebook.rulesFor_apply, h]
  | rules => exact h
  | review => exact h

end RuleRequest

/-- A rulebook, what it has answered so far, in order, and what its reviews have left. -/
structure RuleSession (σ : Type) where
  book : Rulebook σ
  replies : List (RuleReply σ)
  audit : Audit σ

namespace RuleSession

/-- The session after one more request. -/
def next (S : Schema) (s : RuleSession σ) (request : RuleRequest σ) : RuleSession σ :=
  let answered := request.reply S s.book s.audit
  ⟨request.serve s.book, s.replies ++ [answered.1], answered.2⟩

/-- The session that a history of requests leads to, beginning with no rules and a given audit. -/
def after (S : Schema) (audit : Audit σ) (history : List (RuleRequest σ)) : RuleSession σ :=
  history.foldl (next S) ⟨.empty, [], audit⟩

def changes (history : List (RuleRequest σ)) : List (RuleChange σ) :=
  history.filterMap RuleRequest.change?

variable {S : Schema} {audit : Audit σ}

theorem after_concat (history : List (RuleRequest σ)) (request : RuleRequest σ) :
    after S audit (history ++ [request]) = (after S audit history).next S request :=
  List.foldl_concat ..

theorem book_after (history : List (RuleRequest σ)) :
    (after S audit history).book = .after (changes history) := by
  induction history using List.reverseRecOn with
  | nil => rfl
  | append_singleton history request ih =>
    rw [after_concat, next, changes, List.filterMap_append, ← changes]
    cases request with
    | change made => exact (congrArg made.apply ih).trans (List.foldl_concat ..).symm
    | rules => exact ih.trans (congrArg Rulebook.after (List.append_nil _).symm)
    | review => exact ih.trans (congrArg Rulebook.after (List.append_nil _).symm)

/-- The rules in force for a name are the same without the requests that do not change them. -/
theorem rulesFor_after_filter (history : List (RuleRequest σ)) (name : String) :
    (after S audit (history.filter (·.changes name))).book.rulesFor name =
      (after S audit history).book.rulesFor name := by
  induction history using List.reverseRecOn with
  | nil => rfl
  | append_singleton history request ih =>
    rw [List.filter_append, after_concat, next]
    cases hchanges : request.changes name with
    | false =>
      rw [List.filter_cons_of_neg (by simp [hchanges]), List.filter_nil, List.append_nil, ih]
      exact (request.rulesFor_serve _ hchanges).symm
    | true =>
      rw [List.filter_cons_of_pos hchanges, List.filter_nil, after_concat]
      exact request.rulesFor_serve_congr ih

theorem length_replies_after (history : List (RuleRequest σ)) :
    (after S audit history).replies.length = history.length := by
  induction history using List.reverseRecOn with
  | nil => rfl
  | append_singleton history request ih =>
    rw [after_concat, next, List.length_append, List.length_append, ih]
    rfl

/-- What has been answered stays answered. -/
theorem replies_after_append (earlier later : List (RuleRequest σ)) :
    (after S audit earlier).replies <+: (after S audit (earlier ++ later)).replies := by
  induction later using List.reverseRecOn with
  | nil => simp
  | append_singleton later request ih =>
    rw [← List.append_assoc, after_concat]
    exact ih.trans (List.prefix_append ..)

/-- **An answer** is what there was to say when the rulebook was asked. -/
theorem replies_after_getElem? (earlier : List (RuleRequest σ)) (request : RuleRequest σ)
    (later : List (RuleRequest σ)) :
    let before := after S audit earlier
    (after S audit (earlier ++ request :: later)).replies[earlier.length]? =
      some (request.reply S before.book before.audit).1 := by
  intro before
  have hnow : (after S audit (earlier ++ [request])).replies =
      before.replies ++ [(request.reply S before.book before.audit).1] := by
    rw [after_concat, next]
  have hkept : (after S audit (earlier ++ [request])).replies <+: _ :=
    replies_after_append (earlier ++ [request]) later
  rw [List.append_assoc, List.singleton_append, hnow] at hkept
  refine List.prefix_iff_getElem?.mp hkept earlier.length ?_ |>.trans ?_
  · simp [before, length_replies_after]
  · simp [before, length_replies_after]

/-- Only a review does anything to the audit. -/
theorem audit_after_concat (history : List (RuleRequest σ)) {request : RuleRequest σ}
    (h : request.reviews = false) :
    (after S audit (history ++ [request])).audit = (after S audit history).audit := by
  rw [after_concat, next]
  cases request with
  | change => rfl
  | rules => rfl
  | review => simp [RuleRequest.reviews] at h

/-- **What a review comes to.** It passes if all rules accept the record one after another, and it
fails over the first one that does not. The audit tells which were run, and what they left. -/
theorem review_iff (b : Rulebook σ) (name : String) (r : Record) (audit : Audit σ) :
    let (failure?, audit') := b.review S name r audit
    (failure? = none ↔ ∃ s, Rule.AcceptAll S r (b.rulesFor name) audit.state s) ∧
    (∀ s, Rule.AcceptAll S r (b.rulesFor name) audit.state s ↔
      failure? = none ∧ audit' = ⟨s, audit.log ++ (b.rulesFor name).map (·.on S r)⟩) ∧
    ∀ passed rule rest, b.rulesFor name = passed ++ rule :: rest → ∀ s',
      ((∃ s, Rule.AcceptAll S r passed audit.state s ∧ rule.Rejects S r s s') ↔
        failure? = some ⟨name, rule.field, rule.message⟩ ∧
          audit' = ⟨s', audit.log ++ (passed ++ [rule]).map (·.on S r)⟩) := by
  rw [Rulebook.review]
  generalize b.rulesFor name = rules
  rcases Rulebook.reviewBy_cases S name r rules audit with
    ⟨t, hall, hreview⟩ | ⟨first, rule, rest, t, t', rfl, hfirst, hrule, hreview⟩
  · rw [hreview]
    refine ⟨iff_of_true rfl ⟨t, hall⟩, fun s => ?_, fun passed rule rest heq s' => ?_⟩
    · constructor
      · intro h
        exact ⟨rfl, by rw [hall.unique h]⟩
      · rintro ⟨-, h⟩
        obtain rfl : t = s := congrArg Audit.state h
        exact hall
    · refine iff_of_false ?_ (by simp)
      rintro ⟨s, hpassed, hrule⟩
      exact hpassed.not_acceptAll hrule t (heq ▸ hall)
  · have hnot : ∀ s, ¬ Rule.AcceptAll S r (first ++ rule :: rest) audit.state s :=
      hfirst.not_acceptAll hrule
    rw [hreview]
    refine ⟨iff_of_false (by simp) fun ⟨s, h⟩ => hnot s h,
      fun s => iff_of_false (hnot s) (by simp), fun passed other others heq s' => ?_⟩
    constructor
    · rintro ⟨s, hpassed, hother⟩
      obtain ⟨rfl, rfl⟩ := Rule.AcceptAll.first_rejecting_unique heq hfirst hrule hpassed hother
      obtain rfl := hfirst.unique hpassed
      exact ⟨rfl, by rw [hrule.unique hother]⟩
    · rintro ⟨-, h⟩
      obtain rfl : t' = s' := congrArg Audit.state h
      have hruns := List.append_cancel_left (congrArg Audit.log h)
      have hsame := List.map_injective_iff.mpr Rule.on_injective hruns
      obtain ⟨rfl, hlast⟩ := List.append_inj' hsame rfl
      obtain rfl : rule = other := List.singleton_inj.mp hlast
      exact ⟨t, hfirst, hrule⟩

/-- **What a history of requests comes to**, with whatever rules and names, in whatever order, and
whatever the tests do to the state that they share.

The rules in force for a name are those that the history has left standing, and requests that do not
change the rules for that name make no difference to them. What was answered when the rules for a
name were asked for is what stood then, whatever comes later. Only reviews run rules. A review
passes if all rules that stood then accept the record, each in the state that the one before has
left, and it has run all of them then. It fails over a rule exactly if that is the first to reject
the record, and it has run the rules up to this one then. -/
theorem after_history (S : Schema) (audit : Audit σ) (history : List (RuleRequest σ)) :
    (∀ name, (after S audit history).book.rulesFor name =
      Rulebook.standing name (changes history)) ∧
    (∀ name, (after S audit (history.filter (·.changes name))).book.rulesFor name =
      (after S audit history).book.rulesFor name) ∧
    (∀ earlier name later, history = earlier ++ .rules name :: later →
      (after S audit history).replies[earlier.length]? =
        some (.rules (Rulebook.standing name (changes earlier)))) ∧
    (∀ earlier request later, history = earlier ++ request :: later → request.reviews = false →
      (after S audit (earlier ++ [request])).audit = (after S audit earlier).audit) ∧
    (∀ earlier name r later, history = earlier ++ .review name r :: later →
      let rules := Rulebook.standing name (changes earlier)
      let before := (after S audit earlier).audit
      let since := (after S audit (earlier ++ [.review name r])).audit
      ∃ failure?, (after S audit history).replies[earlier.length]? = some (.review failure?) ∧
        (failure? = none ↔ ∃ s, Rule.AcceptAll S r rules before.state s) ∧
        (∀ s, Rule.AcceptAll S r rules before.state s ↔
          failure? = none ∧ since = ⟨s, before.log ++ rules.map (·.on S r)⟩) ∧
        ∀ passed rule rest, rules = passed ++ rule :: rest → ∀ s',
          ((∃ s, Rule.AcceptAll S r passed before.state s ∧ rule.Rejects S r s s') ↔
            failure? = some ⟨name, rule.field, rule.message⟩ ∧
              since = ⟨s', before.log ++ (passed ++ [rule]).map (·.on S r)⟩)) := by
  have hstanding (history : List (RuleRequest σ)) (name : String) :
      (after S audit history).book.rulesFor name = Rulebook.standing name (changes history) := by
    rw [book_after, Rulebook.rulesFor_after]
  refine ⟨hstanding history, rulesFor_after_filter history, ?_, ?_, ?_⟩
  · rintro earlier name later rfl
    rw [replies_after_getElem?, ← hstanding]
    rfl
  · rintro earlier request later rfl hrequest
    exact audit_after_concat earlier hrequest
  · rintro earlier name r later rfl rules before since
    have hsince : since = ((after S audit earlier).book.review S name r before).2 := by
      simp only [since, after_concat]
      rfl
    refine ⟨((after S audit earlier).book.review S name r before).1, replies_after_getElem? .., ?_⟩
    rw [hsince, show rules = (after S audit earlier).book.rulesFor name from (hstanding ..).symm]
    exact review_iff ..

end RuleSession

end Crosswalk
