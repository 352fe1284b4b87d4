import Crosswalk.Proofs.CallPipeline
import Crosswalk.Proofs.Histories
import Mathlib.Data.List.Forall2

/-!
# Calls with lists

A list is converted element by element, each into a fresh record, up to the first that fails. The
elements share what the converter keeps, and the earlier ones may well have failed in the middle of
a copy or a redaction. None of this reaches a later one. What comes of an element is what comes of
it when it is converted by itself, by the same converter with any history
(`Converter.call_withHistory`).

The elements also share the audit. A test that answers for the value only (`Rule.Steady`) may still
change the state, but no later test answers differently for that. With such rules two calls that
differ in the audit alone come to the same and run the same rules (`Converter.alike_alone`).

So the result for a list is put together from calls that know nothing of each other, and the only
thing that goes from one element to the next is whether to go on. `ListCall.Ends` lists the two ways
in which it can end. Either every element was converted, or some element failed, and then those
behind it might as well not be there. That is meant of everything that a call does, of its result,
of the rules it runs and of what is kept after it.
-/

namespace Crosswalk

variable {σ : Type}

/-! ### Tests that answer for the value only -/

/-- What the test of the rule answers does not depend on the state. -/
def Rule.Steady (rule : Rule σ) : Prop :=
  ∀ v s s', (rule.test v s).1 = (rule.test v s').1

/-- All rules of the book answer for the value only. -/
def Rulebook.Steady (b : Rulebook σ) : Prop := ∀ entry ∈ b.entries, entry.2.Steady

theorem Rulebook.Steady.of_mem_rulesFor {b : Rulebook σ} (h : b.Steady) {name : String}
    {rule : Rule σ} (hrule : rule ∈ b.rulesFor name) : rule.Steady := by
  obtain ⟨entry, hentry, heq⟩ := List.mem_filterMap.mp hrule
  obtain ⟨-, rfl⟩ : entry.1 = name ∧ entry.2 = rule := by simpa using heq
  exact h entry hentry

/-- Two audits have come of two others by the same rules, run on the same values. -/
def Audit.Alike (before before' after after' : Audit σ) : Prop :=
  ∃ ran, after.log = before.log ++ ran ∧ after'.log = before'.log ++ ran

theorem Audit.Alike.refl (before before' : Audit σ) : before.Alike before' before before' :=
  ⟨[], (List.append_nil _).symm, (List.append_nil _).symm⟩

/-- The rules that were run are the log of an audit that had none. -/
theorem Audit.Alike.log_eq {s : σ} {before' after after' : Audit σ}
    (h : Audit.Alike ⟨s, []⟩ before' after after') : after'.log = before'.log ++ after.log := by
  obtain ⟨ran, hran, hran'⟩ := h
  rw [hran', hran, List.nil_append]

/-- Two calls have come to the same, each from its audit. -/
structure Call.Alike (audit audit' : Audit σ) (call call' : Call σ) : Prop where
  result : call.result = call'.result
  target : call.target = call'.target
  audits : audit.Alike audit' call.audit call'.audit

/-- **Rules that answer for the value only** come to the same from any two audits. -/
theorem Rulebook.reviewBy_steady {S : Schema} {typeName : String} {r : Record}
    {rules : List (Rule σ)} (h : ∀ rule ∈ rules, rule.Steady) (audit audit' : Audit σ) :
    let review := reviewBy S typeName r rules audit
    let review' := reviewBy S typeName r rules audit'
    review.1 = review'.1 ∧ audit.Alike audit' review.2 review'.2 := by
  induction rules generalizing audit audit' with
  | nil => exact ⟨rfl, [], by simp [reviewBy]⟩
  | cons rule rules ih =>
    obtain ⟨hrule, hrules⟩ := List.forall_mem_cons.mp h
    let v := r.shown S rule.field
    rw [reviewBy, reviewBy, Rule.check, Rule.check]
    rcases hfirst : rule.test v audit.state with ⟨answer, s⟩
    rcases hfirst' : rule.test v audit'.state with ⟨answer', s'⟩
    obtain rfl : answer = answer' := by
      simpa [hfirst, hfirst'] using hrule v audit.state audit'.state
    cases answer with
    | false => exact ⟨rfl, [(rule, v)], rfl, rfl⟩
    | true =>
      obtain ⟨hsame, ran, hran, hran'⟩ :=
        ih hrules ⟨s, audit.log ++ [(rule, v)]⟩ ⟨s', audit'.log ++ [(rule, v)]⟩
      exact ⟨hsame, (rule, v) :: ran, by simpa using hran, by simpa using hran'⟩

namespace Converter

/-- How a list of calls ends, given what each call by itself comes to. The last is the part of the
list that was reached. -/
inductive ListCall.Ends (alone : Record → Call σ) (srcs : List Record) :
    Except ConvertError (List Record) → List Record → Prop
  | done (made : List Record)
    (h : List.Forall₂ (fun src r => (alone src).result = .ok () ∧ (alone src).target = some r)
      srcs made) :
    Ends alone srcs (.ok made) srcs
  | failed (passed : List Record) (src : Record) (rest : List Record) (e : ConvertError)
    (hsrcs : srcs = passed ++ src :: rest)
    (hpassed : ∀ earlier ∈ passed, (alone earlier).result = .ok ())
    (hsrc : (alone src).result = .error e) :
    Ends alone srcs (.error (.element passed.length e)) (passed ++ [src])

namespace ListCall.Ends

variable {alone : Record → Call σ} {srcs reached : List Record}
  {result : Except ConvertError (List Record)}

/-- A list is converted if and only if each of its elements would be. -/
theorem exists_ok_iff (h : ListCall.Ends alone srcs result reached) :
    (∃ made, result = .ok made) ↔ ∀ src ∈ srcs, (alone src).result = .ok () := by
  cases h with
  | done made hmade =>
    refine ⟨fun _ src hsrc => ?_, fun _ => ⟨made, rfl⟩⟩
    obtain ⟨index, hindex, rfl⟩ := List.getElem_of_mem hsrc
    exact (hmade.get hindex (hmade.length_eq ▸ hindex)).1
  | failed passed src rest e hsrcs _ hsrc =>
    constructor
    · rintro ⟨made, ⟨⟩⟩
    · intro hall
      have hfine := hall src (hsrcs ▸ List.mem_append_right _ List.mem_cons_self)
      rw [hsrc] at hfine
      cases hfine

/-- The error of a list is the one of an element, and names the same field. -/
theorem exists_cause (h : ListCall.Ends alone srcs result reached) {e : ConvertError}
    (he : result = .error e) :
    ∃ index cause, e = .element index cause ∧ e.field? = cause.field? := by
  cases h with
  | done => cases he
  | failed passed src rest cause =>
    cases he
    exact ⟨passed.length, cause, rfl, rfl⟩

end ListCall.Ends

/-- Every element of a list would be converted, or there is a first that would not. -/
theorem all_ok_or_exists_error (alone : Record → Call σ) (srcs : List Record) :
    (∀ src ∈ srcs, (alone src).result = .ok ()) ∨
      ∃ passed src rest e, srcs = passed ++ src :: rest ∧
        (∀ earlier ∈ passed, (alone earlier).result = .ok ()) ∧ (alone src).result = .error e := by
  induction srcs with
  | nil => exact .inl (List.forall_mem_nil _)
  | cons src srcs ih =>
    cases hsrc : (alone src).result with
    | error e => exact .inr ⟨[], src, srcs, e, rfl, List.forall_mem_nil _, hsrc⟩
    | ok =>
      rcases ih with hall | ⟨passed, failing, rest, e, rfl, hpassed, hfailing⟩
      · exact .inl (List.forall_mem_cons.mpr ⟨hsrc, hall⟩)
      · exact .inr ⟨src :: passed, failing, rest, e, rfl, List.forall_mem_cons.mpr ⟨hsrc, hpassed⟩,
          hfailing⟩

variable (S : Schema) (c : Converter σ) (direction : Direction) (options : CallOptions)

/-- The converter with a store that has this history. -/
def withHistory (history : List Store.Request) : Converter σ :=
  { c with store := .after S history }

/-- What comes of converting a record into a fresh one, without a history. -/
def alone (audit : Audit σ) (src : Record) : Call σ :=
  let fresh := Record.initial S (c.key direction).target
  let copied := c.tier.outcome S (.between src.type fresh.type direction) src fresh
  c.complete S direction options audit copied.result copied.target

/-- The audit after converting records one after another. -/
def auditAfter (audit : Audit σ) (srcs : List Record) : Audit σ :=
  srcs.foldl (fun audit src => (c.alone S direction options audit src).audit) audit

/-- What converting a record into a fresh one asks of the store. -/
def requestFor (src : Record) : Store.Request :=
  .convert c.tier (some src) (some (.initial S (c.key direction).target)) direction

/-- Converting records into fresh ones, counted from a given index, after a history. -/
def eachAfter (history : List Store.Request) (index : Nat) (srcs : List Record) (audit : Audit σ) :
    ListCall σ × Converter σ :=
  callEach S (c.key direction).target direction options index srcs audit (c.withHistory S history)

variable {S c direction options}

theorem eq_withHistory {history : List Store.Request} (h : c.store = .after S history) :
    c = c.withHistory S history := by
  rw [withHistory, ← h]

/-! ### One element -/

/-- **A call comes out as if there was no history**, and adds itself to it. -/
theorem call_withHistory (history : List Store.Request) (src : Record) (audit : Audit σ) :
    (c.withHistory S history).call S (some src) (some (.initial S (c.key direction).target))
        direction options audit =
      (c.alone S direction options audit src,
        c.withHistory S (history ++ [c.requestFor S direction src])) := by
  let fresh := Record.initial S (c.key direction).target
  obtain ⟨copy, hcopy, hcall⟩ :=
    call_eq_complete S (c.withHistory S history) src fresh direction options audit
  have hcopied : ((c.withHistory S history).tier.convert S (some src) (some fresh) direction
      (c.withHistory S history).store).1 = _ :=
    Tier.convert_after S c.tier src fresh direction history
  have hkept :
      ((c.withHistory S history).call S (some src) (some fresh) direction options audit).2 =
        { c with store := (Store.after S history).serve S (c.requestFor S direction src) } := rfl
  rw [hcopied] at hcopy hcall
  refine Prod.ext ?_ ?_
  · rw [hcall, ← Option.some.inj hcopy]
    rfl
  · rw [hkept, withHistory, Store.after_concat]

variable (S c direction options) in
theorem exists_target_complete (audit : Audit σ) (copied : Except ConvertError Unit)
    (copy : Record) :
    ∃ left, (c.complete S direction options audit copied copy).target = some left := by
  obtain ⟨redacted, left, -, hends⟩ := ends_complete S c direction options audit copied copy
  generalize c.complete S direction options audit copied copy = call at hends ⊢
  cases hends <;> exact ⟨left, rfl⟩

variable (S c direction options) in
/-- There is a record to show for every conversion. -/
theorem exists_target_alone (audit : Audit σ) (src : Record) :
    ∃ left, (c.alone S direction options audit src).target = some left :=
  exists_target_complete ..

/-! ### Two audits -/

theorem alike_check (h : c.rules.Steady) (r : Record) (audit audit' : Audit σ) :
    Call.Alike audit audit' (c.check S r audit) (c.check S r audit') := by
  have hsteady : ∀ rule ∈ c.rules.rulesFor (S.nameOf r.type), rule.Steady :=
    fun _ hrule => h.of_mem_rulesFor hrule
  obtain ⟨hsame, haudits⟩ := Rulebook.reviewBy_steady hsteady audit audit'
  rw [check, check, Rulebook.review, Rulebook.review]
  generalize Rulebook.reviewBy S (S.nameOf r.type) r _ audit = review at hsame haudits ⊢
  generalize Rulebook.reviewBy S (S.nameOf r.type) r _ audit' = review' at hsame haudits ⊢
  obtain ⟨failure?, left⟩ := review
  obtain ⟨_, left'⟩ := review'
  obtain rfl := hsame
  cases failure? with
  | none => exact ⟨rfl, rfl, haudits⟩
  | some failure => exact ⟨rfl, rfl, haudits⟩

/-- **A call with steady rules** comes to the same from any two audits. -/
theorem alike_alone (h : c.rules.Steady) (audit audit' : Audit σ) (src : Record) :
    Call.Alike audit audit' (c.alone S direction options audit src)
      (c.alone S direction options audit' src) := by
  rw [alone, alone, complete, complete]
  dsimp only
  generalize (if c.settings.redactsUnder options then _ else _ : Except AccessError Nat × Record) =
    redaction
  obtain ⟨redacted, left⟩ := redaction
  split
  · exact ⟨rfl, rfl, .refl ..⟩
  · exact ⟨rfl, rfl, .refl ..⟩
  · split
    · exact alike_check h left audit audit'
    · exact ⟨rfl, rfl, .refl ..⟩

/-- What is run for records one after another is what is run for each of them. -/
theorem log_auditAfter (h : c.rules.Steady) (s : σ) (audit : Audit σ) (srcs : List Record) :
    (c.auditAfter S direction options audit srcs).log =
      audit.log ++ srcs.flatMap fun src => (c.alone S direction options ⟨s, []⟩ src).audit.log := by
  induction srcs generalizing audit with
  | nil => simp [auditAfter]
  | cons src srcs ih =>
    have hsrc : Call.Alike ⟨s, []⟩ audit (c.alone S direction options ⟨s, []⟩ src) _ :=
      alike_alone h ..
    rw [auditAfter, List.foldl_cons, ← auditAfter, ih, hsrc.audits.log_eq, List.flatMap_cons,
      List.append_assoc]

/-! ### One element after the other -/

/-- The result for a list behind other records that were converted. -/
def ListCall.behind (others : ListCall σ) (made : List Record) : ListCall σ :=
  { others with result := others.result.map (made ++ ·) }

@[simp] theorem ListCall.behind_nil (others : ListCall σ) : others.behind [] = others := by
  obtain ⟨result, audit⟩ := others
  cases result <;> rfl

@[simp] theorem ListCall.behind_behind (others : ListCall σ) (made made' : List Record) :
    (others.behind made').behind made = others.behind (made ++ made') := by
  obtain ⟨result, audit⟩ := others
  cases result <;> simp [behind, Except.map]

variable {src : Record} (history : List Store.Request) (index : Nat) (rest : List Record)
  (audit : Audit σ)

/-- An element that is not converted ends the list. -/
theorem eachAfter_cons_of_error {e : ConvertError}
    (h : (c.alone S direction options audit src).result = .error e) :
    c.eachAfter S direction options history index (src :: rest) audit =
      (⟨.error (.element index e), (c.alone S direction options audit src).audit⟩,
        c.withHistory S (history ++ [c.requestFor S direction src])) := by
  rw [eachAfter, callEach, call_withHistory]
  dsimp only
  rw [h]

/-- Behind an element that is converted come the others. -/
theorem eachAfter_cons_of_ok (h : (c.alone S direction options audit src).result = .ok ()) :
    c.eachAfter S direction options history index (src :: rest) audit =
      let call := c.alone S direction options audit src
      let others := c.eachAfter S direction options (history ++ [c.requestFor S direction src])
        (index + 1) rest call.audit
      (others.1.behind call.target.toList, others.2) := by
  rw [eachAfter, callEach, call_withHistory]
  dsimp only
  rw [h]
  rfl

/-- **Elements that can be converted are converted, and then the others.** That they can be
converted is said for one audit, and then holds for all. -/
theorem eachAfter_append (hsteady : c.rules.Steady) (first : Audit σ) {passed : List Record}
    (h : ∀ src ∈ passed, (c.alone S direction options first src).result = .ok ()) :
    c.eachAfter S direction options history index (passed ++ rest) audit =
      let others := c.eachAfter S direction options
        (history ++ passed.map (c.requestFor S direction)) (index + passed.length) rest
        (c.auditAfter S direction options audit passed)
      (others.1.behind
        (passed.flatMap fun src => (c.alone S direction options first src).target.toList),
        others.2) := by
  induction passed generalizing history index audit with
  | nil => simp [auditAfter]
  | cons src passed ih =>
    obtain ⟨hsrc, hpassed⟩ := List.forall_mem_cons.mp h
    have hsame : Call.Alike first audit (c.alone S direction options first src) _ :=
      alike_alone hsteady first audit src
    have hindex : index + 1 + passed.length = index + (src :: passed).length := by
      rw [List.length_cons]
      omega
    rw [List.cons_append, eachAfter_cons_of_ok _ _ _ _ (hsame.result.symm.trans hsrc)]
    dsimp only
    rw [ih _ _ _ hpassed, hindex, ← hsame.target]
    simp [auditAfter]

/-- The records that are made of a list whose elements are all converted. -/
theorem forall₂_made {srcs : List Record}
    (h : ∀ src ∈ srcs, (c.alone S direction options audit src).result = .ok ()) :
    List.Forall₂ (fun src r => (c.alone S direction options audit src).result = .ok () ∧
        (c.alone S direction options audit src).target = some r) srcs
      (srcs.flatMap fun src => (c.alone S direction options audit src).target.toList) := by
  induction srcs with
  | nil => exact .nil
  | cons src srcs ih =>
    obtain ⟨hsrc, hsrcs⟩ := List.forall_mem_cons.mp h
    obtain ⟨left, hleft⟩ := exists_target_alone S c direction options audit src
    rw [List.flatMap_cons, hleft]
    exact .cons ⟨hsrc, hleft⟩ (ih hsrcs)

variable (S c direction options)

/-- What comes of a list, and how far in it the conversion gets. -/
theorem ends_eachAfter (hsteady : c.rules.Steady) (first : Audit σ) (srcs : List Record) :
    ∃ reached, ListCall.Ends (c.alone S direction options first) srcs
        (c.eachAfter S direction options history 0 srcs audit).1.result reached ∧
      (c.eachAfter S direction options history 0 srcs audit).1.audit =
        c.auditAfter S direction options audit reached ∧
      c.eachAfter S direction options history 0 srcs audit =
        c.eachAfter S direction options history 0 reached audit ∧
      (c.eachAfter S direction options history 0 srcs audit).2 =
        c.withHistory S (history ++ reached.map (c.requestFor S direction)) := by
  rcases all_ok_or_exists_error (c.alone S direction options first) srcs with
    hall | ⟨passed, src, rest, e, rfl, hpassed, hsrc⟩
  · have hlist := eachAfter_append history 0 [] audit hsteady first hall
    rw [List.append_nil] at hlist
    rw [hlist]
    refine ⟨srcs, ?_, rfl, hlist.symm, rfl⟩
    simp only [eachAfter, callEach, ListCall.behind, Except.map, List.append_nil]
    exact .done _ (forall₂_made first hall)
  · -- What comes of the list does not mention the elements behind the one that fails.
    have hfails : (c.alone S direction options
        (c.auditAfter S direction options audit passed) src).result = .error e :=
      (alike_alone hsteady first _ src).result.symm.trans hsrc
    have hlist := fun rest => eachAfter_append history 0 (src :: rest) audit hsteady first hpassed
    simp only [eachAfter_cons_of_error _ _ _ _ hfails, ListCall.behind, Except.map, Nat.zero_add]
      at hlist
    rw [hlist]
    refine ⟨passed ++ [src], .failed passed src rest e rfl hpassed hsrc, ?_, (hlist []).symm, ?_⟩
    · simp [auditAfter]
    · simp

/-- **A list is converted element by element, up to the first that fails**, by a converter after any
history, with rules that answer for the value only. What comes of a record by itself is the same
after every history and from every audit, and so is what is run for it. The list is converted if and
only if every element is. If it is not, the error is the one of the first element that fails, at its
index, and it names the same field. `ListCall.Ends` says what there is to the result. What is run
for the list is what is run for the elements that are reached, and what comes of the list, of the
state of the tests and of the store is what comes of these alone. -/
theorem callList_elementwise (hsteady : c.rules.Steady) (history : List Store.Request)
    (hstore : c.store = .after S history) (srcs : List Record) (audit : Audit σ) :
    let fresh := Record.initial S (c.key direction).target
    let alone := fun src =>
      (c.call S (some src) (some fresh) direction options ⟨audit.state, []⟩).1
    let list := c.callList S srcs direction options audit
    (∀ src history' audit',
        let call := ((c.withHistory S history').call S (some src) (some fresh) direction options
          audit').1
        call.result = (alone src).result ∧ call.target = (alone src).target ∧
          call.audit.log = audit'.log ++ (alone src).audit.log) ∧
      ((∃ made, list.1.result = .ok made) ↔ ∀ src ∈ srcs, (alone src).result = .ok ()) ∧
      (∀ e, list.1.result = .error e →
        ∃ index cause, e = .element index cause ∧ e.field? = cause.field?) ∧
      ∃ reached, ListCall.Ends alone srcs list.1.result reached ∧
        list.1.audit.log = audit.log ++ reached.flatMap (fun src => (alone src).audit.log) ∧
        list = c.callList S reached direction options audit ∧
        list.2 = c.withHistory S (history ++
          reached.map fun src => .convert c.tier (some src) (some fresh) direction) := by
  intro fresh alone list
  have hcall : ∀ src history' audit',
      ((c.withHistory S history').call S (some src) (some fresh) direction options audit').1 =
        c.alone S direction options audit' src :=
    fun src history' audit' => congrArg Prod.fst (call_withHistory history' src audit')
  have halone : alone = c.alone S direction options ⟨audit.state, []⟩ := by
    funext src
    change (c.call S (some src) (some fresh) direction options ⟨audit.state, []⟩).1 = _
    rw [eq_withHistory hstore, hcall]
    rfl
  have hlist : ∀ srcs, c.callList S srcs direction options audit =
      c.eachAfter S direction options history 0 srcs audit := by
    intro srcs
    rw [callList, eachAfter, ← eq_withHistory hstore]
  obtain ⟨reached, hends, haudit, hreached, hstore'⟩ :=
    ends_eachAfter S c direction options history audit hsteady ⟨audit.state, []⟩ srcs
  rw [← hlist] at hends haudit hstore'
  rw [← hlist, ← hlist] at hreached
  rw [halone]
  refine ⟨fun src history' audit' => ?_, hends.exists_ok_iff, fun e he => hends.exists_cause he,
    reached, hends, ?_, hreached, hstore'⟩
  · have hsame : Call.Alike _ _ (c.alone S direction options ⟨audit.state, []⟩ src)
        (c.alone S direction options audit' src) := alike_alone hsteady ..
    intro call
    rw [show call = _ from hcall src history' audit']
    exact ⟨hsame.result.symm, hsame.target.symm, hsame.audits.log_eq⟩
  · exact (congrArg Audit.log haudit).trans (log_auditAfter hsteady ..)

/-- Two parcels, with an odd one in between. It cannot be converted, neither by itself nor in the
list, and then the last one is not looked at. What is run is what is run for the first two. -/
theorem callList_elementwise_parcels :
    let c := (new ⟨0⟩ ⟨2⟩ ⟨.ultraFast, true, .both⟩).register "Parcel"
      [Accounts.counted "codes" .present]
    let parcels := [Parcels.parcel, Parcels.oddParcel, Parcels.parcel]
    let fresh := Record.initial Parcels.schema (c.key .toModel).target
    let alone := fun src =>
      (c.call Parcels.schema (some src) (some fresh) .toModel .none ⟨0, []⟩).1
    let list := c.callList Parcels.schema parcels .toModel .none ⟨0, []⟩
    c.rules.Steady ∧ c.store = .after Parcels.schema [] ∧
      ∃ e, (alone Parcels.oddParcel).result = .error e ∧
        list.1.result = .error (.element 1 e) ∧
        list.1.audit.log =
          (alone Parcels.parcel).audit.log ++ (alone Parcels.oddParcel).audit.log ∧
        list = c.callList Parcels.schema [Parcels.parcel, Parcels.oddParcel] .toModel .none
          ⟨0, []⟩ := by
  intro c parcels fresh alone
  have hsteady : c.rules.Steady := by
    intro entry hentry
    obtain rfl := List.mem_singleton.mp hentry
    exact fun _ _ _ => rfl
  have hstore : c.store = .after Parcels.schema [] := rfl
  have hparcel : (alone Parcels.parcel).result = .ok () := by decide +kernel
  have hodd : (alone Parcels.oddParcel).result ≠ .ok () := by decide +kernel
  obtain ⟨-, hok, -, reached, hends, hlog, hreached, -⟩ :=
    callList_elementwise Parcels.schema c .toModel .none hsteady [] hstore parcels ⟨0, []⟩
  -- The first parcel is converted, and the second one is not, so the list ends there.
  dsimp only at hok hends hlog hreached
  change ListCall.Ends alone parcels
    (c.callList Parcels.schema parcels .toModel .none ⟨0, []⟩).1.result reached at hends
  change _ = [] ++ reached.flatMap (fun src => (alone src).audit.log) at hlog
  change _ ↔ ∀ src ∈ parcels, (alone src).result = .ok () at hok
  generalize c.callList Parcels.schema parcels .toModel .none ⟨0, []⟩ = list
    at hok hends hlog hreached ⊢
  obtain ⟨⟨result, audit⟩, c'⟩ := list
  refine ⟨hsteady, hstore, ?_⟩
  clear_value alone
  cases hends with
  | done made =>
    have hall := hok.mp ⟨made, rfl⟩
    exact absurd (hall Parcels.oddParcel (by simp [parcels])) hodd
  | failed passed src rest e hsrcs hpassed hsrc =>
    rcases passed with _ | ⟨first, _ | ⟨second, passed⟩⟩
    · obtain ⟨rfl, -⟩ := List.cons.inj hsrcs
      rw [hparcel] at hsrc
      cases hsrc
    · obtain ⟨rfl, hsecond⟩ := List.cons.inj hsrcs
      obtain ⟨rfl, -⟩ := List.cons.inj hsecond
      exact ⟨e, hsrc, rfl, by simpa using hlog, hreached⟩
    · obtain ⟨-, hsecond⟩ := List.cons.inj hsrcs
      obtain ⟨rfl, -⟩ := List.cons.inj hsecond
      exact absurd (hpassed Parcels.oddParcel (by simp)) hodd

end Converter

end Crosswalk
