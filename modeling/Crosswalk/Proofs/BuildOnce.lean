import Crosswalk.Proofs.BuildMoments
import Crosswalk.Proofs.Requests
import Mathlib.Data.Finset.Card

/-!
# Every key is built once

Requests for the entries of a memo nest. A build may make requests, whose builds make requests, and
so on, as long as none asks for a key whose build is under way (`Memo.NeverReenters`). At every
moment of such a run, in the middle of builds as well, the memo is determined by what has been asked
for and by which builds are under way (`Memo.Moment.Orderly`). For each key that has been asked for
there is one entry. It is in the making while the build is under way, and after that it is what the
build of the *first* request for the key came to, value or failure.

`Memo.runAll_builds_once` puts this together. The step lemma is `Memo.Moment.Orderly.step`. That a
build is never begun under another one for the same key is used twice. It says that a key without a
result has not been asked for, and so may be built, and that the end of a build is the end of the
only one for its key.
-/

namespace Crosswalk

/-- The state of a key whose build came to the result. -/
def MemoState.of {α : Type} : Except ConvertError α → MemoState
  | .ok _ => .ready
  | .error _ => .failed

namespace Memo

variable {α : Type}

/-! ### The place of a key -/

theorem slot?_start (m : Memo α) (key other : PlanKey) :
    (m.start key).slot? other =
      if other = key then (m.slot? key).or (some .building) else m.slot? other := by
  rw [start, slot?]
  cases hslot : m.slot? key with
  | some slot =>
    rw [Option.isSome_some, if_pos rfl, Option.some_or, ← hslot]
    split_ifs with h
    · rw [h, slot?]
    · rfl
  | none =>
    rw [Option.isSome_none, if_neg Bool.false_ne_true, List.lookup_append, ← slot?]
    split_ifs with h
    · rw [h, hslot, Option.none_or, List.lookup_cons_self, Option.none_or]
    · rw [List.lookup_cons, beq_false_of_ne h]
      exact Option.or_none

theorem slot?_finish (m : Memo α) (key : PlanKey) (result : Except ConvertError α)
    (other : PlanKey) :
    (m.finish key result).slot? other =
      if other = key then (m.slot? other).map fun _ => .done result else m.slot? other := by
  rw [slot?, slot?, finish]
  induction m.slots with
  | nil => simp
  | cons entry rest ih =>
    obtain ⟨k, slot⟩ := entry
    rw [List.map_cons, List.lookup_cons, List.lookup_cons, ih]
    by_cases hk : other = k
    · subst hk
      by_cases hother : other = key <;> simp [hother]
    · rw [beq_false_of_ne hk]

theorem keys_start_of_none {m : Memo α} {key : PlanKey} (h : m.slot? key = none) :
    (m.start key).keys = m.keys ++ [key] := by
  simp [keys, start, h]

theorem keys_finish (m : Memo α) (key : PlanKey) (result : Except ConvertError α) :
    (m.finish key result).keys = m.keys := by
  simp [keys, finish, Function.comp_def]

/-! ### The first request for a key -/

/-- The first of the requests that asks for the key. -/
def Request.firstFor (key : PlanKey) (requests : List (Request α)) : Option (Request α) :=
  requests.find? (·.key = key)

theorem Request.firstFor_concat (key : PlanKey) (requests : List (Request α)) (r : Request α) :
    firstFor key (requests ++ [r]) =
      (firstFor key requests).or (if r.key = key then some r else none) := by
  rw [firstFor, List.find?_append, ← firstFor]
  by_cases h : r.key = key <;> simp [h]

theorem Request.firstFor_eq_none_iff {key : PlanKey} {requests : List (Request α)} :
    firstFor key requests = none ↔ key ∉ requests.map Request.key := by
  simp [firstFor, List.find?_eq_none]

namespace Moment

/-- The memo of a moment is what has been asked for, and the builds under way are those of the first
requests for their keys. -/
structure Orderly (p : Moment α) : Prop where
  keys_eq : p.memo.keys = p.built.map Request.key
  builds_eq : p.memo.builds = p.memo.entries
  built_eq : p.built.map Request.key = (p.asked.map Request.key).eraseDups
  slot?_eq : ∀ key, p.memo.slot? key =
    if key ∈ p.underway.map Frame.key then some .building
    else (Request.firstFor key p.asked).map (.done ·.result)
  firstFor_eq : ∀ r ∈ p.built, Request.firstFor r.key p.asked = some r
  underway_subset : ∀ frame ∈ p.underway, frame.request ∈ p.built
  underway_nodup : (p.underway.map Frame.key).Nodup

theorem orderly_first (requests : List (Request α)) : (first requests).Orderly where
  keys_eq := rfl
  builds_eq := rfl
  built_eq := rfl
  slot?_eq _ := rfl
  firstFor_eq _ h := absurd h List.not_mem_nil
  underway_subset _ h := absurd h List.not_mem_nil
  underway_nodup := List.nodup_nil

variable {p q : Moment α}

namespace Orderly

theorem result?_eq (h : p.Orderly) (key : PlanKey) : p.memo.result? key =
    if key ∈ p.underway.map Frame.key then none
    else (Request.firstFor key p.asked).map Request.result := by
  rw [Memo.result?, h.slot?_eq]
  split_ifs with hkey
  · rfl
  · cases Request.firstFor key p.asked <;> rfl

/-- A key that has no result and no build under way has not been asked for. -/
theorem not_asked (h : p.Orderly) {key : PlanKey} (hresult : p.memo.result? key = none)
    (hkey : key ∉ p.underway.map Frame.key) : key ∉ p.asked.map Request.key := by
  rw [h.result?_eq, if_neg hkey, Option.map_eq_none_iff] at hresult
  exact Request.firstFor_eq_none_iff.mp hresult

theorem mem_keys_iff (h : p.Orderly) {key : PlanKey} :
    key ∈ p.memo.keys ↔ key ∈ p.asked.map Request.key := by
  rw [h.keys_eq, h.built_eq, List.mem_eraseDups]

theorem slot?_of_not_asked (h : p.Orderly) {key : PlanKey}
    (hkey : key ∉ p.asked.map Request.key) : p.memo.slot? key = none :=
  slot?_of_not_mem (mt h.mem_keys_iff.mp hkey)

/-- There is one entry for each of the keys that have been asked for. -/
theorem entries_eq (h : p.Orderly) :
    p.memo.entries = (p.asked.map Request.key).toFinset.card := by
  have hnodup : p.memo.keys.Nodup := by
    rw [h.keys_eq, h.built_eq]
    exact nodup_eraseDups _
  have hfinset : p.memo.keys.toFinset = (p.asked.map Request.key).toFinset := by
    ext key
    rw [List.mem_toFinset, List.mem_toFinset, h.mem_keys_iff]
  rw [← hfinset, List.toFinset_card_of_nodup hnodup, keys, List.length_map, entries]

/-! ### One step -/

/-- A request that is answered with what is kept was not the first one for its key. -/
theorem answer (h : p.Orderly) {r : Request α} {rest : List (Request α)}
    {kept : Except ConvertError α} (hkept : p.memo.result? r.key = some kept) :
    (p.answer r rest kept).Orderly := by
  obtain ⟨old, hold⟩ : ∃ old, Request.firstFor r.key p.asked = some old := by
    rw [h.result?_eq] at hkept
    split_ifs at hkept with hkey
    exact (Option.map_eq_some_iff.mp hkept).imp fun _ h => h.1
  have hsame (key : PlanKey) :
      Request.firstFor key (p.asked ++ [r]) = Request.firstFor key p.asked := by
    rw [Request.firstFor_concat]
    split_ifs with hkey
    · rw [← hkey, hold, Option.some_or]
    · exact Option.or_none
  have hasked : r.key ∈ p.asked.map Request.key := by
    by_contra hnot
    rw [Request.firstFor_eq_none_iff.mpr hnot] at hold
    cases hold
  constructor
  case keys_eq => exact h.keys_eq
  case builds_eq => exact h.builds_eq
  case built_eq =>
    rw [Moment.answer, h.built_eq, List.map_append, List.map_singleton, eraseDups_concat,
      if_pos hasked, List.append_nil]
  case slot?_eq =>
    intro key
    rw [Moment.answer, hsame]
    exact h.slot?_eq key
  case firstFor_eq =>
    intro r' hr'
    rw [Moment.answer, hsame]
    exact h.firstFor_eq r' hr'
  case underway_subset => exact h.underway_subset
  case underway_nodup => exact h.underway_nodup

/-- A build begins for the first request for a key. -/
theorem enter (h : p.Orderly) {r : Request α} {rest : List (Request α)}
    (hresult : p.memo.result? r.key = none) (hkey : r.key ∉ p.underway.map Frame.key) :
    (p.enter r rest).Orderly := by
  have hasked := h.not_asked hresult hkey
  have hfirst : Request.firstFor r.key p.asked = none := Request.firstFor_eq_none_iff.mpr hasked
  have hslot : p.memo.slot? r.key = none := h.slot?_of_not_asked hasked
  have hother {key : PlanKey} (hne : key ≠ r.key) :
      Request.firstFor key (p.asked ++ [r]) = Request.firstFor key p.asked := by
    rw [Request.firstFor_concat, if_neg hne.symm, Option.or_none]
  constructor
  case keys_eq =>
    rw [Moment.enter, keys_start_of_none hslot, h.keys_eq, List.map_append, List.map_singleton]
  case builds_eq =>
    have hbuilds := h.builds_eq
    simp only [Moment.enter, Memo.start, Memo.entries, hslot, Option.isSome_none] at hbuilds ⊢
    simp [hbuilds]
  case built_eq =>
    rw [Moment.enter, List.map_append, List.map_append, List.map_singleton, h.built_eq,
      eraseDups_concat, if_neg hasked]
  case slot?_eq =>
    intro key
    have hkeys : (p.enter r rest).underway.map Frame.key = r.key :: p.underway.map Frame.key := rfl
    rw [hkeys, Moment.enter, slot?_start, hslot, h.slot?_eq]
    by_cases hk : key = r.key
    · rw [if_pos hk, if_pos (hk ▸ List.mem_cons_self), Option.none_or]
    · simp only [if_neg hk, List.mem_cons, or_iff_right hk, hother hk]
  case firstFor_eq =>
    intro r' hr'
    rw [Moment.enter] at hr' ⊢
    rcases List.mem_append.mp hr' with hr' | hr'
    · rw [Request.firstFor_concat, h.firstFor_eq r' hr', Option.some_or]
    · obtain rfl := List.mem_singleton.mp hr'
      rw [Request.firstFor_concat, hfirst, if_pos rfl, Option.none_or]
  case underway_subset =>
    intro frame hframe
    rw [Moment.enter] at hframe ⊢
    rcases List.mem_cons.mp hframe with rfl | hframe
    · exact List.mem_append_right _ (List.mem_singleton_self r)
    · exact List.mem_append_left _ (h.underway_subset frame hframe)
  case underway_nodup => exact List.nodup_cons.mpr ⟨hkey, h.underway_nodup⟩

/-- The innermost build ends, and what it came to is what the first request for its key said. -/
theorem leave (h : p.Orderly) {frame : Frame α} {outer : List (Frame α)}
    (hunderway : p.underway = frame :: outer) : (p.leave frame outer).Orderly := by
  have hnodup := h.underway_nodup
  rw [hunderway, List.map_cons, List.nodup_cons] at hnodup
  have hmem : frame ∈ p.underway := hunderway ▸ List.mem_cons_self
  have hfirst := h.firstFor_eq _ (h.underway_subset frame hmem)
  constructor
  case keys_eq =>
    rw [Moment.leave, keys_finish]
    exact h.keys_eq
  case builds_eq =>
    have hbuilds := h.builds_eq
    simpa [Moment.leave, Memo.finish, Memo.entries] using hbuilds
  case built_eq => exact h.built_eq
  case slot?_eq =>
    intro key
    rw [Moment.leave, slot?_finish, h.slot?_eq, hunderway, List.map_cons]
    by_cases hk : key = frame.key
    · rw [if_pos hk, hk, if_pos List.mem_cons_self, if_neg hnodup.1]
      simp [Frame.key, hfirst]
    · simp [hk]
  case firstFor_eq => exact h.firstFor_eq
  case underway_subset =>
    exact fun f hf => h.underway_subset f (hunderway ▸ List.mem_cons_of_mem _ hf)
  case underway_nodup => exact hnodup.2

/-- **What one step keeps.** The next request must not be for a key whose build is under way. -/
theorem step (h : p.Orderly) (hstep : p.step = some q)
    (hclear : ∀ r rest, p.pending = r :: rest → r.key ∉ p.underway.map Frame.key) : q.Orderly := by
  rcases step_cases hstep with ⟨r, rest, kept, -, hkept, rfl⟩ | ⟨r, rest, hpending, hkept, rfl⟩ |
    ⟨frame, outer, -, hunderway, rfl⟩
  · exact h.answer hkept
  · exact h.enter hkept (hclear r rest hpending)
  · exact h.leave hunderway

/-- What has come of a build stays as it is. -/
theorem result?_step (h : p.Orderly) (hstep : p.step = some q) {key : PlanKey}
    {result : Except ConvertError α} (hresult : p.memo.result? key = some result) :
    q.memo.result? key = some result := by
  rcases step_cases hstep with ⟨r, rest, kept, -, -, rfl⟩ | ⟨r, rest, -, hkept, rfl⟩ |
    ⟨frame, outer, -, hunderway, rfl⟩
  · exact hresult
  · have hne : key ≠ r.key := by
      rintro rfl
      rw [hkept] at hresult
      cases hresult
    rw [Memo.result?, Moment.enter, slot?_start, if_neg hne]
    exact hresult
  · have hne : key ≠ frame.key := by
      rintro rfl
      rw [h.result?_eq, if_pos (by simp [hunderway])] at hresult
      cases hresult
    rw [Memo.result?, Moment.leave, slot?_finish, if_neg hne]
    exact hresult

end Orderly

/-- Entries are added at the end, and none is taken away. -/
theorem keys_step (hstep : p.step = some q) : p.memo.keys <+: q.memo.keys := by
  rcases step_cases hstep with ⟨r, rest, kept, -, -, rfl⟩ | ⟨r, rest, -, -, rfl⟩ |
    ⟨frame, outer, -, -, rfl⟩
  · exact List.prefix_rfl
  · rw [enter, keys, keys, start]
    split_ifs
    · exact List.prefix_rfl
    · rw [List.map_append]
      exact List.prefix_append ..
  · rw [leave, keys_finish]

theorem keys_prefix (h : p.Reaches q) : p.memo.keys <+: q.memo.keys :=
  h.invariant (P := fun q => p.memo.keys <+: q.memo.keys) List.prefix_rfl
    fun _ _ _ hkept hstep => hkept.trans (keys_step hstep)

end Moment

/-! ### Runs -/

/-- No request of the run is for a key whose build is under way when the request is made. -/
def NeverReenters (requests : List (Request α)) : Prop :=
  ∀ p r rest, (Moment.first requests).Reaches p → p.pending = r :: rest →
    r.key ∉ p.underway.map Frame.key

namespace NeverReenters

variable {requests : List (Request α)} {p q : Moment α}

/-- Every moment is orderly. -/
theorem orderly (h : NeverReenters requests) (hp : (Moment.first requests).Reaches p) :
    p.Orderly :=
  hp.invariant (Moment.orderly_first requests) fun p' _ hreached hp' hstep =>
    hp'.step hstep fun r rest => h p' r rest hreached

/-- What has come of a build stays as it is for the rest of the run. -/
theorem result?_of_reaches (h : NeverReenters requests) (hp : (Moment.first requests).Reaches p)
    (hq : p.Reaches q) {key : PlanKey} {result : Except ConvertError α}
    (hresult : p.memo.result? key = some result) : q.memo.result? key = some result :=
  hq.invariant hresult fun _ _ hreached hkept hstep =>
    (h.orderly (hp.trans hreached)).result?_step hstep hkept

end NeverReenters

/-- Follows a run for some steps. Whether it is over by then, and no request on the way was for a
key whose build was under way. -/
def Moment.clearFor : Nat → Moment α → Bool
  | 0, _ => false
  | n + 1, p =>
    (p.pending.head?.all fun r => r.key ∉ p.underway.map Frame.key) &&
      match p.step with
      | none => true
      | some q => clearFor n q

theorem Moment.not_mem_of_clearFor {n : Nat} {p q : Moment α} {r : Request α}
    {rest : List (Request α)} (h : clearFor n p = true) (hq : p.Reaches q)
    (hpending : q.pending = r :: rest) : r.key ∉ q.underway.map Frame.key := by
  induction n generalizing p with
  | zero => cases h
  | succ n ih =>
    rw [clearFor, Bool.and_eq_true] at h
    rcases Relation.ReflTransGen.cases_head hq with rfl | ⟨p', hstep, hreached⟩
    · simpa [hpending] using h.1
    · exact ih (by simpa only [hstep] using h.2) hreached

theorem neverReenters_of_clearFor {requests : List (Request α)} (n : Nat)
    (h : (Moment.first requests).clearFor n = true) : NeverReenters requests :=
  fun _ _ _ hp hpending => Moment.not_mem_of_clearFor h hp hpending

theorem state_of_result? {m : Memo α} {key : PlanKey} {result : Except ConvertError α}
    (h : m.result? key = some result) : m.state key = .of result := by
  rw [result?] at h
  rw [state]
  split at h
  next kept hslot =>
    rw [hslot]
    obtain rfl := Option.some.inj h
    cases kept <;> rfl
  next => cases h

/-- **Every key is built once, at the first request for it, and for good.** At every moment of a
run, inside builds too, this holds:

* there are as many entries as builds and as keys that have been asked for, and the builds so far
  are those of the first requests for these keys, in their order;
* a key that has not been asked for is unresolved, and its first request begins a build;
* a key whose build is under way is resolving and has no result;
* a key that has been asked for and whose build is over has the result of its first request from
  then on. Every later request for it is answered with that and changes nothing in the memo;
* entries are only ever added. -/
theorem runAll_builds_once {requests : List (Request α)} (h : NeverReenters requests) :
    (∃ p, (Moment.first requests).Reaches p ∧ p.step = none ∧
      (p.answers, p.memo) = Request.runAll requests empty) ∧
    ∀ p, (Moment.first requests).Reaches p →
      (p.memo.entries = (p.asked.map Request.key).toFinset.card ∧
        p.memo.builds = (p.asked.map Request.key).toFinset.card) ∧
      (p.built.map Request.key = (p.asked.map Request.key).eraseDups ∧
        ∀ r ∈ p.built, Request.firstFor r.key p.asked = some r) ∧
      (∀ key, key ∉ p.asked.map Request.key → p.memo.state key = .unresolved ∧
        ∀ r rest, p.pending = r :: rest → r.key = key → p.step = some (p.enter r rest)) ∧
      (∀ frame ∈ p.underway, frame.request ∈ p.built ∧
        p.memo.state frame.key = .resolving ∧ p.memo.result? frame.key = none) ∧
      (∀ key r, Request.firstFor key p.asked = some r → key ∉ p.underway.map Frame.key →
        ∀ q, p.Reaches q →
          q.memo.result? key = some r.result ∧ q.memo.state key = .of r.result ∧
          ∀ later rest, q.pending = later :: rest → later.key = key →
            q.step = some (q.answer later rest r.result)) ∧
      ∀ q, p.Reaches q → p.memo.keys <+: q.memo.keys := by
  refine ⟨Moment.reaches_runAll requests, fun p hp => ?_⟩
  have hordered := h.orderly hp
  refine ⟨⟨hordered.entries_eq, hordered.builds_eq.trans hordered.entries_eq⟩,
    ⟨hordered.built_eq, hordered.firstFor_eq⟩,
    fun key hkey => ?_, fun frame hframe => ?_, fun key r hr hkey q hq => ?_,
    fun q hq => Moment.keys_prefix hq⟩
  · have hslot := hordered.slot?_of_not_asked hkey
    refine ⟨by rw [state, hslot], fun r rest hpending hr => Moment.step_enter hpending ?_⟩
    rw [hr, result?, hslot]
  · have hkey : frame.key ∈ p.underway.map Frame.key := List.mem_map_of_mem hframe
    refine ⟨hordered.underway_subset frame hframe, ?_, ?_⟩
    · rw [state, hordered.slot?_eq, if_pos hkey]
    · rw [hordered.result?_eq, if_pos hkey]
  · have hresult : q.memo.result? key = some r.result := by
      refine h.result?_of_reaches hp hq ?_
      rw [hordered.result?_eq, if_neg hkey, hr, Option.map_some]
    refine ⟨hresult, state_of_result? hresult, fun later rest hpending hlater => ?_⟩
    exact Moment.step_answer hpending (hlater ▸ hresult)

/-- A build that makes three requests, and a request after it. The second of the three fails after a
request for a key that has been built by then. The third would ask for a key whose build is under
way, but does not come to its build. -/
def nested : List (Request Nat) :=
  let a := PlanKey.between ⟨0⟩ ⟨1⟩ .toModel
  let b := PlanKey.between ⟨2⟩ ⟨3⟩ .toModel
  let c := PlanKey.between ⟨2⟩ ⟨3⟩ .toWire
  let failure := ConvertError.config "no such type"
  [.mk a [.mk b [] (.ok 1), .mk c [.mk b [] (.ok 2)] (.error failure),
    .mk b [.mk a [] (.ok 3)] (.ok 4)] (.ok 5), .mk c [] (.ok 6)]

/-- The requests of `Memo.nested` ask for three keys, and there are three builds. -/
theorem runAll_builds_once_nested :
    NeverReenters nested ∧
      ((Request.runAll nested empty).2.builds = 3 ∧
        (Request.runAll nested empty).2.state (.between ⟨2⟩ ⟨3⟩ .toWire) = .failed) ∧
      ∀ p, (Moment.first nested).Reaches p →
        p.memo.builds = (p.asked.map Request.key).toFinset.card := by
  have hclear : NeverReenters nested := neverReenters_of_clearFor 12 (by decide)
  exact ⟨hclear, ⟨by decide, by decide⟩, fun p hp => ((runAll_builds_once hclear).2 p hp).1.2⟩

end Memo

end Crosswalk
