import Crosswalk.Memo
import Mathlib.Logic.Relation

/-!
# The moments of a run of requests

`Memo.Request.runAll` carries out a tree of requests and says what comes of it. Much of what a memo
promises is about the time in between, when builds are under way and make requests of their own. So
a run is cut into moments here. At a `Memo.Moment` there is a memo, there are builds under way, each
begun by the one around it, and there are requests still to be made. `Moment.step` makes the next
request or ends the innermost build. A request that needs no build is answered in its step, and one
that does need a build begins it.

The steps are those that `Memo.getOrBuild` consists of, and `Moment.reaches_runAll` says that their
end is what `Request.runAll` computes.

What a moment knows of the past is what has been asked for and what has been built, in order. No
step reads it.
-/

namespace Crosswalk.Memo

variable {α : Type}

namespace Request

/-- The key that is asked for. -/
def key : Request α → PlanKey
  | mk key _ _ => key

/-- The requests that a build makes. -/
def inner : Request α → List (Request α)
  | mk _ inner _ => inner

/-- What a build comes to. -/
def result : Request α → Except ConvertError α
  | mk _ _ result => result

end Request

/-- A build under way, what it saw when it began, and what is to go on when it is over. -/
structure Frame (α : Type) where
  request : Request α
  sight : Sight
  answers : List (Answer α)
  pending : List (Request α)

/-- The key whose build is under way. -/
def Frame.key (frame : Frame α) : PlanKey := frame.request.key

/-- A moment of a run. The answers and the requests to come are those of the innermost build. -/
structure Moment (α : Type) where
  memo : Memo α
  answers : List (Answer α)
  pending : List (Request α)
  underway : List (Frame α)
  asked : List (Request α)
  built : List (Request α)

namespace Moment

/-- Before the first request. -/
def first (requests : List (Request α)) : Moment α := ⟨empty, [], requests, [], [], []⟩

/-- The request is answered with what is kept. -/
def answer (p : Moment α) (r : Request α) (rest : List (Request α))
    (kept : Except ConvertError α) : Moment α where
  memo := p.memo
  answers := p.answers ++ [.mk kept none]
  pending := rest
  underway := p.underway
  asked := p.asked ++ [r]
  built := p.built

/-- The build of the request begins. -/
def enter (p : Moment α) (r : Request α) (rest : List (Request α)) : Moment α where
  memo := p.memo.start r.key
  answers := []
  pending := r.inner
  underway := ⟨r, (p.memo.start r.key).look r.key, p.answers, rest⟩ :: p.underway
  asked := p.asked ++ [r]
  built := p.built ++ [r]

/-- The innermost build ends. -/
def leave (p : Moment α) (frame : Frame α) (outer : List (Frame α)) : Moment α where
  memo := p.memo.finish frame.key frame.request.result
  answers := frame.answers ++ [.mk frame.request.result (some (frame.sight, p.answers))]
  pending := frame.pending
  underway := outer
  asked := p.asked
  built := p.built

/-- The next moment, unless the run is over. -/
def step (p : Moment α) : Option (Moment α) :=
  match p.pending, p.underway with
  | r :: rest, _ =>
    match p.memo.result? r.key with
    | some kept => some (p.answer r rest kept)
    | none => some (p.enter r rest)
  | [], frame :: outer => some (p.leave frame outer)
  | [], [] => none

/-- The second moment is the first or comes after it. -/
def Reaches : Moment α → Moment α → Prop :=
  Relation.ReflTransGen fun p q => p.step = some q

variable {p q : Moment α}

/-- **What one step can be.** -/
theorem step_cases (h : p.step = some q) :
    (∃ r rest kept, p.pending = r :: rest ∧ p.memo.result? r.key = some kept ∧
      q = p.answer r rest kept) ∨
    (∃ r rest, p.pending = r :: rest ∧ p.memo.result? r.key = none ∧ q = p.enter r rest) ∨
    ∃ frame outer, p.pending = [] ∧ p.underway = frame :: outer ∧ q = p.leave frame outer := by
  rw [step] at h
  split at h
  next r rest hpending =>
    cases hkept : p.memo.result? r.key with
    | some kept =>
      rw [hkept] at h
      exact .inl ⟨r, rest, kept, hpending, hkept, (Option.some.inj h).symm⟩
    | none =>
      rw [hkept] at h
      exact .inr (.inl ⟨r, rest, hpending, hkept, (Option.some.inj h).symm⟩)
  next frame outer hpending hunderway =>
    exact .inr (.inr ⟨frame, outer, hpending, hunderway, (Option.some.inj h).symm⟩)
  next => cases h

theorem step_answer {r : Request α} {rest : List (Request α)} {kept : Except ConvertError α}
    (hpending : p.pending = r :: rest) (hkept : p.memo.result? r.key = some kept) :
    p.step = some (p.answer r rest kept) := by
  simp only [step, hpending, hkept]

theorem step_enter {r : Request α} {rest : List (Request α)} (hpending : p.pending = r :: rest)
    (hkept : p.memo.result? r.key = none) : p.step = some (p.enter r rest) := by
  simp only [step, hpending, hkept]

theorem step_leave {frame : Frame α} {outer : List (Frame α)} (hpending : p.pending = [])
    (hunderway : p.underway = frame :: outer) : p.step = some (p.leave frame outer) := by
  simp only [step, hpending, hunderway]

/-- What each step keeps and the first moment has, every moment of the run has. -/
theorem Reaches.invariant {P : Moment α → Prop} (h : p.Reaches q) (hp : P p)
    (hstep : ∀ p' q', p.Reaches p' → P p' → p'.step = some q' → P q') : P q := by
  induction h with
  | refl => exact hp
  | tail hreached hnext ih => exact hstep _ _ hreached ih hnext

end Moment

/-! ### The end of a run -/

theorem Request.run_of_kept {r : Request α} {m : Memo α} {kept : Except ConvertError α}
    (h : m.result? r.key = some kept) : r.run m = (.mk kept none, m) := by
  obtain ⟨key, inner, result⟩ := r
  rw [Request.key] at h
  rw [run, getOrBuild, h]

theorem Request.run_of_not_kept {r : Request α} {m : Memo α} (h : m.result? r.key = none) :
    r.run m =
      (.mk r.result (some ((m.start r.key).look r.key, (runAll r.inner (m.start r.key)).1)),
        (runAll r.inner (m.start r.key)).2.finish r.key r.result) := by
  obtain ⟨key, inner, result⟩ := r
  rw [Request.key] at h
  rw [run, getOrBuild, h]
  rfl

namespace Moment

/-- The second moment is the first with some requests carried out. -/
structure Answered (p q : Moment α) (rest : List (Request α))
    (outcome : List (Answer α) × Memo α) : Prop where
  reaches : p.Reaches q
  answers_eq : q.answers = p.answers ++ outcome.1
  memo_eq : q.memo = outcome.2
  pending_eq : q.pending = rest
  underway_eq : q.underway = p.underway

mutual

/-- The steps from making a request to having its answer. -/
theorem answered_run : ∀ (r : Request α) (rest : List (Request α)) (p : Moment α),
    p.pending = r :: rest → ∃ q, p.Answered q rest ([(r.run p.memo).1], (r.run p.memo).2)
  | .mk key inner result, rest, p, h => by
    cases hkept : p.memo.result? key with
    | some kept =>
      rw [Request.run_of_kept hkept]
      exact ⟨p.answer _ rest kept, .single (step_answer h hkept), rfl, rfl, rfl, rfl⟩
    | none =>
      obtain ⟨q, hq⟩ := answered_runAll inner (p.enter (.mk key inner result) rest) rfl
      have hleave : q.step = some (q.leave _ p.underway) :=
        step_leave hq.pending_eq hq.underway_eq
      refine ⟨_, .tail (.head (step_enter h hkept) hq.reaches) hleave, ?_, ?_, rfl, rfl⟩
      · rw [Request.run_of_not_kept hkept, leave, hq.answers_eq]
        rfl
      · rw [Request.run_of_not_kept hkept, leave, hq.memo_eq]
        rfl

/-- The steps from making the requests of a build to having all their answers. -/
theorem answered_runAll : ∀ (requests : List (Request α)) (p : Moment α),
    p.pending = requests → ∃ q, p.Answered q [] (Request.runAll requests p.memo)
  | [], p, h => ⟨p, .refl, (List.append_nil _).symm, rfl, h, rfl⟩
  | r :: rest, p, h => by
    obtain ⟨q, hq⟩ := answered_run r rest p h
    obtain ⟨q', hq'⟩ := answered_runAll rest q hq.pending_eq
    rw [hq.memo_eq] at hq'
    refine ⟨q', hq.reaches.trans hq'.reaches, ?_, hq'.memo_eq, hq'.pending_eq,
      hq'.underway_eq.trans hq.underway_eq⟩
    rw [hq'.answers_eq, hq.answers_eq, List.append_assoc]
    rfl

end

/-- **A run ends with the answers and the memo that `Request.runAll` computes.** -/
theorem reaches_runAll (requests : List (Request α)) :
    ∃ p, (first requests).Reaches p ∧ p.step = none ∧
      (p.answers, p.memo) = Request.runAll requests empty := by
  obtain ⟨p, hp⟩ := answered_runAll requests (first requests) rfl
  refine ⟨p, hp.reaches, ?_, ?_⟩
  · have hunderway : p.underway = [] := hp.underway_eq
    simp only [step, hp.pending_eq, hunderway]
  · exact Prod.ext hp.answers_eq hp.memo_eq

end Moment

end Crosswalk.Memo
