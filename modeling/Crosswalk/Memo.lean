import Crosswalk.Error

/-!
# Things that are built once

A `Memo` keeps what was built for each plan key. The first request for a key builds, every later one
gets what came of it, be it a value or a failure, and nothing is ever dropped. While a build is
under way its key is already there, without a result.

A build may itself use the memo, as long as it does not ask for a key whose build is under way; and
a memo may be one part of a larger state that builds read and change. `Memo.getOrBuild` therefore
works on any state and is told where in it the memo is.

`Memo.Request` is a request together with everything its build would do, so that a whole tree of
requests is a value. `Memo.Request.run` carries one out and says what could be seen from inside.
-/

namespace Crosswalk

/-- The place of one key: a build under way, or what came of it. -/
inductive Slot (α : Type)
  | building
  | done (result : Except ConvertError α)

/-- Where a key stands. -/
inductive MemoState
  | unresolved | resolving | ready | failed
deriving DecidableEq

namespace MemoState

def name : MemoState → String
  | unresolved => "unresolved"
  | resolving => "resolving"
  | ready => "ready"
  | failed => "failed"

end MemoState

/-- What was built for each key, and how many builds were begun. -/
structure Memo (α : Type) where
  slots : List (PlanKey × Slot α)
  builds : Nat

namespace Memo

variable {α σ : Type}

def empty : Memo α := ⟨[], 0⟩

def slot? (m : Memo α) (key : PlanKey) : Option (Slot α) :=
  m.slots.lookup key

/-- What came of the build for a key, once it is over. -/
def result? (m : Memo α) (key : PlanKey) : Option (Except ConvertError α) :=
  match m.slot? key with
  | some (.done result) => some result
  | _ => none

def state (m : Memo α) (key : PlanKey) : MemoState :=
  match m.slot? key with
  | none => .unresolved
  | some .building => .resolving
  | some (.done (.ok _)) => .ready
  | some (.done (.error _)) => .failed

/-- The number of keys that were ever asked for. -/
def entries (m : Memo α) : Nat := m.slots.length

def isEmpty (m : Memo α) : Bool := m.slots.isEmpty

/-- Begins a build. -/
def start (m : Memo α) (key : PlanKey) : Memo α where
  slots := if (m.slot? key).isSome then m.slots else m.slots ++ [(key, .building)]
  builds := m.builds + 1

/-- Ends a build. -/
def finish (m : Memo α) (key : PlanKey) (result : Except ConvertError α) : Memo α :=
  { m with slots := m.slots.map fun (k, slot) => (k, if k = key then .done result else slot) }

/-- What is kept for a key, which is built first if nothing is. The memo is found in the state by
`view` and changed there by `update`. -/
def getOrBuild (view : σ → Memo α) (update : (Memo α → Memo α) → σ → σ) (key : PlanKey)
    (build : σ → Except ConvertError α × σ) (s : σ) : Except ConvertError α × σ :=
  match (view s).result? key with
  | some result => (result, s)
  | none =>
    let (result, s) := build (update (·.start key) s)
    (result, update (·.finish key result) s)

/-- The memo in diagnostics. -/
def debugText (m : Memo α) : String :=
  "ConversionCache \x7b entries: " ++ toString m.entries ++ ", builds: " ++
    toString m.builds ++ " \x7d"

/-! ### Trees of requests -/

/-- What a build sees of the memo when it begins. -/
structure Sight where
  state : MemoState
  entries : Nat
  builds : Nat
  finished : Bool
deriving DecidableEq

/-- What can be seen of a key. -/
def look (m : Memo α) (key : PlanKey) : Sight where
  state := m.state key
  entries := m.entries
  builds := m.builds
  finished := (m.result? key).isSome

/-- A request for a key. Its build, if it comes to that, makes further requests in order and then
has the given result. -/
inductive Request (α : Type)
  | mk (key : PlanKey) (inner : List (Request α)) (result : Except ConvertError α)

/-- The answer to a request and, if a build was run for it, what the build saw and the answers to
its own requests. -/
inductive Answer (α : Type)
  | mk (result : Except ConvertError α) (build : Option (Sight × List (Answer α)))

mutual

/-- Carries out a request. -/
def Request.run : Request α → Memo α → Answer α × Memo α
  | .mk key inner result, m =>
    let build (s : Memo α × Option (Sight × List (Answer α))) :=
      let (answers, m) := Request.runAll inner s.1
      (result, (m, some (s.1.look key, answers)))
    let (result, (m, seen)) := getOrBuild Prod.fst (fun g s => (g s.1, s.2)) key build (m, none)
    (.mk result seen, m)

/-- Carries out requests in order. -/
def Request.runAll : List (Request α) → Memo α → List (Answer α) × Memo α
  | [], m => ([], m)
  | r :: rest, m =>
    let (answer, m) := r.run m
    let (answers, m) := Request.runAll rest m
    (answer :: answers, m)

end

end Memo

end Crosswalk
