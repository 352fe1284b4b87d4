import Crosswalk.Copy.Flat
import Crosswalk.Store

/-!
# Carrying out a conversion

There are three tiers. They differ in where the copiers of a plan come from and in nothing else:

* `Tier.naive` makes the plan anew for every record and keeps nothing;
* `Tier.cached` keeps plans, and like the first reaches fields by name;
* `Tier.compiled` keeps compiled plans, which reach fields by position.

`Tier.run` copies field by field and stops at the first failure; what was written before it stays
written. A nested record is converted by the plan that the link names, in the same tier, into a
fresh record of its target type, so that a failure inside leaves nothing of the nested record
behind.

The recursion goes down the source, whatever plans and types the schema has. Each value of the
source is turned into what it would become, `carry`, and a record is copied from what its cells
would become, `copyAll`. The lemmas at the end give the equations in terms of reading the source.
-/

namespace Crosswalk

/-- How much of the work on a plan is kept for the next conversion. -/
inductive Tier
  | naive | cached | compiled
deriving DecidableEq

/-- What came of a conversion, and the destination after it. -/
structure Outcome where
  result : Except ConvertError Unit
  target : Record

namespace Tier

variable (S : Schema)

def all : List Tier := [naive, cached, compiled]

def name : Tier → String
  | naive => "naive"
  | cached => "cached"
  | compiled => "compiled"

/-- The copiers for a key, in order. -/
def copiers (tier : Tier) (key : PlanKey) (s : Store) : Except ConvertError (List Copier) × Store :=
  match tier with
  | naive =>
    match Plan.resolve S key with
    | .ok plan => (.ok (plan.links.map .byName), s)
    | .error cause => (.error (.noPlan cause), s)
  | cached =>
    let (plan, s) := s.plan S key
    (plan.map fun p => p.links.map .byName, s)
  | compiled =>
    let (plan, s) := s.compiledPlan S key
    (plan.map CompiledPlan.copiers, s)

/-- What a value becomes under a copier, with what is kept before and after. -/
abbrev Carrier := Copier → Store → Except ConvertError Value × Store

/-- Carries out copiers in order, up to the first that fails. The carriers say what each cell of the
source becomes. -/
def copyAll (source : TypeId) (parts : List Carrier) :
    List Copier → Record → Store → Outcome × Store
  | [], dst, s => (⟨.ok (), dst⟩, s)
  | c :: rest, dst, s =>
    match (c.sourceIndex? S source).bind (parts[·]?) with
    | none => (⟨.error (.access (.unknownField source c.link.name)), dst⟩, s)
    | some part =>
      match part c s with
      | (.error e, s) => (⟨.error e, dst⟩, s)
      | (.ok v, s) =>
        match c.write S dst v with
        | .error e => (⟨.error (c.link.mismatch (.refused e)), dst⟩, s)
        | .ok dst => copyAll source parts rest dst s

/-- Copies a source, given what its cells become, by the plan of the key. -/
def runParts (tier : Tier) (key : PlanKey) (source : TypeId) (parts : List Carrier) (dst : Record)
    (s : Store) : Outcome × Store :=
  match tier.copiers S key s with
  | (.error e, s) => (⟨.error e, dst⟩, s)
  | (.ok copiers, s) => copyAll S source parts copiers dst s

mutual

/-- What a value of the source becomes. -/
def carry (tier : Tier) : Value → Carrier
  | v, .handOver _, s => (.ok v, s)
  | .record type cells, .byName link, s | .record type cells, .byPosition link, s =>
    match link.transfer with
    | .nested key =>
      match tier.runParts S key type (carryEach tier cells) (.initial S key.target) s with
      | (⟨.ok _, made⟩, s) => (.ok made.toValue, s)
      | (⟨.error e, _⟩, s) => (.error (e.within ⟨link.name, none⟩), s)
    | _ => (link.carryFlat (.record type cells), s)
  | .list items, .byName link, s | .list items, .byPosition link, s =>
    match link.transfer with
    | .nestedList key =>
      let (made, s) := carryItems tier link key 0 items s
      (made.map .list, s)
    | _ => (link.carryFlat (.list items), s)
  | v, .byName link, s | v, .byPosition link, s => (link.carryFlat v, s)

/-- What each of some cells becomes. -/
def carryEach (tier : Tier) : List Value → List Carrier
  | [] => []
  | v :: vs => carry tier v :: carryEach tier vs

/-- What the records of a list become, counted from a given index. -/
def carryItems (tier : Tier) (link : Link) (key : PlanKey) (index : Nat) :
    List Value → Store → Except ConvertError (List Value) × Store
  | [], s => (.ok [], s)
  | .record type cells :: rest, s =>
    match tier.runParts S key type (carryEach tier cells) (.initial S key.target) s with
    | (⟨.error e, _⟩, s) => (.error (e.within ⟨link.name, some index⟩), s)
    | (⟨.ok _, made⟩, s) =>
      let (others, s) := carryItems tier link key (index + 1) rest s
      (others.map (made.toValue :: ·), s)
  | v :: _, s => (.error (link.unexpected v), s)

end

/-- Copies the source into the destination by the plan of the key. -/
def run (tier : Tier) (key : PlanKey) (src dst : Record) (s : Store) : Outcome × Store :=
  tier.runParts S key src.type (carryEach S tier src.cells) dst s

/-! ### In terms of reading the source -/

theorem carryEach_eq_map (tier : Tier) (cells : List Value) :
    carryEach S tier cells = cells.map (carry S tier) := by
  induction cells with
  | nil => rfl
  | cons v vs ih => rw [carryEach, ih, List.map_cons]

/-- Carries out copiers from a record, up to the first that fails. -/
def copyFrom (tier : Tier) (src : Record) : List Copier → Record → Store → Outcome × Store :=
  copyAll S src.type (src.cells.map (carry S tier))

theorem run_eq (tier : Tier) (key : PlanKey) (src dst : Record) (s : Store) :
    tier.run S key src dst s =
      match tier.copiers S key s with
      | (.error e, s) => (⟨.error e, dst⟩, s)
      | (.ok copiers, s) => tier.copyFrom S src copiers dst s := by
  simp only [run, runParts, copyFrom, carryEach_eq_map]

theorem copyFrom_nil (tier : Tier) (src dst : Record) (s : Store) :
    tier.copyFrom S src [] dst s = (⟨.ok (), dst⟩, s) := rfl

theorem copyFrom_cons (tier : Tier) (src : Record) (c : Copier) (rest : List Copier) (dst : Record)
    (s : Store) :
    tier.copyFrom S src (c :: rest) dst s =
      match c.read? S src with
      | none => (⟨.error (.access (.unknownField src.type c.link.name)), dst⟩, s)
      | some v =>
        match carry S tier v c s with
        | (.error e, s) => (⟨.error e, dst⟩, s)
        | (.ok w, s) =>
          match c.write S dst w with
          | .error e => (⟨.error (c.link.mismatch (.refused e)), dst⟩, s)
          | .ok dst => tier.copyFrom S src rest dst s := by
  rw [copyFrom, copyAll, Copier.read?]
  cases c.sourceIndex? S src.type with
  | none => rfl
  | some index =>
    simp only [Option.bind_some, List.getElem?_map]
    cases src.cells[index]? <;> rfl

/-! ### Whole conversions -/

/-- Copies the source into the destination in a direction. Without a source, or without a
destination, there is nothing to be done. -/
def convert (tier : Tier) (src dst : Option Record) (direction : Direction) (s : Store) :
    (Except ConvertError Unit × Option Record) × Store :=
  match src, dst with
  | none, dst => ((.error (.absent .source), dst), s)
  | some _, none => ((.error (.absent .destination), none), s)
  | some src, some dst =>
    let (outcome, s) := tier.run S (.between src.type dst.type direction) src dst s
    ((outcome.result, some outcome.target), s)

end Tier

end Crosswalk
