import Crosswalk.Tier
import Crosswalk.Proofs.Nesting
import Mathlib.Data.List.Basic

/-!
# Conversions without a store

`Tier.run` threads a store through everything it does, and writes to the destination as it goes.
Neither matters for what comes out. This module gives the same conversion as a pure function, in two
parts that later proofs want apart.

The first part is what one copier does. Its `Effect` on records of a type is a failure or a
`Placement`, a position and what happens to the cell there. An effect depends on the source and on
the *type* of the destination, and on nothing that the destination holds.

The second part is what becomes of the destination: the effects take place in order up to the first
failure (`Outcome.ofEffects`). Every statement about partial writes, about the order of fields, or
about what the destination held before is a statement about this list function alone.

`Tier.image` is to `Tier.carry` what a program is to its memoized version: the recursion is the same
one, down the source, and the store is gone. That the two agree on every store that conversions can
lead to is in `Crosswalk.Proofs.Histories`.

## Main results

* `Copier.write_eq` — a write is the placement that the type of the record decides
* `Tier.outcome_eq`, `Tier.effect_eq` — a conversion and its effects, in terms of reading the source
* `Tier.image_record`, `Tier.imageItems_cons` — nested records, in terms of their own conversions
-/

namespace Crosswalk

/-- A position, and what becomes of the cell that stands there. -/
structure Placement where
  index : Nat
  change : Value → Value

/-- A cell is put there, whatever it was before. -/
def Placement.put (index : Nat) (cell : Value) : Placement := ⟨index, fun _ => cell⟩

namespace Record

/-- The record with the change made to its cell. -/
def place (r : Record) (p : Placement) : Record :=
  { r with cells := r.cells.modify p.index p.change }

@[simp] theorem type_place (r : Record) (p : Placement) : (r.place p).type = r.type := rfl

theorem place_put (r : Record) (index : Nat) (cell : Value) :
    r.place (.put index cell) = { r with cells := r.cells.set index cell } := by
  rw [List.set_eq_modify]
  rfl

/-- The record with several changes made to its cells, one after the other. -/
def placeAll (r : Record) (ps : List Placement) : Record := ps.foldl place r

@[simp] theorem type_placeAll (r : Record) (ps : List Placement) :
    (r.placeAll ps).type = r.type := by
  induction ps generalizing r with
  | nil => rfl
  | cons p ps ih => exact ih (r.place p)

@[simp] theorem length_placeAll (r : Record) (ps : List Placement) :
    (r.placeAll ps).cells.length = r.cells.length := by
  induction ps generalizing r with
  | nil => rfl
  | cons p ps ih => exact (ih (r.place p)).trans (List.length_modify ..)

/-- A position at which nothing happens keeps its cell. -/
theorem getElem?_placeAll_of_not_mem (r : Record) {ps : List Placement} {index : Nat}
    (h : index ∉ ps.map (·.index)) : (r.placeAll ps).cells[index]? = r.cells[index]? := by
  induction ps generalizing r with
  | nil => rfl
  | cons p ps ih =>
    rw [List.map_cons, List.mem_cons, not_or] at h
    exact (ih (r.place p) h.2).trans (List.getElem?_modify_ne _ _ (Ne.symm h.1))

/-- When positions are distinct, each holds in the end what became of its cell. -/
theorem getElem?_placeAll (r : Record) {ps : List Placement} (hps : (ps.map (·.index)).Nodup)
    {p : Placement} (hp : p ∈ ps) :
    (r.placeAll ps).cells[p.index]? = r.cells[p.index]?.map p.change := by
  induction ps generalizing r with
  | nil => exact absurd hp List.not_mem_nil
  | cons q ps ih =>
    rw [List.map_cons, List.nodup_cons] at hps
    rcases List.mem_cons.mp hp with rfl | hp
    · exact (getElem?_placeAll_of_not_mem (r.place p) hps.1).trans (List.getElem?_modify_eq ..)
    · have hne : q.index ≠ p.index := fun h => hps.1 (h ▸ List.mem_map_of_mem hp)
      exact (ih (r.place q) hps.2 hp).trans
        (congrArg (Option.map p.change) (List.getElem?_modify_ne _ _ hne))

end Record

/-! ### Writes -/

variable (S : Schema)

/-- What a value given to the field at a position of a type comes to. -/
def Schema.placement (type : TypeId) (index : Nat) (v : Value) : Except AccessError Placement :=
  match (S.decl type).fields[index]? with
  | none => .error (.noFieldAt type index)
  | some f => (f.write S type v).map fun change => ⟨index, change⟩

theorem Record.set_eq (r : Record) (index : Nat) (v : Value) :
    r.set S index v = (S.placement r.type index v).map r.place := by
  rw [Record.set, Schema.placement, Record.decl]
  cases (S.decl r.type).fields[index]? with
  | none => rfl
  | some f =>
    simp only
    cases f.write S r.type v <;> rfl

namespace Copier

/-- What a value comes to when the copier writes it to records of the type. -/
def placement (c : Copier) (type : TypeId) (v : Value) : Except AccessError Placement :=
  match c with
  | byName link =>
    match (S.decl type).column? link.name with
    | none => .error (.unknownField type link.name)
    | some column => S.placement type column.index v
  | byPosition link | handOver link => S.placement type link.targetIndex v

/-- **A write does not look at the record it changes.** The type alone decides whether it is
refused, where it goes and what it does to the cell there. -/
theorem write_eq (c : Copier) (dst : Record) (v : Value) :
    c.write S dst v = (c.placement S dst.type v).map dst.place := by
  cases c with
  | byName link =>
    rw [write, placement, Record.setByName, Record.decl]
    cases (S.decl dst.type).column? link.name with
    | none => rfl
    | some column => exact dst.set_eq S column.index v
  | byPosition link => exact dst.set_eq S link.targetIndex v
  | handOver link => exact dst.set_eq S link.targetIndex v

/-- The copier does with a value what the link says, and does not just hand it over. -/
inductive Looks (link : Link) : Copier → Prop
  | byName : Looks link (.byName link)
  | byPosition : Looks link (.byPosition link)

end Copier

/-! ### Effects -/

/-- What one copier does to a destination. -/
abbrev Effect := Except ConvertError Placement

/-- The outcome of effects that take place in order, up to the first failure. -/
def Outcome.ofEffects : List Effect → Record → Outcome
  | [], dst => ⟨.ok (), dst⟩
  | .error e :: _, dst => ⟨.error e, dst⟩
  | .ok p :: rest, dst => ofEffects rest (dst.place p)

/-- **Effects take place up to the first failure.** Either all of them succeed, or there is a first
one that fails, and a destination becomes what those before it make of it. Which of the two it is,
and how many come before, is the same for all destinations. -/
theorem Outcome.ofEffects_cases (effects : List Effect) :
    (∃ ps, effects = ps.map .ok ∧ ∀ dst, ofEffects effects dst = ⟨.ok (), dst.placeAll ps⟩) ∨
      ∃ ps e rest, effects = ps.map .ok ++ .error e :: rest ∧
        ∀ dst, ofEffects effects dst = ⟨.error e, dst.placeAll ps⟩ := by
  induction effects with
  | nil => exact .inl ⟨[], rfl, fun _ => rfl⟩
  | cons effect effects ih =>
    cases effect with
    | error e => exact .inr ⟨[], e, effects, rfl, fun _ => rfl⟩
    | ok p =>
      rcases ih with ⟨ps, rfl, h⟩ | ⟨ps, e, rest, rfl, h⟩
      · exact .inl ⟨p :: ps, rfl, fun dst => h (dst.place p)⟩
      · exact .inr ⟨p :: ps, e, rest, rfl, fun dst => h (dst.place p)⟩

theorem Outcome.result_ofEffects_eq_ok_iff {effects : List Effect} {dst : Record} :
    (ofEffects effects dst).result = .ok () ↔ ∀ effect ∈ effects, ∃ p, effect = .ok p := by
  rcases ofEffects_cases effects with ⟨ps, rfl, h⟩ | ⟨ps, e, rest, rfl, h⟩
  · rw [h]
    simp
  · rw [h]
    simp only [reduceCtorEq, false_iff]
    intro hall
    obtain ⟨p, hp⟩ := hall (.error e) (List.mem_append_right _ List.mem_cons_self)
    cases hp

theorem Outcome.mem_of_result_eq_error {effects : List Effect} {dst : Record} {e : ConvertError}
    (h : (ofEffects effects dst).result = .error e) : .error e ∈ effects := by
  rcases ofEffects_cases effects with ⟨ps, rfl, hrun⟩ | ⟨ps, e', rest, rfl, hrun⟩
  · rw [hrun] at h
    cases h
  · rw [hrun] at h
    cases h
    exact List.mem_append_right _ List.mem_cons_self

@[simp] theorem Outcome.type_ofEffects (effects : List Effect) (dst : Record) :
    (ofEffects effects dst).target.type = dst.type := by
  rcases ofEffects_cases effects with ⟨ps, -, h⟩ | ⟨ps, e, rest, -, h⟩ <;>
    rw [h, Record.type_placeAll]

/-- What a value becomes under a copier. -/
abbrev Image := Copier → Except ConvertError Value

/-- The effect of a copier on records of the target type, where the images say what the cells of the
source become. -/
def Copier.effectOf (source target : TypeId) (images : List Image) (c : Copier) : Effect :=
  match (c.sourceIndex? S source).bind (images[·]?) with
  | none => .error (.access (.unknownField source c.link.name))
  | some image =>
    match image c with
    | .error e => .error e
    | .ok v =>
      match c.placement S target v with
      | .error e => .error (c.link.mismatch (.refused e))
      | .ok p => .ok p

namespace Tier

/-- The copier that the tier makes of a link. -/
def copier : Tier → Link → Copier
  | naive, link | cached, link => .byName link
  | compiled, link => .compile link

@[simp] theorem link_copier (tier : Tier) (link : Link) : (tier.copier link).link = link := by
  cases tier with
  | naive | cached => rfl
  | compiled =>
    rw [copier, Copier.compile]
    split <;> rfl

/-- The copiers for a key, as they are whenever there is nothing kept that says otherwise. -/
def program (tier : Tier) (key : PlanKey) : Except ConvertError (List Copier) :=
  match Plan.resolve S key with
  | .ok plan => .ok (plan.links.map tier.copier)
  | .error cause => .error (.noPlan cause)

/-- The outcome for a source, given what its cells become. -/
def outcomeOf (tier : Tier) (key : PlanKey) (source : TypeId) (images : List Image)
    (dst : Record) : Outcome :=
  match tier.program S key with
  | .error e => ⟨.error e, dst⟩
  | .ok copiers => .ofEffects (copiers.map (Copier.effectOf S source dst.type images)) dst

mutual

/-- What a value of the source becomes. -/
def image (tier : Tier) : Value → Image
  | v, .handOver _ => .ok v
  | .record type cells, .byName link | .record type cells, .byPosition link =>
    match link.transfer with
    | .nested key =>
      match tier.outcomeOf S key type (imageEach tier cells) (.initial S key.target) with
      | ⟨.ok _, made⟩ => .ok made.toValue
      | ⟨.error e, _⟩ => .error (e.within ⟨link.name, none⟩)
    | _ => link.carryFlat (.record type cells)
  | .list items, .byName link | .list items, .byPosition link =>
    match link.transfer with
    | .nestedList key => (imageItems tier link key 0 items).map .list
    | _ => link.carryFlat (.list items)
  | v, .byName link | v, .byPosition link => link.carryFlat v

/-- What each of some cells becomes. -/
def imageEach (tier : Tier) : List Value → List Image
  | [] => []
  | v :: vs => image tier v :: imageEach tier vs

/-- What the records of a list become, counted from a given index. -/
def imageItems (tier : Tier) (link : Link) (key : PlanKey) (index : Nat) :
    List Value → Except ConvertError (List Value)
  | [] => .ok []
  | .record type cells :: rest =>
    match tier.outcomeOf S key type (imageEach tier cells) (.initial S key.target) with
    | ⟨.error e, _⟩ => .error (e.within ⟨link.name, some index⟩)
    | ⟨.ok _, made⟩ => (imageItems tier link key (index + 1) rest).map (made.toValue :: ·)
  | v :: _ => .error (link.unexpected v)

end

/-- The outcome of copying a source into a destination by the plan of the key. -/
def outcome (tier : Tier) (key : PlanKey) (src dst : Record) : Outcome :=
  tier.outcomeOf S key src.type (imageEach S tier src.cells) dst

/-- The effect of a copier for a source on records of the target type. -/
def effect (tier : Tier) (src : Record) (target : TypeId) (c : Copier) : Effect :=
  c.effectOf S src.type target (imageEach S tier src.cells)

/-! ### In terms of reading the source -/

theorem imageEach_eq_map (tier : Tier) (cells : List Value) :
    imageEach S tier cells = cells.map (image S tier) := by
  induction cells with
  | nil => rfl
  | cons v vs ih => rw [imageEach, ih, List.map_cons]

theorem outcome_eq (tier : Tier) (key : PlanKey) (src dst : Record) :
    tier.outcome S key src dst =
      match tier.program S key with
      | .error e => ⟨.error e, dst⟩
      | .ok copiers => .ofEffects (copiers.map (tier.effect S src dst.type)) dst := rfl

@[simp] theorem type_outcome (tier : Tier) (key : PlanKey) (src dst : Record) :
    (tier.outcome S key src dst).target.type = dst.type := by
  rw [outcome_eq]
  split
  · rfl
  · exact Outcome.type_ofEffects _ _

theorem effect_eq (tier : Tier) (src : Record) (target : TypeId) (c : Copier) :
    tier.effect S src target c =
      match c.read? S src with
      | none => .error (.access (.unknownField src.type c.link.name))
      | some v =>
        match tier.image S v c with
        | .error e => .error e
        | .ok w =>
          match c.placement S target w with
          | .error e => .error (c.link.mismatch (.refused e))
          | .ok p => .ok p := by
  rw [effect, Copier.effectOf, imageEach_eq_map, Copier.read?]
  cases c.sourceIndex? S src.type with
  | none => rfl
  | some index =>
    simp only [Option.bind_some, List.getElem?_map]
    cases src.cells[index]? <;> rfl

theorem image_handOver (tier : Tier) (link : Link) (v : Value) :
    tier.image S v (.handOver link) = .ok v := by
  cases v <;> rfl

/-- What a nested record becomes, by its own conversion into a fresh record. -/
theorem image_record (tier : Tier) (r : Record) {link : Link} {c : Copier} (hc : c.Looks link) :
    tier.image S r.toValue c =
      match link.transfer with
      | .nested key =>
        match tier.outcome S key r (.initial S key.target) with
        | ⟨.ok _, made⟩ => .ok made.toValue
        | ⟨.error e, _⟩ => .error (e.within ⟨link.name, none⟩)
      | _ => link.carryFlat r.toValue := by
  cases hc <;> (rw [Record.toValue, image]; rfl)

theorem image_list (tier : Tier) (items : List Value) {link : Link} {c : Copier}
    (hc : c.Looks link) :
    tier.image S (.list items) c =
      match link.transfer with
      | .nestedList key => (tier.imageItems S link key 0 items).map .list
      | _ => link.carryFlat (.list items) := by
  cases hc <;> rw [image]

/-- A value with nothing inside it becomes what it becomes without any further plan. -/
theorem image_flat (tier : Tier) {v : Value} (hv : v.IsFlat) {link : Link} {c : Copier}
    (hc : c.Looks link) : tier.image S v c = link.carryFlat v := by
  cases v with
  | list items => exact absurd rfl (hv.1 items)
  | record type cells => exact absurd rfl (hv.2 type cells)
  | _ => cases hc <;> rfl

/-- So does any value on a link that moves no records. -/
theorem image_of_not_nested (tier : Tier) {link : Link} (h : ∀ key, link.transfer ≠ .nested key)
    (h' : ∀ key, link.transfer ≠ .nestedList key) (v : Value) {c : Copier}
    (hc : c.Looks link) : tier.image S v c = link.carryFlat v := by
  cases v with
  | list items =>
    rw [image_list S tier items hc]
    split
    · next key hkey => exact absurd hkey (h' key)
    · rfl
  | record type cells =>
    change tier.image S (Record.toValue ⟨type, cells⟩) c = _
    rw [image_record S tier _ hc]
    split
    · next key hkey => exact absurd hkey (h key)
    · rfl
  | _ => cases hc <;> rfl

theorem imageItems_cons (tier : Tier) (link : Link) (key : PlanKey) (index : Nat) (r : Record)
    (rest : List Value) :
    tier.imageItems S link key index (r.toValue :: rest) =
      match tier.outcome S key r (.initial S key.target) with
      | ⟨.error e, _⟩ => .error (e.within ⟨link.name, some index⟩)
      | ⟨.ok _, made⟩ =>
        (tier.imageItems S link key (index + 1) rest).map (made.toValue :: ·) := by
  rw [Record.toValue, imageItems]
  rfl

end Tier

end Crosswalk
