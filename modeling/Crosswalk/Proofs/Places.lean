import Crosswalk.Proofs.LinkEffects

/-!
# The places of a conversion

A conversion goes through a source depth first, link by link in the order of the plan. This module
lists what it comes to in that order, as if nothing could fail: `Record.places`. A `Place` is the
beginning of a record's conversion, which needs a plan, or a value that crosses a link and has
nothing inside that would be met on its own. A list of scalars is met item by item.

Each place knows its route, the steps from the outermost record down to it. The list builds routes
on the way down, from the front. Failures build their paths on the way up, so nothing here is said
about failures; that the two meet is the business of `Crosswalk.Proofs.Culprits`.

`Place.Stands` says without an order what a place is, and `Record.mem_places_iff` that the list has
every such place and no other.
-/

namespace Crosswalk

/-- Something that a conversion comes to, with the way there. -/
inductive Place
  /-- The conversion of a record begins, by the plan of the key. -/
  | entry (route : FieldPath) (key : PlanKey)
  /-- A value crosses a link of the plan of the key. -/
  | value (route : FieldPath) (key : PlanKey) (link : Link) (v : Value)

/-- Whether a value that crosses by the transfer is gone into, and not met as a whole. -/
def Transfer.opens : Transfer → Value → Bool
  | .nested _, .record .. | .nestedList _, .list _ | .scalarList _, .list _ => true
  | _, _ => false

namespace Place

variable (S : Schema)

/-- The places in a value that crosses a link of the plan of a key, where the route is that of the
record with the value. -/
abbrev Finder := FieldPath → PlanKey → Link → List Place

/-- The places of the conversion of a record, given those in its cells. -/
def ofParts (source : TypeId) (parts : List Finder) (key : PlanKey) (route : FieldPath) :
    List Place :=
  entry route key ::
    match Plan.resolve S key with
    | .error _ => []
    | .ok plan => plan.links.flatMap fun l =>
      (((Copier.byPosition l).sourceIndex? S source).bind (parts[·]?)).elim [] (· route key l)

/-- The items of a list of scalars, counted from a given index. -/
def ofScalars (route : FieldPath) (key : PlanKey) (l : Link) : Nat → List Value → List Place
  | _, [] => []
  | index, v :: vs =>
    value (route ++ [⟨l.name, some index⟩]) key l v :: ofScalars route key l (index + 1) vs

mutual

/-- The places in a value of the source. -/
def inValue : Value → Finder
  | .record type cells, route, key, l =>
    match l.transfer with
    | .nested key' => ofParts S type (inCells cells) key' (route ++ [⟨l.name, none⟩])
    | _ => [value (route ++ [⟨l.name, none⟩]) key l (.record type cells)]
  | .list items, route, key, l =>
    match l.transfer with
    | .nestedList key' => inItems l key' route 0 items
    | .scalarList _ => ofScalars route key l 0 items
    | _ => [value (route ++ [⟨l.name, none⟩]) key l (.list items)]
  | v, route, key, l => [value (route ++ [⟨l.name, none⟩]) key l v]

/-- The places in each of some cells. -/
def inCells : List Value → List Finder
  | [] => []
  | v :: vs => inValue v :: inCells vs

/-- The places in the records of a list, counted from a given index. -/
def inItems (l : Link) (key : PlanKey) (route : FieldPath) (index : Nat) : List Value → List Place
  | [] => []
  | .record type cells :: rest =>
    ofParts S type (inCells cells) key (route ++ [⟨l.name, some index⟩]) ++
      inItems l key route (index + 1) rest
  | _ :: rest => inItems l key route (index + 1) rest

end

end Place

/-- The places of the conversion of a record by a key, in order, where the route leads to the
record. -/
def Record.places (S : Schema) (r : Record) (key : PlanKey) (route : FieldPath) : List Place :=
  Place.ofParts S r.type (Place.inCells S r.cells) key route

/-! ### In terms of reading the source -/

section Equations

variable {S : Schema} {l : Link}

namespace Place

theorem inCells_eq_map (cells : List Value) : inCells S cells = cells.map (inValue S) := by
  induction cells with
  | nil => rfl
  | cons v vs ih => rw [inCells, ih, List.map_cons]

theorem inValue_record {key' : PlanKey} (h : l.transfer = .nested key') (r : Record)
    (route : FieldPath) (key : PlanKey) :
    inValue S r.toValue route key l = r.places S key' (route ++ [⟨l.name, none⟩]) := by
  rw [Record.toValue, inValue, h]
  rfl

theorem inValue_records {key' : PlanKey} (h : l.transfer = .nestedList key') (items : List Value)
    (route : FieldPath) (key : PlanKey) :
    inValue S (.list items) route key l = inItems S l key' route 0 items := by
  rw [inValue, h]

theorem inValue_scalars {c : ScalarConversion} (h : l.transfer = .scalarList c)
    (items : List Value) (route : FieldPath) (key : PlanKey) :
    inValue S (.list items) route key l = ofScalars route key l 0 items := by
  rw [inValue, h]

theorem inItems_cons (r : Record) (rest : List Value) (key : PlanKey) (route : FieldPath)
    (index : Nat) :
    inItems S l key route index (r.toValue :: rest) =
      r.places S key (route ++ [⟨l.name, some index⟩]) ++
        inItems S l key route (index + 1) rest := by
  rw [Record.toValue, inItems]
  rfl

theorem inItems_cons_of_not_record {v : Value} (hv : ∀ r : Record, v ≠ r.toValue)
    (rest : List Value) (key : PlanKey) (route : FieldPath) (index : Nat) :
    inItems S l key route index (v :: rest) = inItems S l key route (index + 1) rest := by
  cases v with
  | record type cells => exact absurd rfl (hv ⟨type, cells⟩)
  | _ => rw [inItems]; simp

/-- A value that is not gone into is a place of its own. -/
theorem inValue_of_not_opens {v : Value} (h : l.transfer.opens v = false) (route : FieldPath)
    (key : PlanKey) : inValue S v route key l = [value (route ++ [⟨l.name, none⟩]) key l v] := by
  cases v with
  | record type cells =>
    rw [inValue]
    split
    · next key' htransfer =>
      rw [htransfer] at h
      cases h
    · rfl
  | list items =>
    rw [inValue]
    split
    · next key' htransfer =>
      rw [htransfer] at h
      cases h
    · next c htransfer =>
      rw [htransfer] at h
      cases h
    · rfl
  | _ => rfl

end Place

theorem Record.places_eq (r : Record) (key : PlanKey) (route : FieldPath) :
    r.places S key route = .entry route key ::
      match Plan.resolve S key with
      | .error _ => []
      | .ok plan => plan.links.flatMap fun l =>
        (r.get? S l.sourceIndex).elim [] fun v => Place.inValue S v route key l := by
  have hread (l : Link) : ((Copier.byPosition l).sourceIndex? S r.type).bind
      ((Place.inCells S r.cells)[·]?) = (r.get? S l.sourceIndex).map (Place.inValue S) := by
    rw [← Copier.read?_byPosition, Place.inCells_eq_map, Copier.read?]
    cases (Copier.byPosition l).sourceIndex? S r.type <;> simp
  rw [places, Place.ofParts]
  cases Plan.resolve S key with
  | error cause => rfl
  | ok plan =>
    dsimp only
    congr 2
    funext l
    rw [hread]
    cases r.get? S l.sourceIndex <;> rfl

end Equations

/-! ### What a place is -/

/-- Crossing the link, the value comes to a record at this step, which is converted by the key. -/
inductive Link.Leads (l : Link) : Value → PathStep → PlanKey → Record → Prop
  | record {key : PlanKey} (h : l.transfer = .nested key) (inner : Record) :
    Leads l inner.toValue ⟨l.name, none⟩ key inner
  | item {key : PlanKey} {items : List Value} {index : Nat} {inner : Record}
    (h : l.transfer = .nestedList key) (hitem : items[index]? = some inner.toValue) :
    Leads l (.list items) ⟨l.name, some index⟩ key inner

/-- Crossing the link, the first value has the second one at this step: it is that value, or a list
of scalars with that item. -/
inductive Link.Spot (l : Link) : Value → PathStep → Value → Prop
  | whole {v : Value} (h : l.transfer.opens v = false) : Spot l v ⟨l.name, none⟩ v
  | item {c : ScalarConversion} {items : List Value} {index : Nat} {v : Value}
    (h : l.transfer = .scalarList c) (hitem : items[index]? = some v) :
    Spot l (.list items) ⟨l.name, some index⟩ v

/-- Converting the first record by the first key comes to the second record and the second key. The
routes lead to the two records. -/
inductive Descends (S : Schema) : FieldPath → PlanKey → Record → FieldPath → PlanKey → Record → Prop
  | here (route : FieldPath) (key : PlanKey) (r : Record) : Descends S route key r route key r
  | inside {route : FieldPath} {key : PlanKey} {r : Record} {plan : Plan} {l : Link} {v : Value}
    {step : PathStep} {key' : PlanKey} {inner : Record} {way : FieldPath} {key'' : PlanKey}
    {r'' : Record} (hplan : Plan.resolve S key = .ok plan) (hl : l ∈ plan.links)
    (hv : r.get? S l.sourceIndex = some v) (hleads : l.Leads v step key' inner)
    (h : Descends S (route ++ [step]) key' inner way key'' r'') :
    Descends S route key r way key'' r''

/-- The conversion of the record by the key, where the route leads to the record, comes to the
place. -/
inductive Place.Stands (S : Schema) (route : FieldPath) (key : PlanKey) (r : Record) : Place → Prop
  | entry {way : FieldPath} {key' : PlanKey} {holder : Record}
    (h : Descends S route key r way key' holder) : Stands S route key r (.entry way key')
  | value {way : FieldPath} {key' : PlanKey} {holder : Record} {plan : Plan} {l : Link}
    {v w : Value} {step : PathStep} (h : Descends S route key r way key' holder)
    (hplan : Plan.resolve S key' = .ok plan) (hl : l ∈ plan.links)
    (hv : holder.get? S l.sourceIndex = some v) (hspot : l.Spot v step w) :
    Stands S route key r (.value (way ++ [step]) key' l w)

section Membership

variable {S : Schema} {l : Link} {p : Place} {v : Value} {key key' : PlanKey} {route : FieldPath}

theorem Link.Leads.holds {step : PathStep} {inner : Record} (h : l.Leads v step key inner) :
    v.Holds inner := by
  cases h with
  | record => exact Value.holds_self inner
  | item _ hitem => exact Value.holds_item (List.mem_of_getElem? hitem)

/-- The list of places of the record has what stands there, whatever the key and the route. -/
def Record.ListsPlaces (S : Schema) (r : Record) : Prop :=
  ∀ p key route, p ∈ r.places S key route ↔ p.Stands S route key r

namespace Place

theorem mem_ofScalars_iff {index : Nat} {items : List Value} :
    p ∈ ofScalars route key l index items ↔
      ∃ i v, items[i]? = some v ∧
        p = .value (route ++ [⟨l.name, some (index + i)⟩]) key l v := by
  induction items generalizing index with
  | nil => simp [ofScalars]
  | cons v vs ih =>
    rw [ofScalars, List.mem_cons, ih]
    constructor
    · rintro (rfl | ⟨i, w, hw, rfl⟩)
      · exact ⟨0, v, rfl, rfl⟩
      · exact ⟨i + 1, w, hw, by rw [Nat.add_assoc, Nat.add_comm 1]⟩
    · rintro ⟨i, w, hw, rfl⟩
      cases i with
      | zero =>
        cases hw
        exact .inl rfl
      | succ i => exact .inr ⟨i, w, hw, by rw [Nat.add_assoc, Nat.add_comm 1]⟩

theorem mem_inItems_iff {index : Nat} {items : List Value} :
    p ∈ inItems S l key route index items ↔
      ∃ (i : Nat) (r : Record), items[i]? = some r.toValue ∧
        p ∈ r.places S key (route ++ [⟨l.name, some (index + i)⟩]) := by
  induction items generalizing index with
  | nil => simp [inItems]
  | cons v rest ih =>
    have htail : p ∈ inItems S l key route (index + 1) rest ↔
        ∃ (i : Nat) (r : Record), (v :: rest)[i + 1]? = some r.toValue ∧
          p ∈ r.places S key (route ++ [⟨l.name, some (index + (i + 1))⟩]) := by
      simp only [ih, List.getElem?_cons_succ, Nat.add_assoc, Nat.add_comm 1]
    by_cases hv : ∃ r : Record, v = r.toValue
    · obtain ⟨r, rfl⟩ := hv
      rw [inItems_cons, List.mem_append, htail]
      constructor
      · rintro (hp | ⟨i, r', hr', hp⟩)
        · exact ⟨0, r, rfl, hp⟩
        · exact ⟨i + 1, r', hr', hp⟩
      · rintro ⟨i, r', hr', hp⟩
        cases i with
        | zero =>
          rw [Record.toValue_injective (Option.some.inj hr')]
          exact .inl hp
        | succ i => exact .inr ⟨i, r', hr', hp⟩
    · rw [inItems_cons_of_not_record fun r hr => hv ⟨r, hr⟩, htail]
      constructor
      · rintro ⟨i, r, hr, hp⟩
        exact ⟨i + 1, r, hr, hp⟩
      · rintro ⟨i, r, hr, hp⟩
        cases i with
        | zero => exact absurd ⟨r, Option.some.inj hr⟩ hv
        | succ i => exact ⟨i, r, hr, hp⟩

/-- The places in a value are the values at its spots and what stands in the records that it leads
to. -/
theorem mem_inValue_iff (h : ∀ inner : Record, v.Holds inner → inner.ListsPlaces S) :
    p ∈ inValue S v route key l ↔
      (∃ step w, l.Spot v step w ∧ p = .value (route ++ [step]) key l w) ∨
        ∃ step key' inner, l.Leads v step key' inner ∧ p.Stands S (route ++ [step]) key' inner := by
  constructor
  · intro hp
    cases hopens : l.transfer.opens v with
    | false =>
      rw [inValue_of_not_opens hopens, List.mem_singleton] at hp
      exact .inl ⟨_, v, .whole hopens, hp⟩
    | true =>
      rw [Transfer.opens.eq_def] at hopens
      split at hopens
      · next key' type cells htransfer =>
        change p ∈ inValue S (Record.toValue ⟨type, cells⟩) route key l at hp
        rw [inValue_record htransfer] at hp
        exact .inr ⟨_, key', ⟨type, cells⟩, .record htransfer ⟨type, cells⟩,
          (h ⟨type, cells⟩ (Value.holds_self ⟨type, cells⟩) p key' _).mp hp⟩
      · next key' items htransfer =>
        rw [inValue_records htransfer, mem_inItems_iff] at hp
        obtain ⟨index, inner, hitem, hp⟩ := hp
        rw [Nat.zero_add] at hp
        have hinner := h inner (Value.holds_item (List.mem_of_getElem? hitem))
        exact .inr ⟨_, key', inner, .item htransfer hitem, (hinner p key' _).mp hp⟩
      · next c items htransfer =>
        rw [inValue_scalars htransfer, mem_ofScalars_iff] at hp
        obtain ⟨index, w, hitem, rfl⟩ := hp
        rw [Nat.zero_add]
        exact .inl ⟨_, w, .item htransfer hitem, rfl⟩
      · cases hopens
  · rintro (⟨step, w, hspot, rfl⟩ | ⟨step, key', inner, hleads, hstands⟩)
    · cases hspot with
      | whole hopens =>
        rw [inValue_of_not_opens hopens]
        exact List.mem_singleton_self _
      | @item c items index _ htransfer hitem =>
        rw [inValue_scalars htransfer, mem_ofScalars_iff]
        exact ⟨index, w, hitem, by rw [Nat.zero_add]⟩
    · have hlists := (h inner hleads.holds p key' _).mpr hstands
      cases hleads with
      | record htransfer =>
        rwa [inValue_record htransfer]
      | @item _ items index _ htransfer hitem =>
        rw [inValue_records htransfer, mem_inItems_iff]
        exact ⟨index, inner, hitem, by rwa [Nat.zero_add]⟩

end Place

/-- The list begins with the record itself and goes on with what is in its linked fields. -/
theorem Record.mem_places_iff_inValue {r : Record} :
    p ∈ r.places S key route ↔ p = .entry route key ∨ ∃ plan l v, Plan.resolve S key = .ok plan ∧
      l ∈ plan.links ∧ r.get? S l.sourceIndex = some v ∧ p ∈ Place.inValue S v route key l := by
  rw [places_eq, List.mem_cons]
  refine or_congr Iff.rfl ?_
  cases Plan.resolve S key with
  | error cause => simp
  | ok plan =>
    dsimp only
    rw [List.mem_flatMap]
    constructor
    · rintro ⟨l, hl, hp⟩
      cases hv : r.get? S l.sourceIndex with
      | none =>
        rw [hv] at hp
        exact absurd hp List.not_mem_nil
      | some v =>
        rw [hv] at hp
        exact ⟨plan, l, v, rfl, hl, hv, hp⟩
    · rintro ⟨plan', l, v, hplan, hl, hv, hp⟩
      obtain rfl := Except.ok.inj hplan
      refine ⟨l, hl, ?_⟩
      rwa [hv]

/-- What stands in the inner record stands in the outer one. -/
theorem Place.Stands.inside {r inner : Record} {plan : Plan} {step : PathStep}
    (hplan : Plan.resolve S key = .ok plan) (hl : l ∈ plan.links)
    (hv : r.get? S l.sourceIndex = some v) (hleads : l.Leads v step key' inner)
    (h : p.Stands S (route ++ [step]) key' inner) : p.Stands S route key r := by
  cases h with
  | entry h => exact .entry (.inside hplan hl hv hleads h)
  | value h hplan' hl' hv' hspot => exact .value (.inside hplan hl hv hleads h) hplan' hl' hv' hspot

/-- What stands in a record is its own conversion, or in one of its linked fields. -/
theorem Place.stands_iff {r : Record} :
    p.Stands S route key r ↔ p = .entry route key ∨ ∃ plan l v, Plan.resolve S key = .ok plan ∧
      l ∈ plan.links ∧ r.get? S l.sourceIndex = some v ∧
        ((∃ step w, l.Spot v step w ∧ p = .value (route ++ [step]) key l w) ∨
          ∃ step key' inner, l.Leads v step key' inner ∧
            p.Stands S (route ++ [step]) key' inner) := by
  constructor
  · intro h
    cases h with
    | entry h =>
      cases h with
      | here => exact .inl rfl
      | inside hplan hl hv hleads h =>
        exact .inr ⟨_, _, _, hplan, hl, hv, .inr ⟨_, _, _, hleads, .entry h⟩⟩
    | value h hplan hl hv hspot =>
      cases h with
      | here => exact .inr ⟨_, _, _, hplan, hl, hv, .inl ⟨_, _, hspot, rfl⟩⟩
      | inside hplan' hl' hv' hleads h =>
        exact .inr ⟨_, _, _, hplan', hl', hv',
          .inr ⟨_, _, _, hleads, .value h hplan hl hv hspot⟩⟩
  · rintro (rfl | ⟨plan, l, v, hplan, hl, hv, h⟩)
    · exact .entry (.here route key r)
    · rcases h with ⟨step, w, hspot, rfl⟩ | ⟨step, key', inner, hleads, h⟩
      · exact .value (.here route key r) hplan hl hv hspot
      · exact .inside hplan hl hv hleads h

/-- **The list of places has every place and no other.** By induction on the nesting of the
source. -/
theorem Record.mem_places_iff {r : Record} : p ∈ r.places S key route ↔ p.Stands S route key r := by
  suffices h : r.ListsPlaces S from h p key route
  induction r using Record.nestedInduction with
  | step r ih =>
    intro p key route
    rw [mem_places_iff_inValue, Place.stands_iff]
    refine or_congr Iff.rfl ?_
    refine exists_congr fun plan => exists_congr fun l => exists_congr fun v => ?_
    refine and_congr_right fun _ => and_congr_right fun _ => and_congr_right fun hv => ?_
    exact Place.mem_inValue_iff (ih v (mem_cells_of_get? hv))

end Membership

end Crosswalk
