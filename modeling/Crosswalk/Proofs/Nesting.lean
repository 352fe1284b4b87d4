import Crosswalk.Record

/-!
# Records inside records

Values are trees: a list holds values, and a record holds a value in each of its cells. The two
inductions of this development are stated here once. `Value.induction` goes down all values.
`Record.nestedInduction` goes from record to record and skips what lies between, which is what a
statement about plans wants: a plan is run on a record, and the next plan is run on a record in one
of its fields, be it alone there or in a list.
-/

namespace Crosswalk

namespace Value

/-- Neither a list nor a record. -/
def IsFlat (v : Value) : Prop := (∀ items, v ≠ .list items) ∧ ∀ type cells, v ≠ .record type cells

theorem isFlat_null : null.IsFlat := ⟨fun _ => Value.noConfusion, fun _ _ => Value.noConfusion⟩

/-- Induction on what is inside a value. -/
theorem induction {P : Value → Prop} (flat : ∀ v, v.IsFlat → P v)
    (list : ∀ items, (∀ v ∈ items, P v) → P (.list items))
    (record : ∀ type cells, (∀ v ∈ cells, P v) → P (.record type cells)) (v : Value) : P v := by
  match v with
  | .list items => exact list items fun w _ => induction flat list record w
  | .record type cells => exact record type cells fun w _ => induction flat list record w
  | .null | .bool _ | .i32 _ | .i64 _ | .u32 _ | .u64 _ | .f32 _ | .f64 _ | .string _ | .bytes _
  | .timestamp _ | .datetime _ =>
    exact flat _ ⟨fun _ => Value.noConfusion, fun _ _ => Value.noConfusion⟩
termination_by sizeOf v
decreasing_by
  all_goals
    have := List.sizeOf_lt_of_mem ‹_ ∈ _›
    simp only [Value.list.sizeOf_spec, Value.record.sizeOf_spec]
    omega

/-- The value is the record, or a list with the record among its items. -/
def Holds (v : Value) (r : Record) : Prop :=
  v = r.toValue ∨ ∃ items, v = .list items ∧ r.toValue ∈ items

theorem holds_self (r : Record) : r.toValue.Holds r := .inl rfl

theorem holds_item {items : List Value} {r : Record} (h : r.toValue ∈ items) :
    (Value.list items).Holds r := .inr ⟨items, rfl, h⟩

end Value

theorem Record.toValue_injective {a b : Record} (h : a.toValue = b.toValue) : a = b := by
  obtain ⟨t, as⟩ := a
  obtain ⟨u, bs⟩ := b
  cases h
  rfl

theorem Record.map_toValue_injective {rs rs' : List Record}
    (h : rs.map (·.toValue) = rs'.map (·.toValue)) : rs = rs' :=
  (List.map_inj_right fun _ _ => toValue_injective).mp h

/-- Induction from the records in the fields of a record to the record. -/
theorem Record.nestedInduction {P : Record → Prop}
    (step : ∀ r : Record, (∀ v ∈ r.cells, ∀ inner, v.Holds inner → P inner) → P r) (r : Record) :
    P r := by
  suffices h : ∀ v : Value, ∀ inner, v.Holds inner → P inner from h _ r (Value.holds_self r)
  intro v
  induction v using Value.induction with
  | flat v hv =>
    rintro inner (h | ⟨items, h, -⟩)
    · exact absurd h (hv.2 _ _)
    · exact absurd h (hv.1 _)
  | list items ih =>
    rintro inner (h | ⟨items', h, hmem⟩)
    · cases h
    · cases h
      exact ih _ hmem inner (Value.holds_self inner)
  | record type cells ih =>
    rintro inner (h | ⟨items', h, -⟩)
    · cases h
      exact step inner ih
    · cases h

end Crosswalk
