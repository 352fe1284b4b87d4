import Crosswalk.Proofs.Columns
import Crosswalk.Proofs.Nesting

/-!
# Records that hold what they declare

Two assumptions come up again and again, one about types and one about records.

A type is `Schema.Ordinary` when it and every type inside it have ordinary fields only, none that is
made by hand. `TypeDecl.Plain` is the same for the fields of one declaration.

A record *fits* when every field that can be read holds a value of its declared kind, and so on
inside: `Record.fits`. That is no assumption about ordinary types, whose fields start so and take
nothing else, but it makes sense for any type, and then says that the record behaves as its
declaration promises. Of a field that cannot be copied nothing is asked.

Fitting is `Value.fitsWhere` for the fields that can be read, and a computation on values.
Downstream it is only used through the equivalences of this module, one for each kind of field and
`Record.fits_iff` for whole records. Those for kinds do not depend on which fields are asked.

`Parcels` is a family of four types in which every way of crossing occurs at least once, and a type
that reaches itself. Results about fitting records are shown to be about something by instances at
it.
-/

namespace Crosswalk

/-! ### Types with ordinary fields only -/

theorem FieldDecl.readable_of_declared {f : FieldDecl} (h : f.access = .declared) :
    f.readable = true := by
  rw [readable, h]

/-- Every field is an ordinary one. -/
def TypeDecl.Plain (d : TypeDecl) : Prop := ∀ f ∈ d.fields, f.access = .declared

namespace Schema

variable (S : Schema)

/-- The second type is the first one, or occurs somewhere inside it. -/
inductive Reaches : TypeId → TypeId → Prop
  | refl (t : TypeId) : Reaches t t
  | step {t u w : TypeId} {f : FieldDecl} (hf : f ∈ (S.decl t).fields)
      (hu : f.kind.nestedType? = some u) (h : Reaches u w) : Reaches t w

/-- Every type that the type reaches has ordinary fields only. -/
def Ordinary (t : TypeId) : Prop := ∀ u, S.Reaches t u → (S.decl u).Plain

variable {S} {t u : TypeId}

theorem Ordinary.plain (h : S.Ordinary t) : (S.decl t).Plain := h t (.refl t)

theorem Ordinary.nested (h : S.Ordinary t) {f : FieldDecl} (hf : f ∈ (S.decl t).fields)
    (hu : f.kind.nestedType? = some u) : S.Ordinary u :=
  fun _ hw => h _ (.step hf hu hw)

/-- Where a table of declarations has only ordinary fields, so have all types. -/
theorem plain_of_ofTables? {decls : List TypeDecl} {cells : List (List Value)}
    (h : ofTables? decls cells = some S) (hall : ∀ d ∈ decls, d.Plain) (t : TypeId) :
    (S.decl t).Plain :=
  forall_fields_of_ofTables? h hall t

end Schema

/-! ### Fitting -/

/-- Whether a value is of the kind, and every record in it fits. -/
abbrev Value.fits (S : Schema) (kind : FieldKind) (v : Value) : Bool :=
  v.fitsWhere S.decl (·.readable) kind

namespace Record

/-- Whether there is a cell for each field, and each field that is asked holds a value of its
declared kind, at every depth. -/
def fitsWhere (decl : TypeId → TypeDecl) (asked : FieldDecl → Bool) (r : Record) : Bool :=
  Value.cellsFitWhere decl asked (decl r.type).fields r.cells

/-- Whether there is a cell for each field, and each field that can be read holds a value of its
declared kind, at every depth. -/
abbrev fits (S : Schema) (r : Record) : Bool := r.fitsWhere S.decl (·.readable)

/-- There is a cell for each field. -/
def Whole (S : Schema) (r : Record) : Prop := r.cells.length = (r.decl S).fields.length

end Record

section FitsWhere

variable {decl : TypeId → TypeDecl} {asked asked' : FieldDecl → Bool}

theorem Value.cellsFitWhere_iff {fields : List FieldDecl} {cells : List Value} :
    Value.cellsFitWhere decl asked fields cells = true ↔ cells.length = fields.length ∧
      ∀ (index : Nat) f v, fields[index]? = some f → cells[index]? = some v →
        asked f = true → v.fitsWhere decl asked f.kind = true := by
  induction fields generalizing cells with
  | nil => cases cells <;> simp [cellsFitWhere]
  | cons f fs ih =>
    cases cells with
    | nil => simp [cellsFitWhere]
    | cons v vs =>
      simp only [cellsFitWhere, Bool.and_eq_true, Bool.or_eq_true, Bool.not_eq_true', ih,
        List.length_cons, Nat.add_right_cancel_iff]
      constructor
      · rintro ⟨hhead, hlength, htail⟩
        refine ⟨hlength, fun index g w hg hw hasked => ?_⟩
        cases index with
        | zero =>
          cases hg
          cases hw
          exact hhead.resolve_left (by simp [hasked])
        | succ index => exact htail index g w hg hw hasked
      · rintro ⟨hlength, h⟩
        refine ⟨?_, hlength, fun index g w hg hw => h (index + 1) g w hg hw⟩
        cases hasked : asked f with
        | false => exact .inl rfl
        | true => exact .inr (h 0 f v rfl rfl hasked)

theorem Value.itemsFitWhere_iff {t : TypeId} {items : List Value} :
    Value.itemsFitWhere decl asked t items = true ↔ ∃ rs : List Record,
      items = rs.map (·.toValue) ∧ ∀ r ∈ rs, r.type = t ∧ r.fitsWhere decl asked = true := by
  induction items with
  | nil => simp [itemsFitWhere]
  | cons v rest ih =>
    cases v with
    | record u cells =>
      simp only [itemsFitWhere, Bool.and_eq_true, decide_eq_true_eq, ih]
      constructor
      · rintro ⟨⟨rfl, hcells⟩, rs, rfl, hrs⟩
        exact ⟨⟨u, cells⟩ :: rs, rfl, List.forall_mem_cons.mpr ⟨⟨rfl, hcells⟩, hrs⟩⟩
      · rintro ⟨rs, hitems, hrs⟩
        cases rs with
        | nil => cases hitems
        | cons r rs =>
          cases hitems
          exact ⟨hrs r List.mem_cons_self, rs, rfl,
            fun r' hr' => hrs r' (List.mem_cons_of_mem _ hr')⟩
    | _ =>
      simp only [itemsFitWhere, Bool.false_eq_true, false_iff]
      rintro ⟨rs, hitems, -⟩
      cases rs <;> cases hitems

theorem Value.fits_scalar {k : ScalarKind} {optional : Bool} {v : Value} :
    v.fitsWhere decl asked (.scalar k optional) = true ↔
      v.scalarKind? = some k ∨ (optional = true ∧ v = .null) := by
  cases v <;> simp [fitsWhere, isNull]

theorem Value.fits_scalarList {k : ScalarKind} {v : Value} :
    v.fitsWhere decl asked (.scalarList k) = true ↔
      ∃ items, v = .list items ∧ ∀ w ∈ items, w.scalarKind? = some k := by
  cases v <;> simp [fitsWhere]

theorem Value.fits_nested {t : TypeId} {optional : Bool} {v : Value} :
    v.fitsWhere decl asked (.nested t optional) = true ↔ (optional = true ∧ v = .null) ∨
      ∃ r : Record, v = r.toValue ∧ r.type = t ∧ r.fitsWhere decl asked = true := by
  cases v with
  | null => simp [fitsWhere, Record.toValue]
  | record u cells =>
    simp only [fitsWhere, Bool.and_eq_true, decide_eq_true_eq, reduceCtorEq, and_false, false_or]
    constructor
    · rintro ⟨rfl, hcells⟩
      exact ⟨⟨u, cells⟩, rfl, rfl, hcells⟩
    · rintro ⟨r, hr, rfl, hfits⟩
      cases hr
      exact ⟨rfl, hfits⟩
  | _ => simp [fitsWhere, Record.toValue]

theorem Value.fits_nestedList {t : TypeId} {v : Value} :
    v.fitsWhere decl asked (.nestedList t) = true ↔ ∃ rs : List Record,
      v = .list (rs.map (·.toValue)) ∧
        ∀ r ∈ rs, r.type = t ∧ r.fitsWhere decl asked = true := by
  cases v with
  | list items => simp [fitsWhere, itemsFitWhere_iff]
  | _ => simp [fitsWhere]

theorem Value.fits_unsupported (what : UnsupportedKind) (v : Value) :
    v.fitsWhere decl asked (.unsupported what) = true := by
  cases v <;> rfl

/-- The records in a value that fits are of the type that its kind declares, and they fit. -/
theorem Value.fits_of_holds {kind : FieldKind} {t : TypeId} {v : Value} {r : Record}
    (hv : v.fitsWhere decl asked kind = true) (ht : kind.nestedType? = some t) (h : v.Holds r) :
    r.type = t ∧ r.fitsWhere decl asked = true := by
  cases kind with
  | nested u o =>
    cases ht
    rcases Value.fits_nested.mp hv with ⟨-, rfl⟩ | ⟨r', rfl, htype, hfits⟩
    · rcases h with h | ⟨items, h, -⟩ <;> cases h
    · rcases h with h | ⟨items, h, -⟩
      · rw [← Record.toValue_injective h]
        exact ⟨htype, hfits⟩
      · cases h
  | nestedList u =>
    cases ht
    obtain ⟨rs, rfl, hrs⟩ := Value.fits_nestedList.mp hv
    rcases h with h | ⟨items, h, hmem⟩
    · cases h
    · cases h
      obtain ⟨r', hr', hvalue⟩ := List.mem_map.mp hmem
      rw [← Record.toValue_injective hvalue]
      exact hrs r' hr'
  | _ => cases ht

/-- Which fields are asked matters for the records in a value only. -/
theorem Value.fits_of_inside {kind : FieldKind} {v : Value}
    (hv : v.fitsWhere decl asked kind = true)
    (h : ∀ r, v.Holds r → kind.nestedType? = some r.type → r.fitsWhere decl asked = true →
      r.fitsWhere decl asked' = true) : v.fitsWhere decl asked' kind = true := by
  cases kind with
  | scalar k optional => exact fits_scalar.mpr (fits_scalar.mp hv)
  | scalarList k => exact fits_scalarList.mpr (fits_scalarList.mp hv)
  | nested t optional =>
    refine fits_nested.mpr ((fits_nested.mp hv).imp_right ?_)
    rintro ⟨r, rfl, rfl, hr⟩
    exact ⟨r, rfl, rfl, h r (holds_self r) rfl hr⟩
  | nestedList t =>
    obtain ⟨rs, rfl, hrs⟩ := fits_nestedList.mp hv
    refine fits_nestedList.mpr ⟨rs, rfl, fun r hr => ⟨(hrs r hr).1, ?_⟩⟩
    have ht : (FieldKind.nestedList t).nestedType? = some r.type := by rw [(hrs r hr).1]; rfl
    exact h r (holds_item (List.mem_map_of_mem hr)) ht (hrs r hr).2
  | unsupported what => exact fits_unsupported what v

end FitsWhere

section Fits

variable {S : Schema}

theorem Record.fitsWhere_iff {asked : FieldDecl → Bool} {r : Record} :
    r.fitsWhere S.decl asked = true ↔ r.Whole S ∧
      ∀ (index : Nat) f v, (r.decl S).fields[index]? = some f → r.cells[index]? = some v →
        asked f = true → v.fitsWhere S.decl asked f.kind = true :=
  Value.cellsFitWhere_iff

theorem Record.fits_iff {r : Record} : r.fits S = true ↔ r.Whole S ∧
    ∀ (index : Nat) f v, (r.decl S).fields[index]? = some f → r.cells[index]? = some v →
      f.readable = true → v.fits S f.kind = true :=
  fitsWhere_iff

theorem Record.mem_cells_of_get? {r : Record} {index : Nat} {v : Value}
    (hv : r.get? S index = some v) : v ∈ r.cells := by
  rw [get?] at hv
  split at hv
  · exact List.mem_of_getElem? hv
  · cases hv

theorem Record.whole_of_fits {r : Record} (h : r.fits S = true) : r.Whole S := (fits_iff.mp h).1

theorem Schema.Ordinary.plain_decl {t : TypeId} (h : S.Ordinary t) {r : Record} (hr : r.type = t) :
    (r.decl S).Plain := by
  rw [Record.decl, hr]
  exact h.plain

/-- A field of a record of an ordinary type that fits. -/
theorem Record.ordinary_field {r : Record} (htype : S.Ordinary r.type) (hfits : r.fits S = true)
    {index : Nat} {f : FieldDecl} {v : Value} (hf : (r.decl S).fields[index]? = some f)
    (hv : r.cells[index]? = some v) :
    f.access = .declared ∧ v.fits S f.kind = true ∧
      ∀ t, f.kind.nestedType? = some t → S.Ordinary t := by
  have hmem : f ∈ (S.decl r.type).fields := List.mem_of_getElem? hf
  have hread : f.access = .declared := htype.plain f hmem
  exact ⟨hread, (fits_iff.mp hfits).2 index f v hf hv (FieldDecl.readable_of_declared hread),
    fun t ht => htype.nested hmem ht⟩

/-- What a field reads is of the kind of its column. -/
theorem Record.fits_of_get? {r : Record} (h : r.fits S = true) {c : Column}
    (hc : c ∈ (r.decl S).columns) {v : Value} (hv : r.get? S c.index = some v) :
    v.fits S c.kind = true := by
  have hfield := (TypeDecl.mem_columns_iff _).mp hc
  rw [get?] at hv
  split at hv
  · next hread =>
    refine (fits_iff.mp h).2 c.index _ v hfield hv ?_
    rw [TypeDecl.readableAt, hfield] at hread
    simpa using hread
  · cases hv

/-- A record with a cell for each field can be read wherever it has an ordinary field. -/
theorem Record.get?_eq_getElem? {r : Record} (hplain : (r.decl S).Plain) (hwhole : r.Whole S)
    (index : Nat) : r.get? S index = r.cells[index]? := by
  rw [get?]
  split
  · rfl
  · next hread =>
    cases hf : (r.decl S).fields[index]? with
    | none =>
      rw [List.getElem?_eq_none_iff] at hf
      rw [Whole] at hwhole
      rw [List.getElem?_eq_none (by omega)]
    | some f =>
      rw [TypeDecl.readableAt, hf] at hread
      exact absurd (FieldDecl.readable_of_declared (hplain f (List.mem_of_getElem? hf))) hread

/-- The field of an ordinary column can be read. -/
theorem Record.exists_get? {r : Record} (hplain : (r.decl S).Plain) (hwhole : r.Whole S)
    {c : Column} (hc : c ∈ (r.decl S).columns) : ∃ v, r.get? S c.index = some v := by
  obtain ⟨hlt, -⟩ := List.getElem?_eq_some_iff.mp ((TypeDecl.mem_columns_iff _).mp hc)
  rw [get?_eq_getElem? hplain hwhole]
  rw [Whole] at hwhole
  exact ⟨_, List.getElem?_eq_getElem (by omega)⟩

/-! ### Records that have never been written -/

/-- The cells of an initial record are what its type starts with: one for each field, and in an
ordinary field a value of its kind. -/
theorem Record.initial_fitsWhere (t : TypeId) :
    (initial S t).fitsWhere S.decl (·.access = .declared) = true :=
  S.initialCells_fit t

theorem Record.whole_initial (t : TypeId) : (initial S t).Whole S :=
  (fitsWhere_iff.mp (initial_fitsWhere t)).1

/-- In an ordinary type all fields are asked when ordinary fields are. -/
theorem Record.fits_of_ordinary {r : Record} (h : S.Ordinary r.type)
    (hfits : r.fitsWhere S.decl (·.access = .declared) = true) : r.fits S = true := by
  induction r using Record.nestedInduction with
  | step r ih =>
    obtain ⟨hwhole, hcells⟩ := fitsWhere_iff.mp hfits
    refine fits_iff.mpr ⟨hwhole, fun index f v hf hv _ => ?_⟩
    have hmem : f ∈ (S.decl r.type).fields := List.mem_of_getElem? hf
    refine Value.fits_of_inside (hcells index f v hf hv (by simp [h.plain f hmem])) ?_
    intro inner hinner htype hfits
    exact ih v (List.mem_of_getElem? hv) inner hinner (h.nested hmem htype) hfits

/-- The records of an ordinary type fit from the start. -/
theorem Record.initial_fits {t : TypeId} (h : S.Ordinary t) : (initial S t).fits S = true :=
  fits_of_ordinary h (initial_fitsWhere t)

end Fits

/-! ### A family of types -/

namespace Parcels

/-- Parcels and the places they come from and pass through, as messages and as models. -/
def decls : List TypeDecl :=
  [⟨"ParcelMessage", [
      ⟨"weight", .scalar .i32 false, false, .declared⟩,
      ⟨"price", .scalar .f64 true, false, .declared⟩,
      ⟨"sent", .scalar .timestamp false, false, .declared⟩,
      ⟨"codes", .scalarList .i64, false, .declared⟩,
      ⟨"from", .nested ⟨1⟩ true, false, .declared⟩,
      ⟨"stops", .nestedList ⟨1⟩, false, .declared⟩,
      ⟨"hook", .unsupported .function, false, .declared⟩]⟩,
   ⟨"PlaceMessage", [
      ⟨"city", .scalar .string false, false, .declared⟩,
      ⟨"within", .nested ⟨1⟩ true, false, .declared⟩]⟩,
   ⟨"Parcel", [
      ⟨"codes", .scalarList .i32, false, .declared⟩,
      ⟨"from", .nested ⟨3⟩ false, false, .declared⟩,
      ⟨"weight", .scalar .f64 false, false, .declared⟩,
      ⟨"price", .scalar .f32 false, false, .declared⟩,
      ⟨"sent", .scalar .datetime true, false, .declared⟩,
      ⟨"stops", .nestedList ⟨3⟩, false, .declared⟩]⟩,
   ⟨"Place", [
      ⟨"city", .scalar .string true, false, .declared⟩,
      ⟨"within", .nested ⟨3⟩ true, false, .declared⟩]⟩]

theorem isSome_ofDecls? : (Schema.ofDecls? decls fun _ => .null).isSome = true := by decide

def schema : Schema := (Schema.ofDecls? decls fun _ => .null).get isSome_ofDecls?

theorem plain (t : TypeId) : (schema.decl t).Plain := by
  have hall : ∀ d ∈ decls, ∀ f ∈ d.fields, f.access = .declared := by decide
  exact Schema.plain_of_ofTables? (Option.some_get isSome_ofDecls?).symm hall t

theorem ordinary (t : TypeId) : schema.Ordinary t := fun u _ => plain u

def home : Value := .record ⟨1⟩ [.string "Ulm", .null]

def yard : Value := .record ⟨1⟩ [.string "Yard", home]

/-- A message about a parcel that was sent at this time. -/
def message (sent : Timestamp) : Record where
  type := ⟨0⟩
  cells := [.i32 (-7), .f64 ⟨0x3FF8000000000000⟩, .timestamp sent, .list [.i64 3, .i64 (-4)], yard,
    .list [home, yard], .null]

/-- A message that can be told in a model. -/
def parcel : Record := message ⟨5, 7⟩

/-- A message with a time that is no instant of the calendar. -/
def oddParcel : Record := message ⟨5, -7⟩

example : parcel.fits schema = true ∧ oddParcel.fits schema = true := by decide

end Parcels

end Crosswalk
