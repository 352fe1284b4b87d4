import Crosswalk.Proofs.Admission
import Crosswalk.Proofs.DestinationIndependence

/-!
# Reading and writing the fields of a record

Three families of values belong to the kind of a field. The values that the field *holds* are those
that it can read as (`FieldKind.Holds`). It *takes* all of these and, in place of a list or of a
record that has to be there, also nothing (`FieldKind.Takes`). What it has *kept* of a value that it
took is the value itself, and for nothing it is the empty list or the initial record
(`FieldKind.kept`). None of the three looks inside a nested record. A record is in its place there
if its type is the declared one.

`Record.accessors_lawful` is about an ordinary record whose fields hold what they can hold, which is
`Record.Typed`. Records start like that and every write leaves them like that
(`Record.typed_writeAll`). A write succeeds exactly when the field takes the value. Then the field
reads what is kept of it and no other field changes. A refused write changes nothing, and the error
says what was given to which field. What was read can be written back, and by name one reaches the
first field of that name.

Of many writes to a field, the last that is taken decides what it reads (`Record.get?_writeAll`).
-/

namespace Crosswalk

namespace FieldKind

/-- The values that a field of the kind can hold. -/
inductive Holds : FieldKind → Value → Prop
  | scalar {k : ScalarKind} {v : Value} (optional : Bool) (h : v.scalarKind? = some k) :
    Holds (.scalar k optional) v
  | noScalar (k : ScalarKind) : Holds (.scalar k true) .null
  | scalars {k : ScalarKind} {items : List Value} (h : ∀ v ∈ items, v.scalarKind? = some k) :
    Holds (.scalarList k) (.list items)
  | record {t : TypeId} {r : Record} (optional : Bool) (h : r.type = t) :
    Holds (.nested t optional) r.toValue
  | noRecord (t : TypeId) : Holds (.nested t true) .null
  | records {t : TypeId} {rs : List Record} (h : ∀ r ∈ rs, r.type = t) :
    Holds (.nestedList t) (.list (rs.map (·.toValue)))

/-- The values that can be written to a field of the kind. -/
inductive Takes : FieldKind → Value → Prop
  | held {kind : FieldKind} {v : Value} (h : kind.Holds v) : Takes kind v
  | noScalars (k : ScalarKind) : Takes (.scalarList k) .null
  | initialRecord (t : TypeId) : Takes (.nested t false) .null
  | noRecords (t : TypeId) : Takes (.nestedList t) .null

variable (S : Schema)

/-- What a field of the kind reads after the value was written to it. -/
def kept : FieldKind → Value → Value
  | .scalarList _, .null | .nestedList _, .null => .list []
  | .nested t false, .null => (Record.initial S t).toValue
  | _, v => v

variable {S} {kind : FieldKind} {v w : Value}

/-- What a field holds is kept as it is. -/
theorem Holds.admit?_eq (h : kind.Holds v) : kind.admit? S v = some v := by
  cases h with
  | scalar optional h => exact admit?_scalar (.inl h)
  | noScalar k => exact admit?_scalar (.inr ⟨rfl, rfl⟩)
  | scalars h => exact admit?_list h
  | record optional h => exact admit?_record h optional
  | noRecord t => rfl
  | records h => exact admit?_records h

theorem Holds.kept_eq (h : kind.Holds v) : kind.kept S v = v := by
  cases h with
  | scalar optional h => cases v <;> rfl
  | record optional h => cases optional <;> rfl
  | _ => rfl

theorem Takes.admit?_eq (h : kind.Takes v) : kind.admit? S v = some (kind.kept S v) := by
  cases h with
  | held h => rw [h.admit?_eq, h.kept_eq]
  | _ => rfl

/-- A field takes every value of which it keeps something. -/
theorem takes_of_admit? (h : kind.admit? S v = some w) : kind.Takes v := by
  cases kind with
  | scalar k optional =>
    rw [admit?] at h
    split at h
    · next hkind =>
      rcases hkind with hkind | ⟨rfl, hnull⟩
      · exact .held (.scalar optional hkind)
      · cases v with
        | null => exact .held (.noScalar k)
        | _ => cases hnull
    · cases h
  | scalarList k =>
    cases v with
    | null => exact .noScalars k
    | list items =>
      simp only [admit?] at h
      split at h
      · next hall => exact .held (.scalars (by simpa using hall))
      · cases h
    | _ => cases h
  | nested t optional =>
    cases v with
    | null =>
      cases optional with
      | false => exact .initialRecord t
      | true => exact .held (.noRecord t)
    | record u cells =>
      simp only [admit?] at h
      split at h
      · next htype =>
        obtain ⟨r, hr, hrt⟩ := Value.isRecordOf_iff.mp htype
        exact hr ▸ .held (.record optional hrt)
      · cases h
    | _ => cases h
  | nestedList t =>
    cases v with
    | null => exact .noRecords t
    | list items =>
      simp only [admit?] at h
      split at h
      · next hall =>
        obtain ⟨rs, rfl, hrs⟩ := Value.all_isRecordOf_iff.mp hall
        exact .held (.records hrs)
      · cases h
    | _ => cases h
  | unsupported what => cases h

/-- A field keeps nothing of a value that it does not take. -/
theorem admit?_eq_none (h : ¬ kind.Takes v) : kind.admit? S v = none :=
  Option.eq_none_iff_forall_ne_some.mpr fun _ hw => h (takes_of_admit? hw)

/-- What a field has kept it can hold. -/
theorem Takes.holds_kept (h : kind.Takes v) : kind.Holds (kind.kept S v) := by
  cases h with
  | held h => exact h.kept_eq.symm ▸ h
  | noScalars k => exact .scalars (List.forall_mem_nil _)
  | initialRecord t => exact .record (r := .initial S t) false rfl
  | noRecords t =>
    have hnone : ∀ r ∈ ([] : List Record), r.type = t := List.forall_mem_nil _
    exact .records hnone

/-- A value that fits a field that can be copied is one that the field can hold. -/
theorem holds_of_fits {asked : FieldDecl → Bool} (hkind : kind.unsupported? = none)
    (h : v.fitsWhere S.decl asked kind = true) : kind.Holds v := by
  cases kind with
  | scalar k optional =>
    rcases Value.fits_scalar.mp h with h | ⟨rfl, rfl⟩
    · exact .scalar optional h
    · exact .noScalar k
  | scalarList k =>
    obtain ⟨items, rfl, hitems⟩ := Value.fits_scalarList.mp h
    exact .scalars hitems
  | nested t optional =>
    rcases Value.fits_nested.mp h with ⟨rfl, rfl⟩ | ⟨r, rfl, htype, -⟩
    · exact .noRecord t
    · exact .record optional htype
  | nestedList t =>
    obtain ⟨rs, rfl, hrs⟩ := Value.fits_nestedList.mp h
    exact .records fun r hr => (hrs r hr).1
  | unsupported what => cases hkind

end FieldKind

namespace Record

variable (S : Schema)

/-- There is a cell for each field, and what can be copied of it is a value that the field can
hold. -/
structure Typed (r : Record) : Prop where
  whole : r.Whole S
  holds : ∀ (index : Nat) f v, (r.decl S).fields[index]? = some f → r.cells[index]? = some v →
    f.kind.unsupported? = none → f.kind.Holds v

/-- The record after a write that may be refused. -/
def write (r : Record) (index : Nat) (v : Value) : Record :=
  match r.set S index v with
  | .ok r' => r'
  | .error _ => r

/-- The record after several writes to positions, any of which may be refused. -/
def writeAll (r : Record) (writes : List (Nat × Value)) : Record :=
  writes.foldl (fun r w => r.write S w.1 w.2) r

variable {S} {r : Record} {index : Nat} {f : FieldDecl} {v : Value}

/-! ### One write -/

/-- What is written to a field of an ordinary record is what its kind admits. -/
theorem set_eq_of_plain (hplain : (r.decl S).Plain) (hf : (r.decl S).fields[index]? = some f)
    (v : Value) :
    r.set S index v =
      match f.kind.admit? S v with
      | some cell => .ok (r.place (.put index cell))
      | none => .error (.rejected r.type f.name f.kind v.shapeName) := by
  have hc : ({ f with index } : Column) ∈ (S.decl r.type).columns :=
    (TypeDecl.mem_columns_iff _).mpr hf
  rw [set_eq, Schema.placement_of_plain hplain hc]
  dsimp only
  cases f.kind.admit? S v <;> rfl

/-- **A field keeps what it takes.** -/
theorem set_of_takes (hplain : (r.decl S).Plain) (hf : (r.decl S).fields[index]? = some f)
    (h : f.kind.Takes v) : r.set S index v = .ok (r.place (.put index (f.kind.kept S v))) := by
  rw [set_eq_of_plain hplain hf, h.admit?_eq]

/-- **A field refuses all else.** -/
theorem set_of_not_takes (hplain : (r.decl S).Plain) (hf : (r.decl S).fields[index]? = some f)
    (h : ¬ f.kind.Takes v) :
    r.set S index v = .error (.rejected r.type f.name f.kind v.shapeName) := by
  rw [set_eq_of_plain hplain hf, FieldKind.admit?_eq_none h]

theorem exists_set_iff_takes (hplain : (r.decl S).Plain)
    (hf : (r.decl S).fields[index]? = some f) :
    (∃ r', r.set S index v = .ok r') ↔ f.kind.Takes v := by
  by_cases h : f.kind.Takes v
  · exact iff_of_true ⟨_, set_of_takes hplain hf h⟩ h
  · refine iff_of_false ?_ h
    rintro ⟨r', hset⟩
    rw [set_of_not_takes hplain hf h] at hset
    cases hset

/-- A cell that was put in the place of an ordinary field can be read there. -/
theorem get?_place_self (hplain : (r.decl S).Plain) (hwhole : r.Whole S)
    (hf : (r.decl S).fields[index]? = some f) (cell : Value) :
    (r.place (.put index cell)).get? S index = some cell := by
  have hlt : index < r.cells.length := by
    rw [hwhole]
    exact (List.getElem?_eq_some_iff.mp hf).1
  rw [place_put, get?_eq_getElem? (r := ⟨r.type, r.cells.set index cell⟩) hplain
    ((List.length_set ..).trans hwhole)]
  exact List.getElem?_set_self hlt

/-- A change in one place leaves the others as they were. -/
theorem get?_place_of_ne {other : Nat} {p : Placement} (h : other ≠ p.index) :
    (r.place p).get? S other = r.get? S other := by
  rw [get?, get?, place, List.getElem?_modify_ne _ _ (Ne.symm h)]
  rfl

/-- Writing what a field holds changes nothing. -/
theorem set_of_get? (hplain : (r.decl S).Plain) (htyped : r.Typed S)
    (hf : (r.decl S).fields[index]? = some f) (hkind : f.kind.unsupported? = none)
    (hv : r.get? S index = some v) : r.set S index v = .ok r := by
  rw [get?_eq_getElem? hplain htyped.whole] at hv
  have hholds : f.kind.Holds v := htyped.holds index f v hf hv hkind
  obtain ⟨hlt, hcell⟩ := List.getElem?_eq_some_iff.mp hv
  rw [set_of_takes hplain hf (.held hholds), hholds.kept_eq, place_put, ← hcell,
    List.set_getElem_self]

/-! ### Records hold what they can hold -/

theorem Typed.place (htyped : r.Typed S) (hf : (r.decl S).fields[index]? = some f) {cell : Value}
    (hcell : f.kind.Holds cell) : (r.place (.put index cell)).Typed S := by
  rw [place_put]
  refine ⟨(List.length_set ..).trans htyped.whole, fun other g w hg hw hkind => ?_⟩
  by_cases hother : other = index
  · subst hother
    obtain rfl : f = g := Option.some.inj (hf.symm.trans hg)
    obtain ⟨hlt, rfl⟩ := List.getElem?_eq_some_iff.mp hw
    exact (List.getElem_set_self hlt).symm ▸ hcell
  · rw [List.getElem?_set_ne (Ne.symm hother)] at hw
    exact htyped.holds other g w hg hw hkind

/-- Where every field was asked for a value of its kind, it holds what it can hold. -/
theorem typed_of_fitsWhere {asked : FieldDecl → Bool}
    (hasked : ∀ f ∈ (r.decl S).fields, asked f = true) (h : r.fitsWhere S.decl asked = true) :
    r.Typed S := by
  obtain ⟨hwhole, hcells⟩ := fitsWhere_iff.mp h
  refine ⟨hwhole, fun index f v hf hv hkind => ?_⟩
  exact FieldKind.holds_of_fits hkind
    (hcells index f v hf hv (hasked f (List.mem_of_getElem? hf)))

/-- A record that fits has nothing in its fields but what they can hold. -/
theorem typed_of_fits (hplain : (r.decl S).Plain) (h : r.fits S = true) : r.Typed S :=
  typed_of_fitsWhere (fun f hf => FieldDecl.readable_of_declared (hplain f hf)) h

/-- Records hold what they can hold from the start. -/
theorem typed_initial {t : TypeId} (hplain : (S.decl t).Plain) : (initial S t).Typed S :=
  typed_of_fitsWhere (fun f hf => by simp [hplain f hf]) (initial_fitsWhere t)

/-! ### Many writes -/

/-- A write does not change what kind of record it is. -/
theorem decl_write (r : Record) (index : Nat) (v : Value) :
    (r.write S index v).decl S = r.decl S := by
  rw [write, set_eq]
  cases S.placement r.type index v <;> rfl

theorem Typed.write (hplain : (r.decl S).Plain) (htyped : r.Typed S) (index : Nat) (v : Value) :
    (r.write S index v).Typed S := by
  rw [Record.write]
  cases hf : (r.decl S).fields[index]? with
  | none =>
    rw [set, hf]
    exact htyped
  | some f =>
    by_cases htakes : f.kind.Takes v
    · rw [set_of_takes hplain hf htakes]
      exact htyped.place hf htakes.holds_kept
    · rw [set_of_not_takes hplain hf htakes]
      exact htyped

/-- **Writes, refused or not, leave a record with what its fields can hold.** By induction on the
writes. -/
theorem typed_writeAll (hplain : (r.decl S).Plain) (htyped : r.Typed S)
    (writes : List (Nat × Value)) :
    (r.writeAll S writes).decl S = r.decl S ∧ (r.writeAll S writes).Typed S := by
  induction writes generalizing r with
  | nil => exact ⟨rfl, htyped⟩
  | cons w writes ih =>
    have hdecl := decl_write (S := S) r w.1 w.2
    obtain ⟨hdecl', htyped'⟩ := ih (hdecl ▸ hplain) (htyped.write hplain w.1 w.2)
    exact ⟨hdecl'.trans hdecl, htyped'⟩

/-- A field reads the same after a write to another field and after one that it refuses. -/
theorem get?_write_of_not_taken (hplain : (r.decl S).Plain)
    (hf : (r.decl S).fields[index]? = some f) {position : Nat}
    (h : position = index → ¬ f.kind.Takes v) :
    (r.write S position v).get? S index = r.get? S index := by
  by_cases hposition : position = index
  · subst hposition
    rw [write, set_of_not_takes hplain hf (h rfl)]
  · rw [write, set]
    cases (r.decl S).fields[position]? with
    | none => rfl
    | some g =>
      dsimp only
      cases g.write S r.type v with
      | error e => rfl
      | ok change =>
        exact get?_place_of_ne (p := ⟨position, change⟩) (Ne.symm hposition)

theorem get?_writeAll_of_not_taken (hplain : (r.decl S).Plain)
    (hf : (r.decl S).fields[index]? = some f) {writes : List (Nat × Value)}
    (h : ∀ w ∈ writes, w.1 = index → ¬ f.kind.Takes w.2) :
    (r.writeAll S writes).get? S index = r.get? S index := by
  induction writes generalizing r with
  | nil => rfl
  | cons w writes ih =>
    obtain ⟨hw, hwrites⟩ := List.forall_mem_cons.mp h
    have hdecl := decl_write (S := S) r w.1 w.2
    exact (ih (hdecl ▸ hplain) (hdecl ▸ hf) hwrites).trans (get?_write_of_not_taken hplain hf hw)

/-- **The last write that a field takes decides what it reads.** -/
theorem get?_writeAll (hplain : (r.decl S).Plain) (htyped : r.Typed S)
    (hf : (r.decl S).fields[index]? = some f) {before after : List (Nat × Value)}
    (hv : f.kind.Takes v) (hafter : ∀ w ∈ after, w.1 = index → ¬ f.kind.Takes w.2) :
    (r.writeAll S (before ++ (index, v) :: after)).get? S index = some (f.kind.kept S v) := by
  obtain ⟨hdecl, htyped'⟩ := typed_writeAll hplain htyped before
  have hplain' : ((r.writeAll S before).decl S).Plain := hdecl ▸ hplain
  have hf' : ((r.writeAll S before).decl S).fields[index]? = some f := hdecl ▸ hf
  have hsame := decl_write (S := S) (r.writeAll S before) index v
  have hrest : (((r.writeAll S before).write S index v).writeAll S after).get? S index =
      ((r.writeAll S before).write S index v).get? S index :=
    get?_writeAll_of_not_taken (hsame ▸ hplain') (hsame ▸ hf') hafter
  rw [writeAll, List.foldl_append, List.foldl_cons, ← writeAll, ← writeAll, hrest, write,
    set_of_takes hplain' hf' hv]
  exact get?_place_self hplain' htyped'.whole hf' _

/-! ### The laws -/

/-- **Reading and writing obey their laws**, for every ordinary record whose fields hold what they
can hold, every field of it and every value.

A write succeeds exactly when the field takes the value. After it the field reads what it has kept,
and no other field reads anything else than before. After a write that was refused no field does,
and the error names the type, the field, its kind and what the value is. What a field reads, which
is something, can be written back to it and changes nothing, unless the field cannot be copied and
refuses all writes. By name one reads and writes the first field of that name. -/
theorem accessors_lawful (S : Schema) (r : Record) (hplain : (r.decl S).Plain)
    (htyped : r.Typed S) :
    (∀ (index : Nat) f, (r.decl S).fields[index]? = some f →
      (∀ v, (∃ r', r.set S index v = .ok r') ↔ f.kind.Takes v) ∧
      (∀ v r', r.set S index v = .ok r' → r'.type = r.type ∧
        r'.get? S index = some (f.kind.kept S v) ∧
        ∀ other, other ≠ index → r'.get? S other = r.get? S other) ∧
      (∀ v e, r.set S index v = .error e →
        e = .rejected r.type f.name f.kind v.shapeName ∧
        ∀ other, (r.write S index v).get? S other = r.get? S other) ∧
      (f.kind.unsupported? = none → ∃ v, r.get? S index = some v ∧ r.set S index v = .ok r)) ∧
    ∀ name index, (r.decl S).FirstNamed name index →
      r.getByName? S name = r.get? S index ∧
        ∀ v, r.setByName S name v = r.set S index v := by
  refine ⟨fun index f hf => ⟨fun v => exists_set_iff_takes hplain hf, ?_, ?_, ?_⟩,
    fun name index h => ⟨getByName?_of_firstNamed h, setByName_of_firstNamed h⟩⟩
  · intro v r' hset
    have htakes : f.kind.Takes v := (exists_set_iff_takes hplain hf).mp ⟨r', hset⟩
    rw [set_of_takes hplain hf htakes] at hset
    cases hset
    exact ⟨rfl, get?_place_self hplain htyped.whole hf _, fun other h => get?_place_of_ne h⟩
  · intro v e hset
    refine ⟨?_, fun other => by rw [write, hset]⟩
    by_cases htakes : f.kind.Takes v
    · rw [set_of_takes hplain hf htakes] at hset
      cases hset
    · rw [set_of_not_takes hplain hf htakes] at hset
      exact (Except.error.inj hset).symm
  · intro hkind
    have hc : ({ f with index } : Column) ∈ (r.decl S).columns :=
      (TypeDecl.mem_columns_iff _).mpr hf
    obtain ⟨v, hread⟩ := exists_get? hplain htyped.whole hc
    exact ⟨v, hread, set_of_get? hplain htyped hf hkind hread⟩

/-- A model of a parcel has a place of origin that has to be there, so nothing written to it reads
as the initial place. A name instead of a place is refused, and the place that it has is taken. -/
theorem accessors_lawful_parcel :
    let S := Parcels.schema
    let r := Parcels.usedParcel
    (r.decl S).Plain ∧ r.Typed S ∧ r.getByName? S "from" = r.get? S 1 ∧
      (∃ r', r.set S 1 .null = .ok r' ∧ r'.get? S 1 = some (initial S ⟨3⟩).toValue ∧
        r'.get? S 5 = r.get? S 5) ∧
      r.set S 1 (.string "Bern") =
        .error (.rejected ⟨2⟩ "from" (.nested ⟨3⟩ false) "string") ∧
      ∃ v, r.get? S 1 = some v ∧ r.set S 1 v = .ok r := by
  intro S r
  have hplain : (r.decl S).Plain := Parcels.plain _
  have htyped : r.Typed S := typed_of_fits hplain (by decide)
  have hf : (r.decl S).fields[1]? = some ⟨"from", .nested ⟨3⟩ false, false, .declared⟩ := rfl
  have hcolumn : (r.decl S).column? "from" =
      some ⟨⟨"from", .nested ⟨3⟩ false, false, .declared⟩, 1⟩ := rfl
  have hnamed : (r.decl S).FirstNamed "from" 1 :=
    ((TypeDecl.column?_eq_some_iff_firstNamed _).mp hcolumn).2
  obtain ⟨hfield, hname⟩ := accessors_lawful S r hplain htyped
  obtain ⟨htakes, hreads, hrefuses, hrestores⟩ := hfield 1 _ hf
  obtain ⟨r', hset⟩ := (htakes .null).mpr (.initialRecord ⟨3⟩)
  obtain ⟨-, hfrom, hother⟩ := hreads _ r' hset
  refine ⟨hplain, htyped, (hname _ _ hnamed).1, ⟨r', hset, hfrom, hother 5 (by decide)⟩, ?_,
    hrestores rfl⟩
  cases hbern : r.set S 1 (.string "Bern") with
  | ok r' =>
    have hrecord := (htakes (.string "Bern")).mp ⟨r', hbern⟩
    cases hrecord with
    | held h => cases h
  | error e => rw [(hrefuses _ e hbern).1]; rfl

end Record

end Crosswalk
