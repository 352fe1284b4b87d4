import Crosswalk.Proofs.Fitting

/-!
# Names and positions determine each other

A field can be asked for by name or by position. The position of a field is part of its column, so
from a position one always gets to a name. The way back is a scan for the first field of the name,
and ends at another field if an earlier one has the name too.

`TypeDecl.lookup_lawful` says that this is the only way in which the two can differ. Whether any
name repeats is found by a scan of its own, over the fields and for each over those before it. It
reports nothing exactly for the declarations where every field is found by its name, and there a
record gives by name what it gives by position.
-/

namespace Crosswalk

namespace TypeDecl

variable {d : TypeDecl} {name : String} {index : Nat} {c : Column}

theorem columnAt?_eq (d : TypeDecl) (index : Nat) :
    d.columnAt? index = d.fields[index]?.map fun f => { f with index } :=
  d.getElem?_columns index

/-- A column knows where it stands. -/
theorem index_of_columnAt? (h : d.columnAt? index = some c) : c.index = index := by
  rw [columnAt?_eq, Option.map_eq_some_iff] at h
  obtain ⟨f, -, rfl⟩ := h
  rfl

theorem columnAt?_index_iff : d.columnAt? c.index = some c ↔ c ∈ d.columns := by
  rw [mem_columns_iff, columnAt?_eq, Option.map_eq_some_iff]
  constructor
  · rintro ⟨f, hf, hc⟩
    rwa [← congrArg Column.toFieldDecl hc]
  · exact fun h => ⟨c.toFieldDecl, h, rfl⟩

/-- Nothing is found under a name that no field has. -/
theorem column?_eq_none_iff : d.column? name = none ↔ ∀ f ∈ d.fields, f.name ≠ name := by
  rw [column?, List.find?_eq_none, ← map_toFieldDecl_columns, List.forall_mem_map]
  simp only [decide_eq_true_eq, ne_eq]

/-- **Every field is found by its name exactly if the names are distinct.** Of two fields of one
name the later one is never found. -/
theorem nodup_names_iff :
    d.names.Nodup ↔ ∀ index c, d.columnAt? index = some c → d.column? c.name = some c := by
  constructor
  · intro hd index c hc
    exact (column?_eq_some_iff hd).mpr ⟨List.mem_of_getElem? hc, rfl⟩
  · intro h
    rw [List.Nodup, ← map_name_columns, List.pairwise_map, List.pairwise_iff_getElem]
    intro i j hi hj hlt hname
    have hci : d.columnAt? i = some d.columns[i] := List.getElem?_eq_getElem hi
    have hcj : d.columnAt? j = some d.columns[j] := List.getElem?_eq_getElem hj
    have hfound := h i _ hci
    rw [hname, h j _ hcj, Option.some.injEq] at hfound
    have hi' := index_of_columnAt? hci
    have hj' := index_of_columnAt? hcj
    rw [hfound] at hj'
    omega

/-- With distinct names, the field at a position is the first of its name. -/
theorem firstNamed_of_nodup (hd : d.names.Nodup) {f : FieldDecl} (hf : d.fields[index]? = some f) :
    d.FirstNamed f.name index := by
  have hc : { f with index } ∈ d.columns := d.mem_columns_iff.mpr hf
  exact ((column?_eq_some_iff_firstNamed d).mp ((column?_eq_some_iff hd).mpr ⟨hc, rfl⟩)).2

/-- **Lookups by name and by position, and what they have to do with repeated names**, for any list
of fields.

The column at a position is the field there with this position. By name one finds the field of least
position that has the name, or nothing if none has it. The repeated name that is reported is at the
least position that an equal name stands before, and there is none exactly if the names are pairwise
distinct, and also exactly if each field is the one that is found by its name. Then reading and
writing a record by name is reading and writing it by position. -/
theorem lookup_lawful (d : TypeDecl) :
    (∀ index, d.columnAt? index = d.fields[index]?.map fun f => { f with index }) ∧
      (∀ name c, d.column? name = some c ↔
        d.columnAt? c.index = some c ∧ d.FirstNamed name c.index) ∧
      (∀ name, d.column? name = none ↔ ∀ f ∈ d.fields, f.name ≠ name) ∧
      (∀ name, d.repeatedName? = some name ↔ d.FirstRepeated name) ∧
      (d.repeatedName? = none ↔ d.names.Nodup) ∧
      (d.repeatedName? = none ↔
        ∀ index c, d.columnAt? index = some c → d.column? c.name = some c) ∧
      (d.repeatedName? = none → ∀ (S : Schema) (r : Record), r.decl S = d →
        ∀ (index : Nat) f, d.fields[index]? = some f →
          r.getByName? S f.name = r.get? S index ∧
            ∀ v, r.setByName S f.name v = r.set S index v) := by
  refine ⟨columnAt?_eq d, fun name c => ?_, fun name => column?_eq_none_iff,
    fun name => d.repeatedName?_eq_some_iff, d.repeatedName?_eq_none_iff,
    d.repeatedName?_eq_none_iff.trans nodup_names_iff, ?_⟩
  · rw [columnAt?_index_iff]
    exact d.column?_eq_some_iff_firstNamed
  · rintro hnone S r rfl index f hf
    have hnamed := firstNamed_of_nodup ((repeatedName?_eq_none_iff _).mp hnone) hf
    exact ⟨Record.getByName?_of_firstNamed hnamed, Record.setByName_of_firstNamed hnamed⟩

/-- No name repeats in the message of a parcel, so its codes are found at their position. Of the
names of a route `via` is the first to repeat, although `from` is the first that has a repetition,
and its second end is out of reach by name. -/
theorem lookup_lawful_parcel :
    let S := Parcels.schema
    let r := Parcels.parcel
    let stop (name : String) : FieldDecl := ⟨name, .scalar .string false, false, .declared⟩
    let route : TypeDecl := ⟨"Route", [stop "from", stop "via", stop "via", stop "from"]⟩
    (r.decl S).repeatedName? = none ∧ r.getByName? S "codes" = r.get? S 3 ∧
      route.FirstRepeated "via" ∧ route.FirstNamed "from" 0 ∧
      ¬ ∀ index c, route.columnAt? index = some c → route.column? c.name = some c := by
  intro S r stop route
  have hnone : (r.decl S).repeatedName? = none := by decide
  obtain ⟨-, -, -, -, -, -, hreach⟩ := lookup_lawful (r.decl S)
  obtain ⟨-, hfind, -, hrepeated, -, hall, -⟩ := lookup_lawful route
  have hvia : route.repeatedName? = some "via" := by decide
  have hfrom : route.column? "from" = some ⟨stop "from", 0⟩ := rfl
  refine ⟨hnone, (hreach hnone S r rfl 3 _ rfl).1, (hrepeated _).mp hvia,
    ((hfind _ _).mp hfrom).2, fun h => ?_⟩
  rw [hall.mpr h] at hvia
  cases hvia

end TypeDecl

end Crosswalk
