import Crosswalk.Record
import Mathlib.Data.List.Nodup

/-!
# Columns and their names

A plan is made by looking fields up by name and is carried out, in one of the tiers, by position.
The two ways of reaching a field agree as long as no name repeats, and this module says so for one
declaration: positions and columns correspond (`getElem?_columns`), no name is reported as repeated
exactly when the names are distinct (`repeatedName?_eq_none_iff`), and then the first column of a
name is the only one (`column?_eq_some_iff`). Otherwise it is the first repeated name that is
reported (`repeatedName?_eq_some_iff`). Whether names repeat or not, looking a name up finds
the first column that has it (`column?_eq_some_iff_firstNamed`), and that field of a record is the
one that is read and written by name.
-/

namespace Crosswalk.TypeDecl

variable (d : TypeDecl)

/-- The names of the fields, in order. -/
def names : List String := d.fields.map (·.name)

/-! ### Positions -/

theorem getElem?_columns (index : Nat) :
    d.columns[index]? = d.fields[index]?.map fun f => { f with index } := by
  rw [columns, List.getElem?_mapIdx]

/-- A column knows the field it was made of and where that field stands. -/
theorem mem_columns_iff {c : Column} :
    c ∈ d.columns ↔ d.fields[c.index]? = some c.toFieldDecl := by
  rw [List.mem_iff_getElem?]
  constructor
  · rintro ⟨index, h⟩
    rw [getElem?_columns, Option.map_eq_some_iff] at h
    obtain ⟨f, hf, rfl⟩ := h
    exact hf
  · intro h
    exact ⟨c.index, by rw [getElem?_columns, h, Option.map_some]⟩

theorem map_toFieldDecl_columns : d.columns.map Column.toFieldDecl = d.fields := by
  refine List.ext_getElem? fun index => ?_
  rw [List.getElem?_map, getElem?_columns, Option.map_map]
  exact Option.map_id'

theorem map_name_columns : d.columns.map (·.name) = d.names := by
  rw [names, ← map_toFieldDecl_columns, List.map_map]
  rfl

theorem readableAt_iff {d : TypeDecl} {index : Nat} :
    d.readableAt index = true ↔ ∃ f, d.fields[index]? = some f ∧ f.readable = true := by
  simp [readableAt, Option.any_eq_true]

/-! ### Names -/

theorem firstRepeat_eq_none_iff {earlier : List String} :
    ∀ {names : List String}, firstRepeat earlier names = none ↔
      names.Nodup ∧ ∀ name ∈ names, name ∉ earlier
  | [] => by simp [firstRepeat]
  | name :: rest => by
    by_cases h : name ∈ earlier
    · simp [firstRepeat, h]
    · rw [firstRepeat, if_neg h, firstRepeat_eq_none_iff, List.nodup_cons]
      constructor
      · rintro ⟨hrest, hnew⟩
        refine ⟨⟨fun hmem => hnew name hmem List.mem_cons_self, hrest⟩, fun other hother => ?_⟩
        rcases List.mem_cons.mp hother with rfl | hother
        · exact h
        · exact fun hmem => hnew other hother (List.mem_cons_of_mem _ hmem)
      · rintro ⟨⟨hname, hrest⟩, hnew⟩
        refine ⟨hrest, fun other hother hmem => ?_⟩
        rcases List.mem_cons.mp hmem with rfl | hmem
        · exact hname hother
        · exact hnew other (List.mem_cons_of_mem _ hother) hmem

/-- **Only distinct names pass.** -/
theorem repeatedName?_eq_none_iff : d.repeatedName? = none ↔ d.names.Nodup := by
  rw [repeatedName?, firstRepeat_eq_none_iff, names]
  exact ⟨And.left, fun h => ⟨h, fun _ _ => List.not_mem_nil⟩⟩

/-- The name at the least position of which an earlier position has the name already. -/
def FirstRepeated (name : String) : Prop :=
  ∃ index, d.names[index]? = some name ∧ name ∈ d.names.take index ∧
    ∀ earlier < index, ∀ other, d.names[earlier]? = some other → other ∉ d.names.take earlier

/-- With names seen before, the first repeat is at the least position of which the name was seen
before or stands at an earlier position. -/
theorem firstRepeat_eq_some_iff {repeated : String} {seen : List String} :
    ∀ {names : List String}, firstRepeat seen names = some repeated ↔
      ∃ index, names[index]? = some repeated ∧
        (repeated ∈ seen ∨ repeated ∈ names.take index) ∧
        ∀ earlier < index, ∀ other, names[earlier]? = some other →
          other ∉ seen ∧ other ∉ names.take earlier
  | [] => by simp [firstRepeat]
  | name :: rest => by
    by_cases h : name ∈ seen
    · rw [firstRepeat, if_pos h, Option.some.injEq]
      constructor
      · rintro rfl
        exact ⟨0, rfl, .inl h, fun _ hlt => absurd hlt (Nat.not_lt_zero _)⟩
      · rintro ⟨_ | index, hname, -, hearlier⟩
        · exact Option.some.inj hname
        · exact absurd h (hearlier 0 (Nat.succ_pos _) name rfl).1
    · rw [firstRepeat, if_neg h, firstRepeat_eq_some_iff]
      constructor
      · rintro ⟨index, hname, hbefore, hearlier⟩
        refine ⟨index + 1, hname, ?_, fun j hj other hother => ?_⟩
        · simpa [or_left_comm, or_assoc] using hbefore
        · obtain _ | j := j
          · cases hother
            exact ⟨h, by simp⟩
          · have hne := hearlier j (Nat.lt_of_succ_lt_succ hj) other hother
            simpa [and_assoc, and_left_comm] using hne
      · rintro ⟨_ | index, hname, hbefore, hearlier⟩
        · cases hname
          simp [h] at hbefore
        · refine ⟨index, hname, ?_, fun j hj other hother => ?_⟩
          · simpa [or_left_comm, or_assoc] using hbefore
          · simpa [and_assoc, and_left_comm] using
              hearlier (j + 1) (Nat.succ_lt_succ hj) other hother

/-- **The name that is reported is the first repeated one.** -/
theorem repeatedName?_eq_some_iff {name : String} :
    d.repeatedName? = some name ↔ d.FirstRepeated name := by
  rw [repeatedName?, firstRepeat_eq_some_iff]
  simp only [List.not_mem_nil, false_or, not_false_eq_true, true_and]
  rfl

theorem mem_of_column? {name : String} {c : Column} (h : d.column? name = some c) :
    c ∈ d.columns ∧ c.name = name :=
  ⟨List.mem_of_find?_eq_some h, by simpa using List.find?_some h⟩

/-- The field at the position is the first one of the name. -/
def FirstNamed (name : String) (index : Nat) : Prop :=
  (∃ f, d.fields[index]? = some f ∧ f.name = name) ∧
    ∀ earlier < index, ∀ f, d.fields[earlier]? = some f → f.name ≠ name

/-- Looking a name up finds the column at the first position of the name. -/
theorem column?_eq_some_iff_firstNamed {name : String} {c : Column} :
    d.column? name = some c ↔ c ∈ d.columns ∧ d.FirstNamed name c.index := by
  rw [column?, List.find?_eq_some_iff_getElem]
  constructor
  · rintro ⟨hname, index, hlt, hc, hearlier⟩
    have hfield : d.columns[index]? = some c := List.getElem?_eq_some_iff.mpr ⟨hlt, hc⟩
    obtain ⟨f, hf, rfl⟩ := Option.map_eq_some_iff.mp ((d.getElem?_columns index).symm.trans hfield)
    refine ⟨List.mem_of_getElem? hfield, ⟨f, hf, by simpa using hname⟩, fun j hj g hg => ?_⟩
    have hcolumn : d.columns[j]? = some { g with index := j } := by
      rw [getElem?_columns, hg, Option.map_some]
    have hne := hearlier j hj
    rw [(List.getElem?_eq_some_iff.mp hcolumn).2] at hne
    simpa using hne
  · rintro ⟨hc, ⟨f, hf, hname⟩, hearlier⟩
    rw [mem_columns_iff] at hc
    rw [hc, Option.some.injEq] at hf
    have hcolumn : d.columns[c.index]? = some c := by
      rw [getElem?_columns, hc, Option.map_some]
    obtain ⟨hlt, hget⟩ := List.getElem?_eq_some_iff.mp hcolumn
    refine ⟨by simpa [hf] using hname, c.index, hlt, hget, fun j hj => ?_⟩
    have hj' : d.columns[j]? = some d.columns[j] := List.getElem?_eq_getElem _
    rw [getElem?_columns, Option.map_eq_some_iff] at hj'
    obtain ⟨g, hg, heq⟩ := hj'
    rw [← heq]
    simpa using hearlier j hj g hg

/-- Where there is a first field of a name, looking the name up finds its column. -/
theorem exists_column?_of_firstNamed {name : String} {index : Nat} (h : d.FirstNamed name index) :
    ∃ c, d.column? name = some c ∧ c.index = index := by
  obtain ⟨f, hf, -⟩ := h.1
  have hc : { f with index } ∈ d.columns := (d.mem_columns_iff).mpr hf
  exact ⟨{ f with index }, d.column?_eq_some_iff_firstNamed.mpr ⟨hc, h⟩, rfl⟩

variable {d}

/-- When names are distinct, a column is determined by its name. -/
theorem eq_of_name_eq (hd : d.names.Nodup) {a b : Column} (ha : a ∈ d.columns)
    (hb : b ∈ d.columns) (h : a.name = b.name) : a = b := by
  rw [← map_name_columns] at hd
  exact List.inj_on_of_nodup_map hd ha hb h

/-- When names are distinct, the first column of a name is the only one. -/
theorem column?_eq_some_iff (hd : d.names.Nodup) {name : String} {c : Column} :
    d.column? name = some c ↔ c ∈ d.columns ∧ c.name = name := by
  refine ⟨d.mem_of_column?, ?_⟩
  rintro ⟨hc, rfl⟩
  cases hfound : d.column? c.name with
  | none =>
    have := List.find?_eq_none.mp hfound c hc
    simp at this
  | some c' =>
    obtain ⟨hc', hname⟩ := d.mem_of_column? hfound
    rw [eq_of_name_eq hd hc' hc hname]

end Crosswalk.TypeDecl

namespace Crosswalk.Record

variable {S : Schema} {r : Record} {name : String} {index : Nat}

/-- By name one reads the first field of the name. -/
theorem getByName?_of_firstNamed (h : (r.decl S).FirstNamed name index) :
    r.getByName? S name = r.get? S index := by
  obtain ⟨c, hc, rfl⟩ := TypeDecl.exists_column?_of_firstNamed _ h
  rw [getByName?, hc, Option.bind_some]

/-- By name one writes to the first field of the name. -/
theorem setByName_of_firstNamed (h : (r.decl S).FirstNamed name index) (v : Value) :
    r.setByName S name v = r.set S index v := by
  obtain ⟨c, hc, rfl⟩ := TypeDecl.exists_column?_of_firstNamed _ h
  rw [setByName, hc]

end Crosswalk.Record
