import Crosswalk.Proofs.Accounting

/-!
# The fields that two types share

The links of a plan can be told from the two declarations without making the plan. A type *copies*
a name if it declares a field of that name, and of a kind that can be copied; a plan links the names
that both of its types copy, in the order in which the model declares them
(`Plan.fieldNames_eq_filter`), and joins for each of them the two fields that have it
(`Plan.exists_columns`). There is no plan exactly when a type repeats a name, and the complaint is
about the first repeated name of the wire type if it has one (`Plan.resolve_eq_error_iff_repeats`).
`Plan.resolve_joins_shared` puts this together.

The tier that is bound to positions looks at no name any more when it runs. That it reads and writes
the fields which the names stand for is what the last part is about: the stored positions are those
of the named fields, on the source and on the target side, and no position serves two links.
-/

namespace Crosswalk

namespace TypeDecl

/-- The type declares a field of this name, and of a kind that can be copied. -/
def Copies (d : TypeDecl) (name : String) : Prop :=
  ∃ f ∈ d.fields, f.name = name ∧ f.kind.unsupported? = none

instance (d : TypeDecl) (name : String) : Decidable (d.Copies name) :=
  inferInstanceAs (Decidable (∃ f ∈ d.fields, f.name = name ∧ f.kind.unsupported? = none))

variable {d : TypeDecl}

theorem Copies.mem_names {name : String} (h : d.Copies name) : name ∈ d.names := by
  obtain ⟨f, hf, rfl, -⟩ := h
  exact List.mem_map_of_mem hf

/-- A field is in the type exactly when it stands in some column. -/
theorem mem_fields_iff {f : FieldDecl} : f ∈ d.fields ↔ ∃ c ∈ d.columns, c.toFieldDecl = f := by
  rw [← d.map_toFieldDecl_columns, List.mem_map]

/-- Looking a copied name up finds a column that can be copied, if no name repeats. -/
theorem copies_iff (hd : d.names.Nodup) {name : String} :
    d.Copies name ↔ ∃ c, d.column? name = some c ∧ c.kind.unsupported? = none := by
  constructor
  · rintro ⟨f, hf, hname, hsupported⟩
    obtain ⟨c, hc, rfl⟩ := mem_fields_iff.mp hf
    exact ⟨c, (column?_eq_some_iff hd).mpr ⟨hc, hname⟩, hsupported⟩
  · rintro ⟨c, hcolumn, hsupported⟩
    obtain ⟨hc, hname⟩ := (column?_eq_some_iff hd).mp hcolumn
    exact ⟨c.toFieldDecl, mem_fields_iff.mpr ⟨c, hc, rfl⟩, hname, hsupported⟩

/-- A column's name is copied exactly when the column can be. -/
theorem copies_name_iff (hd : d.names.Nodup) {c : Column} (hc : c ∈ d.columns) :
    d.Copies c.name ↔ c.kind.unsupported? = none := by
  rw [copies_iff hd]
  constructor
  · rintro ⟨c', hcolumn, hsupported⟩
    rw [(column?_eq_some_iff hd).mpr ⟨hc, rfl⟩, Option.some.injEq] at hcolumn
    rwa [hcolumn]
  · intro hsupported
    exact ⟨c, (column?_eq_some_iff hd).mpr ⟨hc, rfl⟩, hsupported⟩

end TypeDecl

/-! ### The two ends of a link, by name and by position -/

/-- The link joins the fields that are found under its name: its positions are theirs, and so are
its kinds. -/
structure Link.JoinsNamed (S : Schema) (key : PlanKey) (l : Link) (source target : Column) :
    Prop where
  source_found : (S.decl key.source).column? l.name = some source
  target_found : (S.decl key.target).column? l.name = some target
  source_at : (S.decl key.source).columnAt? l.sourceIndex = some source
  target_at : (S.decl key.target).columnAt? l.targetIndex = some target
  sourceKind_eq : l.sourceKind = source.kind
  targetKind_eq : l.targetKind = target.kind
  transfer_eq : l.transfer = .between source.kind target.kind key.direction

namespace Plan

variable {S : Schema} {key : PlanKey} {plan : Plan}

/-! ### When there is no plan -/

/-- **Only a repeated name stands in the way of a plan.** The first one of the wire type is named,
or else the first one of the model. -/
theorem resolve_eq_error_iff_repeats {e : RepeatedField} : resolve S key = .error e ↔
    e.key = key ∧
      ((e.type = key.pair.wire ∧ (S.decl key.pair.wire).FirstRepeated e.field) ∨
        ((S.decl key.pair.wire).names.Nodup ∧ e.type = key.pair.model ∧
          (S.decl key.pair.model).FirstRepeated e.field)) := by
  obtain ⟨k, type, field⟩ := e
  rw [← TypeDecl.repeatedName?_eq_none_iff, ← TypeDecl.repeatedName?_eq_some_iff,
    ← TypeDecl.repeatedName?_eq_some_iff, resolve]
  cases hw : (S.decl key.pair.wire).repeatedName? with
  | some field =>
    simp only [Except.error.injEq, RepeatedField.mk.injEq, Option.some.injEq, reduceCtorEq,
      false_and, or_false]
    simp only [eq_comm]
  | none =>
    cases hm : (S.decl key.pair.model).repeatedName? with
    | some field =>
      simp only [Except.error.injEq, RepeatedField.mk.injEq, Option.some.injEq, reduceCtorEq,
        and_false, false_or, true_and]
      simp only [eq_comm]
    | none => simp

/-! ### Which names are linked -/

/-- A model column is joined with a wire column exactly when both types copy its name. -/
theorem isSome_partner?_iff {wire model : TypeDecl} (hw : wire.names.Nodup) (hm : model.names.Nodup)
    {m : Column} (hmem : m ∈ model.columns) :
    (partner? wire m).isSome = true ↔ wire.Copies m.name ∧ model.Copies m.name := by
  rw [Option.isSome_iff_exists, TypeDecl.copies_iff hw, TypeDecl.copies_name_iff hm hmem]
  simp only [partner?_eq_some_iff]
  constructor
  · rintro ⟨w, hms, hcolumn, hws⟩
    exact ⟨⟨w, hcolumn, hws⟩, hms⟩
  · rintro ⟨⟨w, hcolumn, hws⟩, hms⟩
    exact ⟨w, hms, hcolumn, hws⟩

/-- **The names that both types copy are linked**, in the order of the model. -/
theorem fieldNames_eq_filter (h : resolve S key = .ok plan) :
    plan.fieldNames = (S.decl key.pair.model).names.filter fun name =>
      (S.decl key.pair.wire).Copies name ∧ (S.decl key.pair.model).Copies name := by
  obtain ⟨hw, hm, rfl⟩ := resolve_eq_ok_iff.mp h
  rw [fieldNames_ofDecls, ← TypeDecl.map_name_columns (S.decl key.pair.model), List.filter_map]
  congr 1
  refine List.filter_congr fun m hmem => ?_
  rw [Bool.eq_iff_iff, isSome_partner?_iff hw hm hmem, Function.comp_apply, decide_eq_true_eq]

/-- A name is linked exactly when both types copy it. -/
theorem mem_fieldNames_iff (h : resolve S key = .ok plan) {name : String} :
    name ∈ plan.fieldNames ↔
      (S.decl key.pair.wire).Copies name ∧ (S.decl key.pair.model).Copies name := by
  rw [fieldNames_eq_filter h, List.mem_filter, decide_eq_true_eq]
  exact ⟨And.right, fun hcopies => ⟨hcopies.2.mem_names, hcopies⟩⟩

/-! ### Which fields are linked -/

/-- **Every link joins the two fields of its name.** -/
theorem exists_columns (h : resolve S key = .ok plan) {l : Link} (hl : l ∈ plan.links) :
    ∃ source target, l.JoinsNamed S key source target := by
  obtain ⟨source, target, hjoins⟩ := exists_joins h hl
  have found {d : TypeDecl} (hd : d.names.Nodup) {c : Column} (hc : c ∈ d.columns)
      (hname : c.name = l.name) : d.column? l.name = some c :=
    (TypeDecl.column?_eq_some_iff hd).mpr ⟨hc, hname⟩
  have stands {d : TypeDecl} {index : Nat} {c : Column} (hc : c ∈ d.columns)
      (hindex : index = c.index) : d.columnAt? index = some c := by
    rw [TypeDecl.columnAt?, hindex, TypeDecl.getElem?_columns, d.mem_columns_iff.mp hc]
    rfl
  exact ⟨source, target, {
    source_found := found (source_nodup h) hjoins.source_mem hjoins.source_name
    target_found := found (target_nodup h) hjoins.target_mem hjoins.target_name
    source_at := stands hjoins.source_mem hjoins.sourceIndex_eq
    target_at := stands hjoins.target_mem hjoins.targetIndex_eq
    sourceKind_eq := hjoins.sourceKind_eq
    targetKind_eq := hjoins.targetKind_eq
    transfer_eq := hjoins.transfer_eq }⟩

/-- **A plan joins what its two types share.** There is no plan exactly when a type repeats a field
name, and then the first repeated name of the wire type is reported, or that of the model if the
wire type has none. The links of a plan are named, in the order of the model and each once, after
the fields that both types declare and can copy. Each of them has the positions and the kinds of the
two fields that its name finds, and the transfer between these kinds; and no two links read from one
position or write to one. -/
theorem resolve_joins_shared (S : Schema) (key : PlanKey) :
    let wire := S.decl key.pair.wire
    let model := S.decl key.pair.model
    ((∃ e, resolve S key = .error e) ↔ ¬ wire.names.Nodup ∨ ¬ model.names.Nodup) ∧
      (∀ e, resolve S key = .error e ↔ e.key = key ∧
        ((e.type = key.pair.wire ∧ wire.FirstRepeated e.field) ∨
          (wire.names.Nodup ∧ e.type = key.pair.model ∧ model.FirstRepeated e.field))) ∧
      ∀ plan, resolve S key = .ok plan →
        plan.fieldNames =
            model.names.filter (fun name => wire.Copies name ∧ model.Copies name) ∧
          plan.fieldNames.Nodup ∧
          (∀ l ∈ plan.links, ∃ source target, l.JoinsNamed S key source target) ∧
          (plan.links.map (·.sourceIndex)).Nodup ∧ (plan.links.map (·.targetIndex)).Nodup := by
  intro wire model
  refine ⟨resolve_eq_error_iff, fun e => resolve_eq_error_iff_repeats, fun plan h => ?_⟩
  exact ⟨fieldNames_eq_filter h, names_nodup h, fun l hl => exists_columns h hl,
    sourceIndices_nodup h, targetIndices_nodup h⟩

end Plan

end Crosswalk
