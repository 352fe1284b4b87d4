import Crosswalk.Plan.Report
import Crosswalk.Proofs.SharedFields

/-!
# Why fields are left out

A plan gives a cause for every field that it leaves out, and the log repeats the causes. Are they
true? A field whose own kind cannot be copied is left out for just that reason, on either side, and
a model field is called one-sided exactly when the wire type does not declare its name.

A wire field is called one-sided too often. The wire fields are taken last and are looked for among
the links only, and there a field of the model that cannot be copied does not show. So a wire field
is called one-sided as soon as no field of its name *can be copied* on the side of the model
(`Plan.wire_oneSided_iff`), and of a field whose counterpart is declared with a kind that cannot be
copied the log says that it has no counterpart. `Plan.omission_causes` states which causes are given
to which fields; `Plan.badge_called_oneSided` is a pair of types with an untrue cause.
-/

namespace Crosswalk

/-- The declaration of the record type on a side. -/
def PlanKey.declOn (S : Schema) (key : PlanKey) : Side → TypeDecl
  | .wire => S.decl key.pair.wire
  | .model => S.decl key.pair.model

namespace FieldKind

theorem unsupported?_eq_some_iff {kind : FieldKind} {what : UnsupportedKind} :
    kind.unsupported? = some what ↔ kind = .unsupported what := by
  cases kind <;> simp [unsupported?]

theorem ne_unsupported {kind : FieldKind} (h : kind.unsupported? = none) (what : UnsupportedKind) :
    kind ≠ .unsupported what := by
  rintro rfl
  cases h

end FieldKind

/-- A name is not copied if it is not declared, or if all its fields are of kinds that cannot be
copied. -/
theorem TypeDecl.not_copies_iff {d : TypeDecl} (hd : d.names.Nodup) {name : String} :
    ¬ d.Copies name ↔
      name ∉ d.names ∨ ∃ f ∈ d.fields, f.name = name ∧ f.kind.unsupported?.isSome = true := by
  constructor
  · intro hcopies
    by_cases hname : name ∈ d.names
    · obtain ⟨f, hf, rfl⟩ := List.mem_map.mp hname
      refine .inr ⟨f, hf, rfl, ?_⟩
      rw [Option.isSome_iff_ne_none]
      exact fun hsupported => hcopies ⟨f, hf, rfl, hsupported⟩
    · exact .inl hname
  · rintro (hname | ⟨f, hf, rfl, hunsupported⟩) hcopies
    · exact hname hcopies.mem_names
    · obtain ⟨c, hc, rfl⟩ := mem_fields_iff.mp hf
      rw [(copies_name_iff hd hc).mp hcopies] at hunsupported
      cases hunsupported

namespace Plan

variable {S : Schema} {key : PlanKey} {plan : Plan}

/-! ### The cause that each pass gives -/

theorem modelOmission?_eq_some_iff {wire : TypeDecl} {m : Column} {o : Omission} :
    modelOmission? wire m = some o ↔
      (∃ what, m.kind = .unsupported what ∧ o = ⟨m.name, .model, .unsupported what⟩) ∨
        (m.kind.unsupported? = none ∧ m.name ∉ wire.names ∧ o = ⟨m.name, .model, .oneSided⟩) := by
  have hdeclared : (wire.column? m.name).isSome = true ↔ m.name ∈ wire.names := by
    rw [TypeDecl.column?, List.find?_isSome, ← TypeDecl.map_name_columns, List.mem_map]
    simp only [decide_eq_true_eq]
  rw [modelOmission?]
  cases hkind : m.kind.unsupported? with
  | some what =>
    have := FieldKind.unsupported?_eq_some_iff.mp hkind
    simp [this, eq_comm]
  | none =>
    have hnone := FieldKind.ne_unsupported hkind
    by_cases hname : m.name ∈ wire.names
    · simp [hdeclared.mpr hname, hname, hnone]
    · simp [mt hdeclared.mp hname, hname, hnone, eq_comm]

theorem wireOmission?_eq_some_iff {links : List Link} {w : Column} {o : Omission} :
    wireOmission? links w = some o ↔ w.name ∉ links.map (·.name) ∧
      ((∃ what, w.kind = .unsupported what ∧ o = ⟨w.name, .wire, .unsupported what⟩) ∨
        (w.kind.unsupported? = none ∧ o = ⟨w.name, .wire, .oneSided⟩)) := by
  have hany : links.any (·.name = w.name) = true ↔ w.name ∈ links.map (·.name) := by simp
  rw [wireOmission?]
  by_cases hlinked : w.name ∈ links.map (·.name)
  · rw [if_pos (hany.mpr hlinked)]
    simp only [reduceCtorEq, hlinked, not_true_eq_false, false_and]
  · rw [if_neg (mt hany.mp hlinked)]
    cases hkind : w.kind.unsupported? with
    | some what =>
      have := FieldKind.unsupported?_eq_some_iff.mp hkind
      simp [hlinked, this, eq_comm]
    | none =>
      have hnone := FieldKind.ne_unsupported hkind
      simp [hlinked, hnone, eq_comm]

/-! ### The cause that a plan gives -/

theorem mem_omissions_ofDecls {wire model : TypeDecl} {o : Omission} :
    o ∈ (ofDecls key wire model).omissions ↔
      (∃ m ∈ model.columns, modelOmission? wire m = some o) ∨
        ∃ w ∈ wire.columns, wireOmission? (ofDecls key wire model).links w = some o := by
  simp only [ofDecls, List.mem_append, List.mem_filterMap]

/-- What is left out on the side of the model was left out for the one column of its name. -/
theorem mem_omissions_model_iff (h : resolve S key = .ok plan) {m : Column}
    (hm : m ∈ (S.decl key.pair.model).columns) {cause : OmissionCause} :
    ⟨m.name, .model, cause⟩ ∈ plan.omissions ↔
      modelOmission? (S.decl key.pair.wire) m = some ⟨m.name, .model, cause⟩ := by
  obtain ⟨-, hnodup, rfl⟩ := resolve_eq_ok_iff.mp h
  rw [mem_omissions_ofDecls]
  constructor
  · rintro (⟨m', hm', homission⟩ | ⟨w, -, homission⟩)
    · have hname : m.name = m'.name := (of_modelOmission? homission).2
      rwa [TypeDecl.eq_of_name_eq hnodup hm hm' hname] at homission ⊢
    · exact absurd (of_wireOmission? homission).1 Side.noConfusion
  · exact fun homission => .inl ⟨m, hm, homission⟩

/-- What is left out on the side of the wire was left out for the one column of its name. -/
theorem mem_omissions_wire_iff (h : resolve S key = .ok plan) {w : Column}
    (hw : w ∈ (S.decl key.pair.wire).columns) {cause : OmissionCause} :
    ⟨w.name, .wire, cause⟩ ∈ plan.omissions ↔
      wireOmission? plan.links w = some ⟨w.name, .wire, cause⟩ := by
  obtain ⟨hnodup, -, rfl⟩ := resolve_eq_ok_iff.mp h
  rw [mem_omissions_ofDecls]
  constructor
  · rintro (⟨m, -, homission⟩ | ⟨w', hw', homission⟩)
    · exact absurd (of_modelOmission? homission).1 Side.noConfusion
    · have hname : w.name = w'.name := (of_wireOmission? homission).2
      rwa [TypeDecl.eq_of_name_eq hnodup hw hw' hname] at homission ⊢
  · exact fun homission => .inr ⟨w, hw, homission⟩

/-- **Fields are left out on the side on which they are declared.** -/
theorem name_mem_of_mem_omissions (h : resolve S key = .ok plan) {o : Omission}
    (ho : o ∈ plan.omissions) : o.name ∈ (key.declOn S o.side).names := by
  obtain ⟨-, -, rfl⟩ := resolve_eq_ok_iff.mp h
  rcases mem_omissions_ofDecls.mp ho with ⟨m, hm, homission⟩ | ⟨w, hw, homission⟩
  · obtain ⟨hside, hname⟩ := of_modelOmission? homission
    rw [hside, hname, PlanKey.declOn, ← TypeDecl.map_name_columns]
    exact List.mem_map_of_mem hm
  · obtain ⟨hside, hname⟩ := of_wireOmission? homission
    rw [hside, hname, PlanKey.declOn, ← TypeDecl.map_name_columns]
    exact List.mem_map_of_mem hw

/-- **A field is said to be of a kind that cannot be copied exactly when it is.** -/
theorem unsupported_iff (h : resolve S key = .ok plan) {side : Side} {f : FieldDecl}
    (hf : f ∈ (key.declOn S side).fields) {what : UnsupportedKind} :
    ⟨f.name, side, .unsupported what⟩ ∈ plan.omissions ↔ f.kind = .unsupported what := by
  obtain ⟨c, hc, rfl⟩ := TypeDecl.mem_fields_iff.mp hf
  cases side with
  | model =>
    rw [mem_omissions_model_iff h hc, modelOmission?_eq_some_iff]
    simp
  | wire =>
    rw [mem_omissions_wire_iff h hc, wireOmission?_eq_some_iff]
    -- A field that cannot be copied is not linked, as a linked name is copied on both sides.
    have hlinked : c.kind = .unsupported what → c.name ∉ plan.links.map (·.name) := by
      intro hkind hname
      have hcopies := ((mem_fieldNames_iff h).mp hname).1
      rw [TypeDecl.copies_name_iff (resolve_eq_ok_iff.mp h).1 hc, hkind] at hcopies
      cases hcopies
    simpa using hlinked

/-- A model field is said to be one-sided exactly when it can be copied and the wire type does not
declare its name. -/
theorem model_oneSided_iff (h : resolve S key = .ok plan) {f : FieldDecl}
    (hf : f ∈ (S.decl key.pair.model).fields) :
    ⟨f.name, .model, .oneSided⟩ ∈ plan.omissions ↔
      f.kind.unsupported? = none ∧ f.name ∉ (S.decl key.pair.wire).names := by
  obtain ⟨c, hc, rfl⟩ := TypeDecl.mem_fields_iff.mp hf
  rw [mem_omissions_model_iff h hc, modelOmission?_eq_some_iff]
  simp

/-- **A wire field is said to be one-sided exactly when it can be copied and the model cannot copy
its name**, be it that the name is not declared there or that its field is of a kind that cannot be
copied. -/
theorem wire_oneSided_iff (h : resolve S key = .ok plan) {f : FieldDecl}
    (hf : f ∈ (S.decl key.pair.wire).fields) :
    ⟨f.name, .wire, .oneSided⟩ ∈ plan.omissions ↔
      f.kind.unsupported? = none ∧ ¬ (S.decl key.pair.model).Copies f.name := by
  obtain ⟨c, hc, rfl⟩ := TypeDecl.mem_fields_iff.mp hf
  have hlinked : c.name ∈ plan.links.map (·.name) ↔
      c.kind.unsupported? = none ∧ (S.decl key.pair.model).Copies c.name := by
    rw [← TypeDecl.copies_name_iff (resolve_eq_ok_iff.mp h).1 hc]
    exact mem_fieldNames_iff h
  rw [mem_omissions_wire_iff h hc, wireOmission?_eq_some_iff, hlinked]
  simp only [reduceCtorEq, Omission.mk.injEq, and_false, exists_false, and_true, false_or]
  tauto

/-- **The causes of a plan.** Only declared fields are left out. For either side, the cause is an
own kind that cannot be copied exactly when the field has that kind. A field of another kind is said
to be one-sided exactly when the other type does not declare its name, with one exception: a wire
field is also said to be one-sided if the model declares its name with a kind that cannot be copied.
The log gives the causes that the plan gives. -/
theorem omission_causes (S : Schema) (key : PlanKey) {plan : Plan}
    (h : resolve S key = .ok plan) :
    let wire := S.decl key.pair.wire
    let model := S.decl key.pair.model
    (∀ o ∈ plan.omissions, o.name ∈ (key.declOn S o.side).names) ∧
      (∀ side, ∀ f ∈ (key.declOn S side).fields, ∀ what,
        ⟨f.name, side, .unsupported what⟩ ∈ plan.omissions ↔ f.kind = .unsupported what) ∧
      (∀ f ∈ model.fields, ⟨f.name, .model, .oneSided⟩ ∈ plan.omissions ↔
        f.kind.unsupported? = none ∧ f.name ∉ wire.names) ∧
      (∀ f ∈ wire.fields, ⟨f.name, .wire, .oneSided⟩ ∈ plan.omissions ↔
        f.kind.unsupported? = none ∧ (f.name ∉ model.names ∨
          ∃ g ∈ model.fields, g.name = f.name ∧ g.kind.unsupported?.isSome = true)) ∧
      (∀ o, PlanEvent.omitted key o ∈ plan.report ↔ o ∈ plan.omissions) := by
  intro wire model
  obtain ⟨-, hmodel, hplan⟩ := resolve_eq_ok_iff.mp h
  refine ⟨fun o ho => name_mem_of_mem_omissions h ho, fun side f hf what => unsupported_iff h hf,
    fun f hf => model_oneSided_iff h hf, fun f hf => ?_, fun o => ?_⟩
  · rw [wire_oneSided_iff h hf, TypeDecl.not_copies_iff hmodel]
  · have hkey : plan.key = key := by rw [hplan, ofDecls]
    rw [report, hkey]
    simp

/-! ### An untrue cause -/

namespace Badges

/-- A message with a badge, and a model that keeps something under that name which cannot be copied.
-/
def decls : List TypeDecl :=
  [⟨"VisitMessage", [
      ⟨"id", .scalar .i64 false, false, .declared⟩,
      ⟨"badge", .scalar .string false, false, .declared⟩]⟩,
   ⟨"Visit", [
      ⟨"id", .scalar .i64 false, false, .declared⟩,
      ⟨"badge", .unsupported .channel, false, .declared⟩]⟩]

theorem isSome_ofDecls? : (Schema.ofDecls? decls fun _ => .null).isSome = true := by decide

def schema : Schema := (Schema.ofDecls? decls fun _ => .null).get isSome_ofDecls?

end Badges

/-- The badge of the message can be copied and the model declares a badge. Yet the plan and the log
say that the badge of the message is one-sided. -/
theorem badge_called_oneSided :
    let key := PlanKey.between ⟨0⟩ ⟨1⟩ .toModel
    ∃ plan, resolve Badges.schema key = .ok plan ∧
      (⟨"badge", .scalar .string false, false, .declared⟩ : FieldDecl) ∈
        (Badges.schema.decl ⟨0⟩).fields ∧
      "badge" ∈ (Badges.schema.decl ⟨1⟩).names ∧
      ⟨"badge", .wire, .oneSided⟩ ∈ plan.omissions ∧
      PlanEvent.omitted key ⟨"badge", .wire, .oneSided⟩ ∈ plan.report ∧
      (PlanEvent.omitted key ⟨"badge", .wire, .oneSided⟩).message =
        "Field has no counterpart, skipped" :=
  ⟨_, rfl, List.mem_of_getElem? (i := 1) rfl, by decide, by decide, by decide, rfl⟩

/-- The causes of the badges, to the model and back. -/
theorem omission_causes_badges :
    let key := PlanKey.between ⟨1⟩ ⟨0⟩ .toWire
    ∃ plan, resolve Badges.schema key = .ok plan ∧
      ⟨"badge", .model, .unsupported .channel⟩ ∈ plan.omissions ∧
      ⟨"badge", .wire, .oneSided⟩ ∈ plan.omissions ∧
      ⟨"id", .wire, .oneSided⟩ ∉ plan.omissions := by
  intro key
  obtain ⟨-, hunsupported, -, hwire, -⟩ := omission_causes Badges.schema key rfl
  refine ⟨_, rfl, ?_, ?_, fun hid => ?_⟩
  · exact (hunsupported .model _ (List.mem_of_getElem? (i := 1) rfl) .channel).mpr rfl
  · exact (hwire _ (List.mem_of_getElem? (i := 1) rfl)).mpr
      ⟨rfl, .inr ⟨_, List.mem_of_getElem? (i := 1) rfl, rfl, rfl⟩⟩
  · have hcauses := (hwire _ (List.mem_of_getElem? (i := 0) rfl)).mp hid
    revert hcauses
    decide

end Plan

end Crosswalk
