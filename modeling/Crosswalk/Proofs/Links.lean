import Crosswalk.Plan.Resolve
import Crosswalk.Proofs.Columns

/-!
# What the links of a plan join

`Plan.resolve` is read here from the outside. Which columns are joined does not depend on the
direction: `Plan.joined` is the list of pairs, and the links of a plan are those pairs, each turned
the way the direction asks for (`links_ofDecls`). A link of a plan therefore stands for two columns,
one of the source type and one of the target type, which `Link.Joins` spells out.

Nothing else about a link is needed later. In particular its two stored positions are the positions
of the only columns of its name, and no two links of a plan write to one position
(`targetIndices_nodup`).
-/

namespace Crosswalk

namespace Plan

variable {S : Schema} {key : PlanKey} {plan : Plan}

/-! ### When there is a plan -/

theorem resolve_eq_ok_iff : resolve S key = .ok plan ↔
    (S.decl key.pair.wire).names.Nodup ∧ (S.decl key.pair.model).names.Nodup ∧
      plan = ofDecls key (S.decl key.pair.wire) (S.decl key.pair.model) := by
  rw [← TypeDecl.repeatedName?_eq_none_iff, ← TypeDecl.repeatedName?_eq_none_iff, resolve]
  cases hw : (S.decl key.pair.wire).repeatedName? with
  | some field => simp
  | none =>
    cases hm : (S.decl key.pair.model).repeatedName? with
    | some field => simp
    | none => simp [eq_comm]

theorem resolve_eq_error_iff : (∃ cause, resolve S key = .error cause) ↔
    ¬ (S.decl key.pair.wire).names.Nodup ∨ ¬ (S.decl key.pair.model).names.Nodup := by
  cases h : resolve S key with
  | ok plan =>
    obtain ⟨hw, hm, -⟩ := resolve_eq_ok_iff.mp h
    simp [hw, hm]
  | error cause =>
    refine ⟨fun _ => ?_, fun _ => ⟨cause, rfl⟩⟩
    by_contra hcon
    simp only [not_or, not_not] at hcon
    have := resolve_eq_ok_iff.mpr ⟨hcon.1, hcon.2, rfl⟩
    rw [h] at this
    cases this

theorem source_nodup (h : resolve S key = .ok plan) : (S.decl key.source).names.Nodup := by
  obtain ⟨hw, hm, -⟩ := resolve_eq_ok_iff.mp h
  rw [PlanKey.source]
  split
  · exact hw
  · exact hm

theorem target_nodup (h : resolve S key = .ok plan) : (S.decl key.target).names.Nodup := by
  obtain ⟨hw, hm, -⟩ := resolve_eq_ok_iff.mp h
  rw [PlanKey.target]
  split
  · exact hm
  · exact hw

/-! ### The joined columns -/

/-- The wire column that a model column is joined with, if any. -/
def partner? (wire : TypeDecl) (m : Column) : Option Column :=
  if m.kind.unsupported?.isSome then none
  else (wire.column? m.name).filter fun w => w.kind.unsupported?.isNone

theorem partner?_eq_some_iff {wire : TypeDecl} {w m : Column} :
    partner? wire m = some w ↔ m.kind.unsupported? = none ∧ wire.column? m.name = some w ∧
      w.kind.unsupported? = none := by
  rw [partner?]
  split
  · next h =>
    rw [Option.isSome_iff_ne_none] at h
    simp [h]
  · next h =>
    rw [Option.not_isSome_iff_eq_none] at h
    simp [h, Option.filter_eq_some_iff]

/-- The pairs of a wire column and a model column that a plan joins, in the order of the model. -/
def joined (wire model : TypeDecl) : List (Column × Column) :=
  model.columns.filterMap fun m => (partner? wire m).map (·, m)

theorem linkFor?_eq (direction : Direction) (wire : TypeDecl) (m : Column) :
    linkFor? direction wire m = (partner? wire m).map fun w => .join direction w m := by
  rw [linkFor?, partner?]
  split
  · rfl
  · cases wire.column? m.name with
    | none => rfl
    | some w =>
      simp only [Option.filter_some]
      cases w.kind.unsupported? <;> rfl

/-- The links of a plan are the joined columns, whichever way the plan goes. -/
theorem links_ofDecls (key : PlanKey) (wire model : TypeDecl) :
    (ofDecls key wire model).links =
      (joined wire model).map fun p => .join key.direction p.1 p.2 := by
  rw [joined, List.map_filterMap]
  refine List.filterMap_congr fun m _ => ?_
  rw [linkFor?_eq, Option.map_map]
  rfl

theorem mem_joined_iff {wire model : TypeDecl} {w m : Column} :
    (w, m) ∈ joined wire model ↔ m ∈ model.columns ∧ partner? wire m = some w := by
  simp only [joined, List.mem_filterMap, Option.map_eq_some_iff, Prod.mk.injEq]
  constructor
  · rintro ⟨m', hm', w', hw', rfl, rfl⟩
    exact ⟨hm', hw'⟩
  · rintro ⟨hm, hw⟩
    exact ⟨m, hm, w, hw, rfl, rfl⟩

end Plan

/-! ### Transfers by kind -/

/-- Which transfers belong to which two kinds, in a direction. -/
inductive Transfer.Suits (direction : Direction) : FieldKind → FieldKind → Transfer → Prop
  | scalar {k l : ScalarKind} {c : ScalarConversion} (h : k.conversion l = some c) (o o' : Bool) :
    Suits direction (.scalar k o) (.scalar l o') (.scalar c (.between o o'))
  | scalarList {k l : ScalarKind} {c : ScalarConversion} (h : k.conversion l = some c) :
    Suits direction (.scalarList k) (.scalarList l) (.scalarList c)
  | nested (t u : TypeId) (o o' : Bool) :
    Suits direction (.nested t o) (.nested u o') (.nested (.between t u direction))
  | nestedList (t u : TypeId) :
    Suits direction (.nestedList t) (.nestedList u) (.nestedList (.between t u direction))
  | impossible (source target : FieldKind) :
    Suits direction source target (.impossible source target)

theorem Transfer.suits_between (source target : FieldKind) (direction : Direction) :
    Suits direction source target (.between source target direction) := by
  rw [between.eq_def]
  split
  · next k o l o' =>
    cases h : k.conversion l with
    | some c => exact .scalar h o o'
    | none => exact .impossible _ _
  · next k l =>
    cases h : k.conversion l with
    | some c => exact .scalarList h
    | none => exact .impossible _ _
  · exact .nested _ _ _ _
  · exact .nestedList _ _
  · exact .impossible _ _

theorem Transfer.Suits.exists_nested {direction : Direction} {source target : FieldKind}
    {key : PlanKey} (h : Suits direction source target (.nested key)) : ∃ t u o o',
      source = .nested t o ∧ target = .nested u o' ∧ key = .between t u direction := by
  cases h with
  | nested t u o o' => exact ⟨t, u, o, o', rfl, rfl, rfl⟩

theorem Transfer.Suits.exists_nestedList {direction : Direction} {source target : FieldKind}
    {key : PlanKey} (h : Suits direction source target (.nestedList key)) : ∃ t u,
      source = .nestedList t ∧ target = .nestedList u ∧ key = .between t u direction := by
  cases h with
  | nestedList t u => exact ⟨t, u, rfl, rfl, rfl⟩

/-! ### The two ends of a link -/

/-- The link joins these columns under the key: it has their name, their positions and their kinds,
and the transfer that belongs to the kinds. -/
structure Link.Joins (S : Schema) (key : PlanKey) (l : Link) (source target : Column) : Prop where
  source_mem : source ∈ (S.decl key.source).columns
  target_mem : target ∈ (S.decl key.target).columns
  source_name : source.name = l.name
  target_name : target.name = l.name
  sourceIndex_eq : l.sourceIndex = source.index
  targetIndex_eq : l.targetIndex = target.index
  sourceKind_eq : l.sourceKind = source.kind
  targetKind_eq : l.targetKind = target.kind
  transfer_eq : l.transfer = .between source.kind target.kind key.direction
  source_supported : source.kind.unsupported? = none
  target_supported : target.kind.unsupported? = none

theorem Link.Joins.suits {S : Schema} {key : PlanKey} {l : Link} {source target : Column}
    (h : l.Joins S key source target) :
    Transfer.Suits key.direction l.sourceKind l.targetKind l.transfer := by
  rw [h.sourceKind_eq, h.targetKind_eq, h.transfer_eq]
  exact Transfer.suits_between _ _ _

namespace Plan

variable {S : Schema} {key : PlanKey} {plan : Plan}

/-- **Every link of a plan joins two columns.** -/
theorem exists_joins (h : resolve S key = .ok plan) {l : Link} (hl : l ∈ plan.links) :
    ∃ source target, l.Joins S key source target := by
  obtain ⟨-, -, rfl⟩ := resolve_eq_ok_iff.mp h
  rw [links_ofDecls, List.mem_map] at hl
  obtain ⟨⟨w, m⟩, hwm, rfl⟩ := hl
  obtain ⟨hm, hpartner⟩ := mem_joined_iff.mp hwm
  obtain ⟨hms, hcolumn, hws⟩ := partner?_eq_some_iff.mp hpartner
  obtain ⟨hw, hname⟩ := TypeDecl.mem_of_column? _ hcolumn
  obtain ⟨pair, direction⟩ := key
  cases direction with
  | toModel => exact ⟨w, m, hw, hm, hname, rfl, rfl, rfl, rfl, rfl, rfl, hws, hms⟩
  | toWire => exact ⟨m, w, hm, hw, rfl, hname, rfl, rfl, rfl, rfl, rfl, hms, hws⟩

theorem name_join (direction : Direction) (w m : Column) :
    (Link.join direction w m).name = m.name := by
  cases direction <;> rfl

theorem map_snd_joined (wire model : TypeDecl) :
    (joined wire model).map Prod.snd =
      model.columns.filter fun m => (partner? wire m).isSome := by
  rw [joined, List.map_filterMap, ← List.filterMap_eq_filter]
  refine List.filterMap_congr fun m _ => ?_
  cases h : partner? wire m <;> simp [Option.guard, h]

/-- No two links of a plan have one name. -/
theorem names_nodup (h : resolve S key = .ok plan) : (plan.links.map (·.name)).Nodup := by
  obtain ⟨-, hm, rfl⟩ := resolve_eq_ok_iff.mp h
  have hnames : (ofDecls key (S.decl key.pair.wire) (S.decl key.pair.model)).links.map (·.name) =
      ((joined (S.decl key.pair.wire) (S.decl key.pair.model)).map Prod.snd).map (·.name) := by
    rw [links_ofDecls, List.map_map, List.map_map]
    exact List.map_congr_left fun p _ => name_join _ _ _
  rw [hnames, map_snd_joined]
  rw [← TypeDecl.map_name_columns] at hm
  exact hm.sublist (List.filter_sublist.map _)

/-- Links that are told apart by their names are told apart by the positions of columns that have
these names. -/
theorem nodup_map_of_columns (h : resolve S key = .ok plan) {d : TypeDecl} {index : Link → Nat}
    (hindex : ∀ l ∈ plan.links, ∃ c ∈ d.columns, c.name = l.name ∧ index l = c.index) :
    (plan.links.map index).Nodup := by
  have hnames := names_nodup h
  refine (List.Nodup.of_map _ hnames).map_on fun a ha b hb hab => ?_
  obtain ⟨ca, hca, hnamea, ha'⟩ := hindex a ha
  obtain ⟨cb, hcb, hnameb, hb'⟩ := hindex b hb
  have hsame : ca.index = cb.index := by rw [← ha', ← hb', hab]
  have hfield := (TypeDecl.mem_columns_iff _).mp hca
  rw [hsame, (TypeDecl.mem_columns_iff _).mp hcb, Option.some.injEq] at hfield
  have hname : a.name = b.name := by rw [← hnamea, ← hnameb, hfield]
  exact List.inj_on_of_nodup_map hnames ha hb hname

/-- No two links of a plan read from one position. -/
theorem sourceIndices_nodup (h : resolve S key = .ok plan) :
    (plan.links.map (·.sourceIndex)).Nodup :=
  nodup_map_of_columns h fun _ hl =>
    let ⟨source, _, hjoins⟩ := exists_joins h hl
    ⟨source, hjoins.source_mem, hjoins.source_name, hjoins.sourceIndex_eq⟩

/-- **No two links of a plan write to one position.** -/
theorem targetIndices_nodup (h : resolve S key = .ok plan) :
    (plan.links.map (·.targetIndex)).Nodup :=
  nodup_map_of_columns h fun _ hl =>
    let ⟨_, target, hjoins⟩ := exists_joins h hl
    ⟨target, hjoins.target_mem, hjoins.target_name, hjoins.targetIndex_eq⟩

end Plan

end Crosswalk
