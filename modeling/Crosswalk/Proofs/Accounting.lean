import Crosswalk.Proofs.Links

/-!
# Which fields a plan accounts for

A plan is meant to be a full account of its two types: each field of either of them is linked, or
is left out under its own side, and never both. This module says how far that is so.

On the side of the wire it is so without exception (`Plan.perm_wireNames`). The wire fields are
taken last, and all that no link names are left out.

On the side of the model there is a gap. A field that could be copied, but whose wire field cannot,
is no link, and it is no omission of the model's either: only the wire field is left out. Such a
field is *passed over*. The names that are linked, left out and passed over are the names of the
model (`Plan.perm_modelNames`), so the account of the model is full exactly when no field is passed
over. `Plan.resolve_accounts` puts the two sides together, and `Plan.hook_unaccounted` is a pair of
types with a gap.

Lists of names are compared as permutations. No name repeats in a type that has plans, so a
permutation says that each field appears, and that it appears once.
-/

namespace Crosswalk.Plan

/-- The names of the fields that a plan leaves out on a side, in order. -/
def omittedOn (p : Plan) (side : Side) : List String :=
  (p.omissions.filter (·.side = side)).map (·.name)

/-- Whether a model field is passed over: it could be copied, but the wire field of its name
cannot. -/
def passesOver (wire : TypeDecl) (m : Column) : Bool :=
  m.kind.unsupported?.isNone && (wire.column? m.name).any (·.kind.unsupported?.isSome)

/-- The names of the model fields that are passed over, in order. -/
def passedOver (wire model : TypeDecl) : List String :=
  (model.columns.filter (passesOver wire)).map (·.name)

variable {S : Schema} {key : PlanKey} {plan : Plan} {wire model : TypeDecl}

/-! ### The three lists of a plan, as columns of its types -/

theorem fieldNames_ofDecls (key : PlanKey) (wire model : TypeDecl) :
    (ofDecls key wire model).fieldNames =
      (model.columns.filter fun m => (partner? wire m).isSome).map (·.name) := by
  rw [← map_snd_joined, fieldNames, links_ofDecls, List.map_map, List.map_map]
  exact List.map_congr_left fun p _ => name_join _ _ _

/-- An omission of the model is of the column it was made for. -/
theorem of_modelOmission? {m : Column} {o : Omission} (h : modelOmission? wire m = some o) :
    o.side = .model ∧ o.name = m.name := by
  rw [modelOmission?] at h
  split at h
  · cases h
    exact ⟨rfl, rfl⟩
  · split at h
    · cases h
    · cases h
      exact ⟨rfl, rfl⟩

/-- An omission of the wire type is of the column it was made for. -/
theorem of_wireOmission? {links : List Link} {w : Column} {o : Omission}
    (h : wireOmission? links w = some o) : o.side = .wire ∧ o.name = w.name := by
  rw [wireOmission?] at h
  split at h
  · cases h
  · split at h <;> cases h <;> exact ⟨rfl, rfl⟩

/-- All wire fields are left out but those that a link names. -/
theorem isSome_wireOmission? {links : List Link} {w : Column} :
    (wireOmission? links w).isSome = decide (w.name ∉ links.map (·.name)) := by
  rw [wireOmission?]
  by_cases h : links.any (·.name = w.name) = true
  · have hmem : w.name ∈ links.map (·.name) := by simpa using h
    rw [if_pos h, decide_eq_false (not_not.mpr hmem)]
    rfl
  · have hmem : w.name ∉ links.map (·.name) := by simpa using h
    rw [if_neg h, decide_eq_true hmem]
    cases w.kind.unsupported? <;> rfl

/-- Omissions that are made one for one out of columns of a side are omissions of that side, and of
no other. -/
theorem map_name_filter_side {omission? : Column → Option Omission} {made : Side}
    (h : ∀ c o, omission? c = some o → o.side = made ∧ o.name = c.name) (side : Side)
    (columns : List Column) :
    ((columns.filterMap omission?).filter (·.side = side)).map (·.name) =
      if made = side then (columns.filter fun c => (omission? c).isSome).map (·.name) else [] := by
  induction columns with
  | nil => simp
  | cons c rest ih =>
    cases hc : omission? c with
    | none => simpa [hc] using ih
    | some o =>
      obtain ⟨hside, hname⟩ := h c o hc
      by_cases hmade : made = side
      · simpa [hc, hside, hname, hmade] using ih
      · simpa [hc, hside, hmade] using ih

theorem omittedOn_model (key : PlanKey) (wire model : TypeDecl) :
    (ofDecls key wire model).omittedOn .model =
      (model.columns.filter fun m => (modelOmission? wire m).isSome).map (·.name) := by
  rw [omittedOn, ofDecls, List.filter_append, List.map_append,
    map_name_filter_side (fun _ _ => of_modelOmission?) .model,
    map_name_filter_side (fun _ _ => of_wireOmission?) .model]
  simp

theorem omittedOn_wire (key : PlanKey) (wire model : TypeDecl) :
    (ofDecls key wire model).omittedOn .wire =
      (wire.columns.filter fun w => w.name ∉ (ofDecls key wire model).fieldNames).map (·.name) := by
  rw [omittedOn, ofDecls, List.filter_append, List.map_append,
    map_name_filter_side (fun _ _ => of_modelOmission?) .wire,
    map_name_filter_side (fun _ _ => of_wireOmission?) .wire, if_neg (by decide), if_pos rfl,
    List.nil_append]
  congr 1
  exact List.filter_congr fun w _ => isSome_wireOmission?

/-! ### Full accounts -/

/-- Distinct names that a type declares are the names of the columns that they name. -/
theorem perm_names_filter {d : TypeDecl} (hd : d.names.Nodup) {names : List String}
    (hnames : names.Nodup) (hsub : ∀ name ∈ names, name ∈ d.names) :
    names.Perm ((d.columns.filter fun c => c.name ∈ names).map (·.name)) := by
  rw [← TypeDecl.map_name_columns] at hd hsub
  rw [List.perm_ext_iff_of_nodup hnames (hd.sublist (List.filter_sublist.map _))]
  intro name
  constructor
  · intro hname
    obtain ⟨c, hc, rfl⟩ := List.mem_map.mp (hsub name hname)
    exact List.mem_map_of_mem (List.mem_filter.mpr ⟨hc, by simpa using hname⟩)
  · intro hname
    obtain ⟨c, hc, rfl⟩ := List.mem_map.mp hname
    simpa using (List.mem_filter.mp hc).2

/-- A link is named after a wire field. -/
theorem mem_names_of_mem_fieldNames {name : String}
    (h : name ∈ (ofDecls key wire model).fieldNames) : name ∈ wire.names := by
  rw [fieldNames_ofDecls, List.mem_map] at h
  obtain ⟨m, hm, rfl⟩ := h
  obtain ⟨w, hpartner⟩ := Option.isSome_iff_exists.mp (List.mem_filter.mp hm).2
  obtain ⟨hcolumn, hname⟩ := wire.mem_of_column? (partner?_eq_some_iff.mp hpartner).2.1
  rw [← TypeDecl.map_name_columns, ← hname]
  exact List.mem_map_of_mem hcolumn

/-- **Every wire field is linked or left out**, and no field is both. -/
theorem perm_wireNames (h : resolve S key = .ok plan) :
    (plan.fieldNames ++ plan.omittedOn .wire).Perm (S.decl key.pair.wire).names := by
  have hnodup : plan.fieldNames.Nodup := names_nodup h
  obtain ⟨hw, -, rfl⟩ := resolve_eq_ok_iff.mp h
  have hlinked := perm_names_filter hw hnodup fun _ hname => mem_names_of_mem_fieldNames hname
  rw [omittedOn_wire, ← TypeDecl.map_name_columns]
  refine (hlinked.append_right _).trans ?_
  rw [← List.map_append]
  refine List.Perm.map _ ?_
  simpa only [decide_not] using List.filter_append_perm _ (S.decl key.pair.wire).columns

/-- A model field is linked, left out or passed over. -/
theorem modelOmission?_isSome_iff {m : Column} :
    (modelOmission? wire m).isSome = (!(partner? wire m).isSome && !passesOver wire m) := by
  rw [modelOmission?, partner?, passesOver]
  cases m.kind.unsupported? with
  | some what => simp
  | none =>
    cases wire.column? m.name with
    | none => simp
    | some w => cases hw : w.kind.unsupported? <;> simp [Option.filter_some, hw]

/-- A field that is passed over is not linked. -/
theorem partner?_eq_none_of_passesOver {m : Column} (h : passesOver wire m = true) :
    partner? wire m = none := by
  refine Option.eq_none_iff_forall_ne_some.mpr fun w hw => ?_
  obtain ⟨-, hcolumn, hsupported⟩ := partner?_eq_some_iff.mp hw
  simp [passesOver, hcolumn, hsupported] at h

/-- **Every model field is linked, left out or passed over**, and only one of the three. -/
theorem perm_modelNames (key : PlanKey) (wire model : TypeDecl) :
    ((ofDecls key wire model).fieldNames ++ (ofDecls key wire model).omittedOn .model ++
      passedOver wire model).Perm model.names := by
  rw [fieldNames_ofDecls, omittedOn_model, passedOver, ← TypeDecl.map_name_columns,
    ← List.map_append, ← List.map_append]
  refine List.Perm.map _ ?_
  have hlinked := List.filter_append_perm (fun m => (partner? wire m).isSome) model.columns
  have hrest := List.filter_append_perm (fun m => !passesOver wire m)
    (model.columns.filter fun m => !(partner? wire m).isSome)
  rw [List.filter_filter, List.filter_filter] at hrest
  have homitted : ∀ m ∈ model.columns, (modelOmission? wire m).isSome =
      (!passesOver wire m && !(partner? wire m).isSome) := fun m _ => by
    rw [modelOmission?_isSome_iff, Bool.and_comm]
  have hpassed : ∀ m ∈ model.columns, passesOver wire m =
      (!(!passesOver wire m) && !(partner? wire m).isSome) := fun m _ => by
    cases h : passesOver wire m with
    | false => rfl
    | true => rw [partner?_eq_none_of_passesOver h]; rfl
  rw [List.filter_congr homitted, List.filter_congr hpassed, List.append_assoc]
  exact (hrest.append_left _).trans hlinked

/-- **What a plan accounts for.** Names do not repeat on either side. Each wire field is linked or
left out under its side, and just one of the two; hence the numbers add up to the number of fields.
Each model field is linked, left out under its side or passed over, and just one of the three; so
the numbers add up if the fields that are passed over are counted too. -/
theorem resolve_accounts (S : Schema) (key : PlanKey) {plan : Plan}
    (h : resolve S key = .ok plan) :
    let wire := S.decl key.pair.wire
    let model := S.decl key.pair.model
    wire.names.Nodup ∧ model.names.Nodup ∧
      (plan.fieldNames ++ plan.omittedOn .wire).Perm wire.names ∧
      (plan.fieldNames ++ plan.omittedOn .model ++ passedOver wire model).Perm model.names ∧
      plan.links.length + (plan.omittedOn .wire).length = wire.fields.length ∧
      plan.links.length + (plan.omittedOn .model).length + (passedOver wire model).length =
        model.fields.length := by
  intro wire model
  obtain ⟨hw, hm, hplan⟩ := resolve_eq_ok_iff.mp h
  have hwire : (plan.fieldNames ++ plan.omittedOn .wire).Perm wire.names := perm_wireNames h
  have hmodel : (plan.fieldNames ++ plan.omittedOn .model ++ passedOver wire model).Perm
      model.names := by
    rw [hplan]
    exact perm_modelNames key wire model
  have hlinks : plan.fieldNames.length = plan.links.length := List.length_map _
  have hwireLength := hwire.length_eq
  have hmodelLength := hmodel.length_eq
  rw [List.length_append, hlinks, TypeDecl.names, List.length_map] at hwireLength
  rw [List.length_append, List.length_append, hlinks, TypeDecl.names, List.length_map]
    at hmodelLength
  exact ⟨hw, hm, hwire, hmodel, hwireLength, hmodelLength⟩

/-! ### A gap -/

namespace Hooks

/-- A message with a hook that cannot be copied, and a model that keeps the hook's name. -/
def decls : List TypeDecl :=
  [⟨"JobMessage", [
      ⟨"id", .scalar .i64 false, false, .declared⟩,
      ⟨"hook", .unsupported .function, false, .declared⟩]⟩,
   ⟨"Job", [
      ⟨"id", .scalar .i64 false, false, .declared⟩,
      ⟨"hook", .scalar .string false, false, .declared⟩]⟩]

theorem isSome_ofDecls? : (Schema.ofDecls? decls fun _ => .null).isSome = true := by decide

def schema : Schema := (Schema.ofDecls? decls fun _ => .null).get isSome_ofDecls?

end Hooks

/-- The hook of the job model is declared, and the plan does not mention it on the model's side,
neither among the links nor among what is left out. -/
theorem hook_unaccounted :
    ∃ plan, resolve Hooks.schema (.between ⟨0⟩ ⟨1⟩ .toModel) = .ok plan ∧
      "hook" ∈ (Hooks.schema.decl ⟨1⟩).names ∧ "hook" ∉ plan.fieldNames ∧
      "hook" ∉ plan.omittedOn .model ∧
      plan.links.length + (plan.omittedOn .model).length < (Hooks.schema.decl ⟨1⟩).fields.length :=
  ⟨_, rfl, by decide, by decide, by decide, by decide⟩

/-- The account of the jobs: one field is linked, one is left out, one is passed over. -/
theorem resolve_accounts_hooks :
    ∃ plan, resolve Hooks.schema (.between ⟨0⟩ ⟨1⟩ .toModel) = .ok plan ∧
      plan.links.length + (plan.omittedOn .wire).length = 2 ∧
      (plan.fieldNames ++ plan.omittedOn .model ++ ["hook"]).Perm ["id", "hook"] := by
  obtain ⟨-, -, -, hmodel, hcount, -⟩ :=
    resolve_accounts Hooks.schema (.between ⟨0⟩ ⟨1⟩ .toModel) rfl
  exact ⟨_, rfl, hcount, hmodel⟩

end Crosswalk.Plan
