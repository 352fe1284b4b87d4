import Crosswalk.Proofs.Asking
import Crosswalk.Proofs.FlatImages
import Crosswalk.Proofs.Reaching

/-!
# Records of a type that was not declared

A nested field is linked by the plan of two *declared* types, and it is converted by that plan
whatever it holds. An ordinary field holds records of its declared type and no others. A hand-made
one may hold a record of any type, and nothing in a conversion asks which: the plan is run on it all
the same. In the tiers that go by names it then reads the fields of these names, if there are any,
and in the tier that goes by positions whatever field stands at the position.

`Tier.Runs` says which plans a conversion runs on which records. It follows the way of `Tier.Asks`
and keeps the record as well. `Record.KeepsTypes` is about the source alone: whatever its linked
fields lead to is of the type that is declared there. This is what makes nested plans meet records
of their own types, and nothing less does where the conversion succeeds
(`Tier.convert_nested_plans`).
-/

namespace Crosswalk

variable {S : Schema} {key key' : PlanKey} {plan : Plan} {l : Link} {v : Value}
  {r src inner : Record}

/-! ### Types in the source -/

/-- Every record that the linked fields of the source lead to has the type that it is to be
converted from. -/
def Record.KeepsTypes (S : Schema) (key : PlanKey) (src : Record) : Prop :=
  ∀ key' r, Reached S key src key' r → r.type = key'.source

theorem Record.KeepsTypes.enter (h : src.KeepsTypes S key) (hplan : Plan.resolve S key = .ok plan)
    (hl : l ∈ plan.links) (hv : src.get? S l.sourceIndex = some v)
    (henter : l.transfer.Enters v key' inner) : inner.KeepsTypes S key' :=
  fun _ _ hreached => h _ _ (.inside hplan hl hv henter hreached)

/-- Without a record to convert, only an absent value crosses a link that moves records. -/
theorem Link.exists_carryFlat_iff {l : Link} {key : PlanKey}
    (h : l.transfer = .nested key ∨ l.transfer = .nestedList key) {v : Value} :
    (∃ w, l.carryFlat v = .ok w) ↔ v = .null := by
  rcases h with h | h <;> rw [Link.carryFlat.eq_def, h] <;> cases v <;> simp

/-! ### Plans that are run -/

namespace Tier

/-- Copying the record by the plan of the key comes to the inner record, in the source field of the
link, and converts it by the inner key. All links before have succeeded. -/
inductive ComesTo (S : Schema) (tier : Tier) (key : PlanKey) (r : Record) (l : Link)
    (key' : PlanKey) (inner : Record) : Prop
  | intro {plan : Plan} {done rest : List Link} {v : Value} (hplan : Plan.resolve S key = .ok plan)
    (hlinks : plan.links = done ++ l :: rest)
    (hdone : ∀ m ∈ done, ∃ p, tier.effect S r key.target (tier.copier m) = .ok p)
    (hv : (tier.copier l).read? S r = some v) (hmeets : Meets S tier l.transfer v key' inner)

/-- Converting the first record by the first key leads to the conversion of the second record by the
second key. -/
inductive Runs (S : Schema) (tier : Tier) : PlanKey → Record → PlanKey → Record → Prop
  | here (key : PlanKey) (r : Record) : Runs S tier key r key r
  | inside {key : PlanKey} {r : Record} {l : Link} {key' : PlanKey} {inner : Record}
    {key'' : PlanKey} {r'' : Record} (hcomes : ComesTo S tier key r l key' inner)
    (h : Runs S tier key' inner key'' r'') : Runs S tier key r key'' r''

/-- The conversion runs the plan of a nested key on a record that the source field of the link
holds. -/
def RunsNested (S : Schema) (tier : Tier) (key : PlanKey) (src : Record) (l : Link)
    (key' : PlanKey) (inner : Record) : Prop :=
  ∃ outer holder plan, Runs S tier key src outer holder ∧
    ComesTo S tier outer holder l key' inner ∧ Plan.resolve S key' = .ok plan

/-- Every nested plan that the conversion runs meets a record of its own source type. -/
def MeetsOwnTypes (S : Schema) (tier : Tier) (key : PlanKey) (src : Record) : Prop :=
  ∀ l key' inner, RunsNested S tier key src l key' inner → inner.type = key'.source

variable {tier : Tier}

theorem asks_iff_exists_runs {asked : PlanKey} :
    Asks S tier key r asked ↔ ∃ inner, Runs S tier key r asked inner := by
  constructor
  · intro h
    induction h with
    | here key r => exact ⟨r, .here key r⟩
    | inside hplan hlinks hdone hv hmeets _ ih =>
      obtain ⟨inner, hruns⟩ := ih
      exact ⟨inner, .inside (.intro hplan hlinks hdone hv hmeets) hruns⟩
  · rintro ⟨inner, h⟩
    induction h with
    | here key r => exact .here key r
    | inside hcomes _ ih =>
      obtain ⟨hplan, hlinks, hdone, hv, hmeets⟩ := hcomes
      exact .inside hplan hlinks hdone hv hmeets ih

/-- The keys on the trail of a conversion are those of the plans that it runs, so that these are the
plans that the store is asked for. -/
theorem mem_trail_iff_exists_runs {asked : PlanKey} :
    asked ∈ tier.trail S key r ↔ ∃ inner, Runs S tier key r asked inner :=
  mem_trail_iff.trans asks_iff_exists_runs

theorem Meets.enters {t : Transfer} (h : Meets S tier t v key inner) : t.Enters v key inner := by
  cases h with
  | record => exact .record key inner
  | item => exact .item (List.mem_append_right _ List.mem_cons_self)

theorem ComesTo.exists_get? (h : ComesTo S tier key r l key' inner) (htype : r.type = key.source) :
    ∃ plan v, Plan.resolve S key = .ok plan ∧ l ∈ plan.links ∧
      r.get? S l.sourceIndex = some v ∧ l.transfer.Enters v key' inner := by
  obtain ⟨hplan, hlinks, -, hv, hmeets⟩ := h
  have hl := hlinks ▸ List.mem_append_right _ List.mem_cons_self
  obtain ⟨source, target, hj⟩ := Plan.exists_joins hplan hl
  rw [Copier.read?_copier hplan hj tier htype] at hv
  exact ⟨_, _, hplan, hl, hv, hmeets.enters⟩

/-- Where types are kept, the plans that are run are run on what the source leads to. It needs the
types, since a tier that goes by names and one that goes by positions find the same fields in a
record of the right type only. -/
theorem Runs.reached (h : Runs S tier key src key' r) (htype : src.type = key.source)
    (hkeeps : src.KeepsTypes S key) : Reached S key src key' r := by
  induction h with
  | here key r => exact .here key r
  | inside hcomes _ ih =>
    obtain ⟨plan, v, hplan, hl, hv, henter⟩ := hcomes.exists_get? htype
    have hkeeps' := hkeeps.enter hplan hl hv henter
    exact .inside hplan hl hv henter (ih (hkeeps' _ _ (.here _ _)) hkeeps')

/-- **Where the source keeps its types, nested plans meet their own.** -/
theorem meetsOwnTypes_of_keepsTypes (htype : src.type = key.source)
    (hkeeps : src.KeepsTypes S key) : MeetsOwnTypes S tier key src := by
  rintro l key' inner ⟨outer, holder, plan, hruns, hcomes, -⟩
  have hreached := hruns.reached htype hkeeps
  have hholder : holder.KeepsTypes S outer := fun _ _ h => hkeeps _ _ (hreached.trans h)
  obtain ⟨plan, v, hplan, hl, hv, henter⟩ := hcomes.exists_get? (hkeeps _ _ hreached)
  exact hholder _ _ (.inside hplan hl hv henter (.here _ _))

/-! ### What becomes of what is met -/

theorem exists_imageItems_iff {rs : List Record} {index : Nat} :
    (∃ ws, tier.imageItems S l key index (rs.map (·.toValue)) = .ok ws) ↔
      ∀ r ∈ rs, (tier.outcome S key r (.initial S key.target)).result = .ok () := by
  induction rs generalizing index with
  | nil => simp [imageItems]
  | cons r rest ih =>
    rw [List.map_cons, imageItems_cons, List.forall_mem_cons, ← @ih (index + 1)]
    rcases tier.outcome S key r (.initial S key.target) with ⟨result, made⟩
    cases result with
    | error e => simp
    | ok => simp [map_eq_ok_iff]

theorem imageItems_ne_ok {items : List Value} (h : ∀ rs : List Record, items ≠ rs.map (·.toValue))
    (index : Nat) (ws : List Value) : tier.imageItems S l key index items ≠ .ok ws := by
  induction items generalizing index ws with
  | nil => exact absurd rfl (h [])
  | cons v rest ih =>
    intro hok
    cases v with
    | record type cells =>
      change tier.imageItems S l key index (Record.toValue ⟨type, cells⟩ :: rest) = .ok ws at hok
      rw [imageItems_cons] at hok
      split at hok
      · cases hok
      · obtain ⟨others, hothers, -⟩ := map_eq_ok_iff.mp hok
        refine ih (fun rs hrs => ?_) _ _ hothers
        exact h (⟨type, cells⟩ :: rs) (by rw [hrs]; rfl)
    | _ => cases hok

/-- What is in a nested field crosses if it is absent, or a record that is converted by the plan of
the link. The type of the record is not looked at. -/
theorem exists_image_nested_iff {c : Copier} (hc : c.Looks l) (h : l.transfer = .nested key')
    {v : Value} :
    (∃ w, tier.image S v c = .ok w) ↔ v = .null ∨ ∃ inner : Record, v = inner.toValue ∧
      (tier.outcome S key' inner (.initial S key'.target)).result = .ok () := by
  by_cases hv : ∃ inner : Record, v = inner.toValue
  · obtain ⟨inner, rfl⟩ := hv
    have hnull : inner.toValue ≠ .null := Value.noConfusion
    rw [image_record S tier inner hc, h]
    dsimp only
    constructor
    · rintro ⟨w, hw⟩
      refine .inr ⟨inner, rfl, ?_⟩
      split at hw
      · next houtcome => rw [houtcome]
      · cases hw
    · rintro (hnull' | ⟨inner', hinner, hok⟩)
      · exact absurd hnull' hnull
      · rw [← Record.toValue_injective hinner] at hok
        split
        · exact ⟨_, rfl⟩
        · next houtcome =>
          rw [houtcome] at hok
          cases hok
  · have himage : tier.image S v c = l.carryFlat v := by
      cases v with
      | record type cells => exact absurd ⟨⟨type, cells⟩, rfl⟩ hv
      | list items => rw [image_list S tier items hc, h]
      | _ => exact image_flat S tier ⟨fun _ => Value.noConfusion, fun _ _ => Value.noConfusion⟩ hc
    rw [himage, Link.exists_carryFlat_iff (.inl h)]
    refine ⟨.inl, fun hcases => hcases.resolve_right ?_⟩
    rintro ⟨inner, hinner, -⟩
    exact hv ⟨inner, hinner⟩

theorem exists_image_nestedList_iff {c : Copier} (hc : c.Looks l)
    (h : l.transfer = .nestedList key') {v : Value} :
    (∃ w, tier.image S v c = .ok w) ↔ v = .null ∨
      ∃ rs : List Record, v = .list (rs.map (·.toValue)) ∧ ∀ r ∈ rs,
        (tier.outcome S key' r (.initial S key'.target)).result = .ok () := by
  by_cases hv : ∃ items, v = .list items
  · obtain ⟨items, rfl⟩ := hv
    rw [image_list S tier items hc, h]
    dsimp only
    constructor
    · rintro ⟨w, hw⟩
      obtain ⟨ws, hws, -⟩ := map_eq_ok_iff.mp hw
      have hrecords : ∃ rs : List Record, items = rs.map (·.toValue) := by
        by_contra hnot
        exact imageItems_ne_ok (fun rs hrs => hnot ⟨rs, hrs⟩) 0 ws hws
      obtain ⟨rs, rfl⟩ := hrecords
      exact .inr ⟨rs, rfl, exists_imageItems_iff.mp ⟨ws, hws⟩⟩
    · rintro (hnull | ⟨rs, hrs, hok⟩)
      · cases hnull
      · obtain ⟨ws, hws⟩ := exists_imageItems_iff.mpr hok
        rw [Value.list.inj hrs]
        exact ⟨_, map_eq_ok_iff.mpr ⟨ws, hws, rfl⟩⟩
  · have himage : tier.image S v c = l.carryFlat v := by
      cases v with
      | record type cells =>
        have himage := image_record S tier ⟨type, cells⟩ hc
        rwa [h] at himage
      | list items => exact absurd ⟨items, rfl⟩ hv
      | _ => exact image_flat S tier ⟨fun _ => Value.noConfusion, fun _ _ => Value.noConfusion⟩ hc
    rw [himage, Link.exists_carryFlat_iff (.inr h)]
    refine ⟨.inl, fun hcases => hcases.resolve_right ?_⟩
    rintro ⟨rs, hrs, -⟩
    exact hv ⟨_, hrs⟩

theorem looks_of_nested (tier : Tier)
    (h : l.transfer = .nested key' ∨ l.transfer = .nestedList key') : (tier.copier l).Looks l := by
  refine (looks_or_handOver tier l).resolve_right ?_
  rintro ⟨-, hdirect⟩
  obtain ⟨hnested, hnestedList⟩ := Transfer.not_nested_of_isDirect hdirect
  exact h.elim (hnested key') (hnestedList key')

/-- What has crossed has been gone through: every record in it was met, and was converted. -/
theorem meets_of_image {w : Value} (hw : tier.image S v (tier.copier l) = .ok w)
    (henter : l.transfer.Enters v key' inner) : Meets S tier l.transfer v key' inner ∧
      (tier.outcome S key' inner (.initial S key'.target)).result = .ok () := by
  generalize htransfer : l.transfer = transfer at henter
  cases henter with
  | record =>
    have hc := looks_of_nested tier (.inl htransfer)
    rcases (exists_image_nested_iff hc htransfer).mp ⟨w, hw⟩ with hnull | ⟨r, hr, hok⟩
    · cases hnull
    · rw [← Record.toValue_injective hr] at hok
      exact ⟨.record key' inner, hok⟩
  | item hmem =>
    have hc := looks_of_nested tier (.inr htransfer)
    rcases (exists_image_nestedList_iff hc htransfer).mp ⟨w, hw⟩ with hnull | ⟨rs, hrs, hok⟩
    · cases hnull
    · obtain rfl := Value.list.inj hrs
      have hall : ∀ v ∈ rs.map (·.toValue), ∃ b : Record, v = b.toValue ∧
          (tier.outcome S key' b (.initial S key'.target)).result = .ok () :=
        List.forall_mem_map.mpr fun r hr => ⟨r, rfl, hok r hr⟩
      obtain ⟨b, hb, hinner⟩ := hall _ hmem
      rw [← Record.toValue_injective hb] at hinner
      obtain ⟨before, after, hsplit⟩ := List.append_of_mem hmem
      rw [hsplit] at hall ⊢
      exact ⟨.item fun v hv => hall v (List.mem_append_left _ hv), hinner⟩

theorem exists_plan_of_ok {dst : Record} (hdst : dst.type = key.target)
    (hok : (tier.outcome S key src dst).result = .ok ()) :
    ∃ plan, Plan.resolve S key = .ok plan ∧
      ∀ m ∈ plan.links, ∃ p, tier.effect S src key.target (tier.copier m) = .ok p := by
  rw [outcome_eq, program] at hok
  cases hplan : Plan.resolve S key with
  | error cause =>
    rw [hplan] at hok
    cases hok
  | ok plan =>
    rw [hplan] at hok
    have heffects := Outcome.result_ofEffects_eq_ok_iff.mp hok
    rw [List.map_map, List.forall_mem_map, hdst] at heffects
    exact ⟨plan, rfl, heffects⟩

/-- **What is needed for that, if the conversion succeeds.** It has then come to all that the source
leads to. By induction on the way there. -/
theorem type_of_reached (h : Reached S key src key' r) {dst : Record}
    (htype : src.type = key.source) (hdst : dst.type = key.target)
    (hok : (tier.outcome S key src dst).result = .ok ()) (hown : MeetsOwnTypes S tier key src) :
    r.type = key'.source := by
  induction h generalizing dst with
  | here => exact htype
  | inside hplan hl hv henter _ ih =>
    obtain ⟨plan', hplan', heffects⟩ := exists_plan_of_ok hdst hok
    obtain rfl := Except.ok.inj (hplan.symm.trans hplan')
    obtain ⟨p, hp⟩ := heffects _ hl
    obtain ⟨v', hv', w, hw, -⟩ := (effect_copier_eq_ok_iff hplan hl tier htype).mp hp
    obtain rfl := Option.some.inj (hv.symm.trans hv')
    obtain ⟨hmeets, hinner⟩ := meets_of_image hw henter
    obtain ⟨done, rest, hlinks⟩ := List.append_of_mem hl
    obtain ⟨source, target, hj⟩ := Plan.exists_joins hplan hl
    rw [← Copier.read?_copier hplan hj tier htype] at hv
    have hcomes := ComesTo.intro hplan hlinks
      (fun m hm => heffects m (hlinks ▸ List.mem_append_left _ hm)) hv hmeets
    obtain ⟨plan', hplan', -⟩ := exists_plan_of_ok rfl hinner
    refine ih (hown _ _ _ ⟨_, _, plan', .here _ _, hcomes, hplan'⟩) rfl hinner ?_
    rintro l' key'' inner' ⟨outer, holder, plan'', hruns, hcomes', hplan''⟩
    exact hown l' key'' inner' ⟨outer, holder, plan'', .inside hcomes hruns, hcomes', hplan''⟩

/-- **Nested plans and the records that they meet.** For any source, in any tier, and whatever was
asked for before: if what the linked fields of the source lead to is always of the type declared
there, then every nested plan that is run meets a record of its own source type; and a conversion
that succeeds has no other way to do so. A source that fits is like that. Where a source is not,
nothing is refused. A nested field fails over what is no record, or over a record that fails in its
own conversion by that plan, whatever type the record has. -/
theorem convert_nested_plans (S : Schema) (tier : Tier) (src dst : Record) (direction : Direction)
    (history : List Store.Request) :
    let key := PlanKey.between src.type dst.type direction
    (src.fits S = true → src.KeepsTypes S key) ∧
    (src.KeepsTypes S key → tier.MeetsOwnTypes S key src) ∧
    ((tier.convert S (some src) (some dst) direction (Store.after S history)).1.1 = .ok () →
      tier.MeetsOwnTypes S key src → src.KeepsTypes S key) ∧
    (∀ (l : Link) key' v, l.transfer = .nested key' →
      ((∃ w, tier.image S v (tier.copier l) = .ok w) ↔ v = .null ∨ ∃ inner : Record,
        v = inner.toValue ∧
          (tier.outcome S key' inner (.initial S key'.target)).result = .ok ())) ∧
    ∀ (l : Link) key' v, l.transfer = .nestedList key' →
      ((∃ w, tier.image S v (tier.copier l) = .ok w) ↔ v = .null ∨ ∃ rs : List Record,
        v = .list (rs.map (·.toValue)) ∧
          ∀ r ∈ rs, (tier.outcome S key' r (.initial S key'.target)).result = .ok ()) := by
  intro key
  have hsrc : src.type = key.source := by simp [key]
  have hdst : dst.type = key.target := by simp [key]
  refine ⟨?_, ?_, ?_, ?_, ?_⟩
  · intro hfits key' r hreached
    exact (hreached.fits hsrc hfits).1
  · exact meetsOwnTypes_of_keepsTypes hsrc
  · intro hok hown key' r hreached
    rw [convert_after] at hok
    exact type_of_reached hreached hsrc hdst hok hown
  · intro l key' v h
    exact exists_image_nested_iff (looks_of_nested tier (.inl h)) h
  · intro l key' v h
    exact exists_image_nestedList_iff (looks_of_nested tier (.inr h)) h

end Tier

/-! ### A box with a record of another type -/

namespace Boxes

/-- A box is to hold an item, and its message takes anything. A tag has an item's field, at another
position. -/
def decls : List TypeDecl :=
  [⟨"BoxMessage", [⟨"item", .nested ⟨1⟩ false, false, .loose⟩]⟩,
   ⟨"ItemMessage", [⟨"id", .scalar .i64 false, false, .declared⟩]⟩,
   ⟨"TagMessage", [
      ⟨"code", .scalar .i64 false, false, .declared⟩,
      ⟨"id", .scalar .i64 false, false, .declared⟩]⟩,
   ⟨"Box", [⟨"item", .nested ⟨4⟩ false, false, .declared⟩]⟩,
   ⟨"Item", [⟨"id", .scalar .i64 false, false, .declared⟩]⟩]

theorem isSome_ofDecls? : (Schema.ofDecls? decls fun _ => .null).isSome = true := by decide

def schema : Schema := (Schema.ofDecls? decls fun _ => .null).get isSome_ofDecls?

def tag : Record := ⟨⟨2⟩, [.i64 7, .i64 8]⟩

/-- A message that holds a tag in place of its item. -/
def message : Record := ⟨⟨0⟩, [tag.toValue]⟩

/-- A box with an item of this number. -/
def box (id : Int64) : Record := ⟨⟨3⟩, [.record ⟨4⟩ [.i64 id]]⟩

def link : Link where
  name := "item"
  sourceIndex := 0
  targetIndex := 0
  sourceKind := .nested ⟨1⟩ false
  targetKind := .nested ⟨4⟩ false
  transfer := .nested (.between ⟨1⟩ ⟨4⟩ .toModel)

/-- Whatever the tier, the plan for items is run on the tag. -/
theorem runsNested_tag (tier : Tier) :
    tier.RunsNested schema (.between ⟨0⟩ ⟨3⟩ .toModel) message link (.between ⟨1⟩ ⟨4⟩ .toModel)
      tag := by
  have hread : (tier.copier link).read? schema message = some tag.toValue := by
    cases tier <;> rfl
  have hlinks : (Plan.ofDecls (.between ⟨0⟩ ⟨3⟩ .toModel) (schema.decl ⟨0⟩)
      (schema.decl ⟨3⟩)).links = [] ++ link :: [] := rfl
  exact ⟨_, message, _, .here _ _, .intro rfl hlinks (by simp) hread (.record _ tag), rfl⟩

/-- **A plan for items is run on the tag**, and nothing fails. By names the number of the tag is
copied, and by positions its code. -/
theorem tag_taken_for_item :
    (∀ tier : Tier, ¬ ∀ l key inner, tier.RunsNested schema (.between ⟨0⟩ ⟨3⟩ .toModel) message l
      key inner → inner.type = key.source) ∧
    (Tier.cached.convert schema (some message) (some (.initial schema ⟨3⟩)) .toModel
      (Store.after schema [])).1 = (.ok (), some (box 8)) ∧
    (Tier.compiled.convert schema (some message) (some (.initial schema ⟨3⟩)) .toModel
      (Store.after schema [])).1 = (.ok (), some (box 7)) := by
  refine ⟨fun tier hall => ?_, rfl, rfl⟩
  have htype : tag.type = (PlanKey.between ⟨1⟩ ⟨4⟩ .toModel).source :=
    hall _ _ _ (runsNested_tag tier)
  cases htype

end Boxes

end Crosswalk
