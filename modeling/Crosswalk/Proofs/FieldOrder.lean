import Crosswalk.Proofs.Fitting
import Crosswalk.Proofs.Histories
import Crosswalk.Proofs.LinkEffects
import Mathlib.Data.List.Perm.Basic

/-!
# The order of the fields

A plan has its links in the order of the model's fields, and a conversion carries them out in that
order up to the first that fails. So the order decides which failure is reported and what it leaves
behind. It decides nothing else: in any other order the links of a plan succeed if and only if they
succeed in the order of the plan, and then they leave the same destination (`Tier.copyFrom_perm`).

Two facts about effects carry this. The effect of a link does not depend on what the destination
holds, so it is the same whenever its turn comes. And no two links of a plan have effects in one
position (`Plan.eq_of_targetIndex?_eq`), since they differ in their names and in their positions,
and these lead to different fields in records of any type. Nothing is assumed about the two records,
not even that they are of the types that the plan was made for.
-/

namespace Crosswalk

variable {S : Schema} {key : PlanKey} {plan : Plan} {tier : Tier} {type : TypeId}

/-! ### Effects in distinct places -/

theorem Record.place_comm (r : Record) {p q : Placement} (h : p.index ≠ q.index) :
    (r.place p).place q = (r.place q).place p := by
  rw [place, place, place, place, List.modify_modify_ne _ _ _ h]

/-- Changes in distinct places may be made in any order. -/
theorem Record.placeAll_perm (r : Record) {ps qs : List Placement} (h : ps.Perm qs)
    (hps : (ps.map (·.index)).Nodup) : r.placeAll ps = r.placeAll qs := by
  refine h.foldl_eq' (fun p hp q hq s => ?_) r
  by_cases hindex : p.index = q.index
  · rw [List.inj_on_of_nodup_map hps hp hq hindex]
  · exact s.place_comm hindex

namespace Outcome

/-- Whether effects succeed does not depend on their order, nor on the destination. -/
theorem result_ofEffects_perm {effects effects' : List Effect} (h : effects'.Perm effects)
    (dst : Record) :
    (ofEffects effects' dst).result = .ok () ↔ (ofEffects effects dst).result = .ok () := by
  rw [result_ofEffects_eq_ok_iff, result_ofEffects_eq_ok_iff]
  exact forall_congr' fun effect => by rw [h.mem_iff]

/-- Effects that succeed, in distinct places, leave the same destination in any order. -/
theorem target_ofEffects_perm {effects effects' : List Effect} (h : effects'.Perm effects)
    (hdistinct : ∀ ps : List Placement, effects = ps.map .ok → (ps.map (·.index)).Nodup)
    {dst : Record} (hok : (ofEffects effects dst).result = .ok ()) :
    (ofEffects effects' dst).target = (ofEffects effects dst).target := by
  have hok' := (result_ofEffects_perm h dst).mpr hok
  rcases ofEffects_cases effects with ⟨ps, rfl, hrun⟩ | ⟨ps, e, rest, -, hrun⟩
  · rcases ofEffects_cases effects' with ⟨ps', rfl, hrun'⟩ | ⟨ps', e, rest, -, hrun'⟩
    · have hperm : ps'.Perm ps := (List.map_perm_map_iff fun _ _ => Except.ok.inj).mp h
      rw [hrun, hrun', dst.placeAll_perm hperm.symm (hdistinct ps rfl)]
    · rw [hrun'] at hok'
      cases hok'
  · rw [hrun] at hok
    cases hok

end Outcome

/-! ### Where copiers write -/

/-- The position at which a record of the type is written, if there is one to be found. -/
def Copier.targetIndex? (S : Schema) (c : Copier) (type : TypeId) : Option Nat :=
  match c with
  | byName link => ((S.decl type).column? link.name).map Column.index
  | byPosition link | handOver link => some link.targetIndex

theorem Copier.targetIndex?_of_placement {c : Copier} {v : Value} {p : Placement}
    (h : c.placement S type v = .ok p) : c.targetIndex? S type = some p.index := by
  cases c with
  | byName link =>
    rw [placement] at h
    rw [targetIndex?]
    cases hcolumn : (S.decl type).column? link.name with
    | none =>
      rw [hcolumn] at h
      cases h
    | some column =>
      rw [hcolumn] at h
      rw [Option.map_some, Schema.index_of_placement h]
  | byPosition link => rw [targetIndex?, Schema.index_of_placement h]
  | handOver link => rw [targetIndex?, Schema.index_of_placement h]

/-- A copier has its effect where it writes. -/
theorem Tier.targetIndex?_of_effect {c : Copier} {src : Record} {p : Placement}
    (h : tier.effect S src type c = .ok p) : c.targetIndex? S type = some p.index := by
  rw [effect_eq] at h
  split at h
  · cases h
  · split at h
    · cases h
    · split at h
      · cases h
      · next hplacement =>
        cases h
        exact Copier.targetIndex?_of_placement hplacement

/-- Two columns at one position are one column. -/
theorem TypeDecl.eq_of_index_eq {d : TypeDecl} {a b : Column} (ha : a ∈ d.columns)
    (hb : b ∈ d.columns) (h : a.index = b.index) : a = b := by
  rw [mem_columns_iff] at ha hb
  rw [h, hb, Option.some.injEq] at ha
  cases a
  cases b
  simp_all

/-- **No two links of a plan write to one position**, in records of any type. -/
theorem Plan.eq_of_targetIndex?_eq (h : resolve S key = .ok plan) {l l' : Link}
    (hl : l ∈ plan.links) (hl' : l' ∈ plan.links) {index : Nat}
    (hindex : (tier.copier l).targetIndex? S type = some index)
    (hindex' : (tier.copier l').targetIndex? S type = some index) : l = l' := by
  cases tier with
  | naive | cached =>
    refine List.inj_on_of_nodup_map (names_nodup h) hl hl' ?_
    obtain ⟨c, hc, rfl⟩ := Option.map_eq_some_iff.mp hindex
    obtain ⟨c', hc', hsame⟩ := Option.map_eq_some_iff.mp hindex'
    obtain ⟨hmem, hname⟩ := TypeDecl.mem_of_column? _ hc
    obtain ⟨hmem', hname'⟩ := TypeDecl.mem_of_column? _ hc'
    rw [← hname, ← hname', TypeDecl.eq_of_index_eq hmem hmem' hsame.symm]
  | compiled =>
    refine List.inj_on_of_nodup_map (targetIndices_nodup h) hl hl' ?_
    have hcompiled (m : Link) :
        (Tier.compiled.copier m).targetIndex? S type = some m.targetIndex := by
      rw [Tier.copier, Copier.compile]
      split <;> rfl
    rw [hcompiled] at hindex hindex'
    rw [Option.some.inj hindex, Option.some.inj hindex']

/-- If all links of a plan succeed, they do so in distinct places. -/
theorem Plan.indices_nodup (h : resolve S key = .ok plan) {src : Record} {ps : List Placement}
    (hps : plan.links.map (fun l => tier.effect S src type (tier.copier l)) = ps.map .ok) :
    (ps.map (·.index)).Nodup := by
  have hindices : plan.links.map (fun l => (tier.copier l).targetIndex? S type) =
      (ps.map (·.index)).map some := by
    rw [List.map_map]
    rw [← List.forall₂_eq_eq_eq, List.forall₂_map_left_iff, List.forall₂_map_right_iff] at hps ⊢
    exact hps.imp fun l p hlp => Tier.targetIndex?_of_effect hlp
  refine List.Nodup.of_map some ?_
  rw [← hindices]
  -- Positions that are not to be found would be equal, but those of effects that succeed are found.
  refine (List.Nodup.of_map _ (names_nodup h)).map_on fun l hl l' hl' hsame => ?_
  have hmem : (tier.copier l).targetIndex? S type ∈ (ps.map (·.index)).map some := by
    rw [← hindices]
    exact List.mem_map_of_mem hl
  obtain ⟨index, -, hindex⟩ := List.mem_map.mp hmem
  exact eq_of_targetIndex?_eq h hl hl' hindex.symm (hsame ▸ hindex.symm)

/-! ### Whole conversions -/

namespace Tier

/-- **The order of the fields does not matter.** In any tier, from any record into any other, and
whatever was asked for before: the links of a plan, carried out in some other order, succeed if and
only if the conversion does that carries them out in the order of the plan, and then they leave the
same destination. -/
theorem copyFrom_perm (S : Schema) (tier : Tier) (key : PlanKey) (plan : Plan)
    (hplan : Plan.resolve S key = .ok plan) (links : List Link) (hperm : links.Perm plan.links)
    (src dst : Record) (history history' : List Store.Request) :
    let inOrder := (tier.run S key src dst (Store.after S history)).1
    let reordered := (tier.copyFrom S src (links.map tier.copier) dst (Store.after S history')).1
    (reordered.result = .ok () ↔ inOrder.result = .ok ()) ∧
      (inOrder.result = .ok () → reordered.target = inOrder.target) := by
  intro inOrder reordered
  have hrun : inOrder =
      .ofEffects (plan.links.map fun l => tier.effect S src dst.type (tier.copier l)) dst := by
    have hin : inOrder = tier.outcome S key src dst :=
      (yields_run tier key src dst _ (Store.consistent_after history)).1
    rw [hin, outcome_eq, program, hplan]
    dsimp only
    rw [List.map_map]
    rfl
  have hcopy : reordered =
      .ofEffects (links.map fun l => tier.effect S src dst.type (tier.copier l)) dst := by
    have hout : reordered =
        .ofEffects ((links.map tier.copier).map (tier.effect S src dst.type)) dst :=
      (yields_copyFrom src _ dst _ (Store.consistent_after history')).1
    rw [hout, List.map_map]
    rfl
  rw [hrun, hcopy]
  exact ⟨Outcome.result_ofEffects_perm (hperm.map _) dst,
    Outcome.target_ofEffects_perm (hperm.map _) fun _ => Plan.indices_nodup hplan⟩

/-- The links of the parcel, the last one first, carried out by position after another conversion
has failed. -/
theorem copyFrom_parcel_reversed :
    let key := PlanKey.between ⟨0⟩ ⟨2⟩ .toModel
    let plan := Plan.ofDecls key (Parcels.schema.decl ⟨0⟩) (Parcels.schema.decl ⟨2⟩)
    let start := Record.initial Parcels.schema ⟨2⟩
    let inOrder := (compiled.run Parcels.schema key Parcels.parcel start
      (Store.after Parcels.schema [])).1
    let reordered := (compiled.copyFrom Parcels.schema Parcels.parcel
      (plan.links.reverse.map compiled.copier) start (Store.after Parcels.schema
        [.convert compiled (some Parcels.oddParcel) (some start) .toModel])).1
    (Plan.resolve Parcels.schema key = .ok plan ∧ plan.links.reverse.Perm plan.links) ∧
      reordered.result = .ok () ∧ reordered.target = inOrder.target := by
  intro key plan start inOrder reordered
  have hplan : Plan.resolve Parcels.schema key = .ok plan := rfl
  have hperm : plan.links.reverse.Perm plan.links := List.reverse_perm _
  have hok : inOrder.result = .ok () := by decide +kernel
  obtain ⟨hiff, htarget⟩ := copyFrom_perm Parcels.schema compiled key plan hplan plan.links.reverse
    hperm Parcels.parcel start []
    [.convert compiled (some Parcels.oddParcel) (some start) .toModel]
  exact ⟨⟨hplan, hperm⟩, hiff.mpr hok, htarget hok⟩

end Tier

end Crosswalk
