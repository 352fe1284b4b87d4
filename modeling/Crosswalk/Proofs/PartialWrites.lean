import Crosswalk.Proofs.Fitting
import Crosswalk.Proofs.Histories
import Crosswalk.Proofs.LinkEffects

/-!
# What a failed conversion leaves behind

A conversion stops at the first link that fails, and what it wrote before stays written. The
destination is then neither what it was nor what was asked for, and a caller wants to know exactly
which. `Tier.convert_leaves` says it: the links before the failing one have been carried out as in
any successful conversion, and every other field reads as before.

Nothing is assumed about the source. The destination has ordinary fields. That is what makes a link
either write its whole field or leave it alone: an ordinary field takes a value as a whole, and a
nested record is built apart from the destination.

`Tier.arrival` is what a link brings to its target field. It depends on the source by the field that
the link reads (`Tier.arrival_congr`), and on the destination by its type.
-/

namespace Crosswalk

variable {S : Schema} {tier : Tier} {key : PlanKey} {plan : Plan} {src dst : Record}

/-- What the link leaves in its target field where there was nothing, in a record of the target
type. An ordinary field ends up with that whatever was there. -/
def Tier.arrival (S : Schema) (tier : Tier) (src : Record) (target : TypeId) (l : Link) :
    Except ConvertError Value :=
  (tier.effect S src target (tier.copier l)).map (·.change .null)

/-- The links have been carried out, and nothing else has been done. -/
structure CarriedOut (S : Schema) (tier : Tier) (src : Record) (links : List Link)
    (before after : Record) : Prop where
  type_eq : after.type = before.type
  /-- The target field of each link reads what arrives there. -/
  arrived : ∀ l ∈ links, ∃ v, tier.arrival S src before.type l = .ok v ∧
    after.get? S l.targetIndex = some v
  /-- Every other field reads as before. -/
  kept : ∀ index, index ∉ links.map (·.targetIndex) → after.get? S index = before.get? S index

theorem Tier.arrival_congr (h : Plan.resolve S key = .ok plan) {l : Link} (hl : l ∈ plan.links)
    {src' : Record} (hsrc : src.type = key.source) (hsrc' : src'.type = key.source)
    (hread : src'.get? S l.sourceIndex = src.get? S l.sourceIndex) :
    tier.arrival S src' key.target l = tier.arrival S src key.target l := by
  rw [arrival, arrival, effect_copier h hl tier hsrc, effect_copier h hl tier hsrc', hread, hsrc,
    hsrc']

theorem Tier.map_targetIndex_eq (h : Plan.resolve S key = .ok plan) (hsrc : src.type = key.source)
    {links : List Link} (hlinks : links.Sublist plan.links) {ps : List Placement}
    (hps : links.map (fun l => tier.effect S src key.target (tier.copier l)) = ps.map .ok) :
    links.map (·.targetIndex) = ps.map (·.index) := by
  rw [← List.forall₂_eq_eq_eq, List.forall₂_map_left_iff, List.forall₂_map_right_iff] at hps ⊢
  have hpairs := (List.forall₂_and_left links ps).mpr ⟨fun l hl => hlinks.mem hl, hps⟩
  exact hpairs.imp fun l p hlp => (index_of_effect h hlp.1 hsrc hlp.2).symm

/-- Links that have all succeeded have been carried out by the placements they came to. -/
theorem carriedOut_placeAll (h : Plan.resolve S key = .ok plan) (hsrc : src.type = key.source)
    (hdst : dst.type = key.target) (hplain : (dst.decl S).Plain) (hwhole : dst.Whole S)
    {links : List Link} (hlinks : links.Sublist plan.links) {ps : List Placement}
    (hps : links.map (fun l => tier.effect S src key.target (tier.copier l)) = ps.map .ok) :
    CarriedOut S tier src links dst (dst.placeAll ps) := by
  have hindices := Tier.map_targetIndex_eq h hsrc hlinks hps
  have hnodup : (ps.map (·.index)).Nodup := by
    rw [← hindices]
    exact (Plan.targetIndices_nodup h).sublist (hlinks.map _)
  have hget (index : Nat) :
      (dst.placeAll ps).get? S index = (dst.placeAll ps).cells[index]? := by
    refine Record.get?_eq_getElem? ?_ ?_ index
    · rwa [Record.decl, Record.type_placeAll]
    · rwa [Record.Whole, Record.length_placeAll, Record.decl, Record.type_placeAll]
  constructor
  · exact Record.type_placeAll _ _
  · intro l hl
    have hmem := List.mem_map_of_mem hl
      (f := fun l => tier.effect S src key.target (tier.copier l))
    rw [hps, List.mem_map] at hmem
    obtain ⟨p, hp, hlp⟩ := hmem
    obtain ⟨cell, rfl⟩ := Tier.exists_put_of_effect h (hlinks.mem hl) hsrc
      (by rwa [Record.decl, hdst] at hplain) hlp.symm
    obtain ⟨source, target, hj⟩ := Plan.exists_joins h (hlinks.mem hl)
    obtain ⟨v, hv⟩ := Record.exists_get? hplain hwhole
      (by rw [Record.decl, hdst]; exact hj.target_mem)
    rw [Record.get?_eq_getElem? hplain hwhole, ← hj.targetIndex_eq] at hv
    refine ⟨cell, by rw [Tier.arrival, hdst, ← hlp]; rfl, ?_⟩
    have hplaced : (dst.placeAll ps).cells[l.targetIndex]? =
        dst.cells[l.targetIndex]?.map fun _ => cell := dst.getElem?_placeAll hnodup hp
    rw [hget, hplaced, hv, Option.map_some]
  · intro index hindex
    rw [hindices] at hindex
    rw [hget, dst.getElem?_placeAll_of_not_mem hindex, Record.get?_eq_getElem? hplain hwhole]

theorem Tier.outcome_eq_ofEffects (tier : Tier) (src : Record) (h : Plan.resolve S key = .ok plan)
    (hdst : dst.type = key.target) :
    tier.outcome S key src dst =
      .ofEffects (plan.links.map fun l => tier.effect S src key.target (tier.copier l)) dst := by
  rw [outcome_eq, program, h, hdst]
  dsimp only
  rw [List.map_map]
  rfl

/-- **A run carries out links up to the first that fails**, and where that is has nothing to do with
the destination. -/
theorem Tier.outcome_uniform (tier : Tier) (src : Record) (h : Plan.resolve S key = .ok plan)
    (hsrc : src.type = key.source) (hplain : (S.decl key.target).Plain) :
    (∀ dst : Record, dst.type = key.target → dst.Whole S →
        (tier.outcome S key src dst).result = .ok () ∧
          CarriedOut S tier src plan.links dst (tier.outcome S key src dst).target) ∨
      ∃ done l rest e, plan.links = done ++ l :: rest ∧
        tier.arrival S src key.target l = .error e ∧
        ∀ dst : Record, dst.type = key.target → dst.Whole S →
          (tier.outcome S key src dst).result = .error e ∧
            CarriedOut S tier src done dst (tier.outcome S key src dst).target := by
  rcases Outcome.ofEffects_cases
      (plan.links.map fun l => tier.effect S src key.target (tier.copier l)) with
    ⟨ps, hps, hrun⟩ | ⟨ps, e, failed, hps, hrun⟩
  · refine .inl fun dst hdst hwhole => ?_
    have hplain' : (dst.decl S).Plain := by rwa [Record.decl, hdst]
    rw [outcome_eq_ofEffects tier src h hdst, hrun]
    exact ⟨rfl, carriedOut_placeAll h hsrc hdst hplain' hwhole (List.Sublist.refl _) hps⟩
  · obtain ⟨done, tail, hlinks, hdone, htail⟩ := List.map_eq_append_iff.mp hps
    obtain ⟨l, rest, rfl, hl, -⟩ := List.map_eq_cons_iff.mp htail
    refine .inr ⟨done, l, rest, e, hlinks, by rw [arrival, hl]; rfl, fun dst hdst hwhole => ?_⟩
    have hplain' : (dst.decl S).Plain := by rwa [Record.decl, hdst]
    rw [outcome_eq_ofEffects tier src h hdst, hrun]
    refine ⟨rfl, carriedOut_placeAll h hsrc hdst hplain' hwhole ?_ hdone⟩
    rw [hlinks]
    exact List.sublist_append_left _ _

theorem Tier.outcome_carriedOut (tier : Tier) (src : Record)
    (h : Plan.resolve S key = .ok plan) (hsrc : src.type = key.source)
    (hdst : dst.type = key.target) (hplain : (dst.decl S).Plain) (hwhole : dst.Whole S) :
    ((tier.outcome S key src dst).result = .ok () ∧
        CarriedOut S tier src plan.links dst (tier.outcome S key src dst).target) ∨
      ∃ done l rest e, plan.links = done ++ l :: rest ∧
        (tier.outcome S key src dst).result = .error e ∧
        tier.arrival S src dst.type l = .error e ∧
        CarriedOut S tier src done dst (tier.outcome S key src dst).target := by
  rw [Record.decl, hdst] at hplain
  rcases outcome_uniform tier src h hsrc hplain with
    hall | ⟨done, l, rest, e, hlinks, harrival, hall⟩
  · exact .inl (hall dst hdst hwhole)
  · obtain ⟨hresult, hdone⟩ := hall dst hdst hwhole
    exact .inr ⟨done, l, rest, e, hlinks, hresult, by rw [hdst, harrival], hdone⟩

theorem Tier.carriedOut_of_ok (h : Plan.resolve S key = .ok plan) (hsrc : src.type = key.source)
    (hdst : dst.type = key.target) (hplain : (dst.decl S).Plain) (hwhole : dst.Whole S)
    (hok : (tier.outcome S key src dst).result = .ok ()) :
    CarriedOut S tier src plan.links dst (tier.outcome S key src dst).target := by
  rcases outcome_carriedOut tier src h hsrc hdst hplain hwhole with
    ⟨-, hall⟩ | ⟨-, -, -, e, -, hfailed, -⟩
  · exact hall
  · rw [hok] at hfailed
    cases hfailed

/-- What a link leaves in a successful run, it leaves in any run that gets as far and reads the same
in its field. -/
theorem CarriedOut.get?_eq (h : Plan.resolve S key = .ok plan) {links links' : List Link}
    {src' dst' after after' : Record} (hdone : CarriedOut S tier src links dst after)
    (hdone' : CarriedOut S tier src' links' dst' after') (hsrc : src.type = key.source)
    (hsrc' : src'.type = key.source) (hdst : dst.type = key.target) (hdst' : dst'.type = key.target)
    {l : Link} (hplan : l ∈ plan.links) (hl : l ∈ links) (hl' : l ∈ links')
    (hread : src'.get? S l.sourceIndex = src.get? S l.sourceIndex) :
    after'.get? S l.targetIndex = after.get? S l.targetIndex := by
  obtain ⟨v, hv, hafter⟩ := hdone.arrived l hl
  obtain ⟨v', hv', hafter'⟩ := hdone'.arrived l hl'
  rw [hdst] at hv
  rw [hdst', Tier.arrival_congr h hplan hsrc hsrc' hread, hv] at hv'
  cases hv'
  rw [hafter, hafter']

theorem CarriedOut.nothing (S : Schema) (tier : Tier) (src dst : Record) :
    CarriedOut S tier src [] dst dst :=
  ⟨rfl, fun _ hl => absurd hl List.not_mem_nil, fun _ _ => rfl⟩

/-- The same links carried out from one source, in two destinations of one type, leave the same. -/
theorem CarriedOut.get?_eq_get? {links : List Link} {dst' after after' : Record}
    (hdone : CarriedOut S tier src links dst after)
    (hdone' : CarriedOut S tier src links dst' after') (htype : dst'.type = dst.type) {l : Link}
    (hl : l ∈ links) : after'.get? S l.targetIndex = after.get? S l.targetIndex := by
  obtain ⟨v, hv, hafter⟩ := hdone.arrived l hl
  obtain ⟨v', hv', hafter'⟩ := hdone'.arrived l hl
  rw [htype, hv] at hv'
  cases hv'
  rw [hafter, hafter']

/-- Links that have not been carried out have left their fields alone. -/
theorem CarriedOut.get?_of_later (h : Plan.resolve S key = .ok plan) {done rest : List Link}
    (hlinks : plan.links = done ++ rest) {left : Record}
    (hdone : CarriedOut S tier src done dst left) {l : Link} (hl : l ∈ rest) :
    left.get? S l.targetIndex = dst.get? S l.targetIndex := by
  refine hdone.kept _ fun hmem => ?_
  have hnodup := Plan.targetIndices_nodup h
  rw [hlinks, List.map_append, List.nodup_append] at hnodup
  exact hnodup.2.2 _ hmem _ (List.mem_map_of_mem hl) rfl

/-- **What a conversion leaves behind**, into a destination with ordinary fields and from any source
whatsoever. Without a source, a destination or a plan the destination is unchanged. Otherwise there
is a destination afterwards, and either every link has been carried out, or there is a first one
that fails. Then the error is the one of that link, the links before it have been carried out, and
its own field and the fields of all later links read as before, as does every field that has no
link. What the links before it have left is what any successful conversion leaves that reads the
same in their source fields. -/
theorem Tier.convert_leaves (S : Schema) (tier : Tier) (src dst : Option Record)
    (hdst : ∀ r ∈ dst, (r.decl S).Plain ∧ r.Whole S) (direction : Direction)
    (history : List Store.Request) :
    let answer := (tier.convert S src dst direction (Store.after S history)).1
    match src, dst with
    | none, _ => answer = (.error (.absent .source), dst)
    | some _, none => answer = (.error (.absent .destination), none)
    | some src, some dst =>
      match Plan.resolve S (.between src.type dst.type direction) with
      | .error cause => answer = (.error (.noPlan cause), some dst)
      | .ok plan => ∃ left, answer.2 = some left ∧
        ((answer.1 = .ok () ∧ CarriedOut S tier src plan.links dst left) ∨
          ∃ done l rest e, plan.links = done ++ l :: rest ∧ answer.1 = .error e ∧
            tier.arrival S src dst.type l = .error e ∧ CarriedOut S tier src done dst left ∧
            (∀ m ∈ l :: rest, left.get? S m.targetIndex = dst.get? S m.targetIndex) ∧
            ∀ (src' dst' left' : Record) (history' : List Store.Request), src'.type = src.type →
              dst'.type = dst.type → dst'.Whole S →
              (tier.convert S (some src') (some dst') direction (Store.after S history')).1 =
                (.ok (), some left') →
              ∀ m ∈ done, src'.get? S m.sourceIndex = src.get? S m.sourceIndex →
                left'.get? S m.targetIndex = left.get? S m.targetIndex) := by
  intro answer
  cases src with
  | none => rfl
  | some src =>
    cases dst with
    | none => rfl
    | some dst =>
      obtain ⟨hplain, hwhole⟩ := hdst dst rfl
      have hanswer : answer = _ := convert_after S tier src dst direction history
      dsimp only
      rw [hanswer]
      cases hplan : Plan.resolve S (.between src.type dst.type direction) with
      | error cause =>
        dsimp only
        rw [outcome_eq, program, hplan]
      | ok plan =>
        refine ⟨_, rfl, ?_⟩
        rcases outcome_carriedOut tier src hplan (by simp) (by simp) hplain
          hwhole with hall | ⟨done, l, rest, e, hlinks, hresult, harrival, hdone⟩
        · exact .inl hall
        · refine .inr ⟨done, l, rest, e, hlinks, hresult, harrival, hdone, fun m hm => ?_, ?_⟩
          · exact hdone.get?_of_later hplan hlinks hm
          · intro src' dst' left' history' hsrc' hdst' hwhole' hrun m hm hread
            have hplan' : Plan.resolve S (.between src'.type dst'.type direction) = .ok plan := by
              rw [hsrc', hdst', hplan]
            have hplain' : (dst'.decl S).Plain := by rwa [Record.decl, hdst']
            have hm' : m ∈ plan.links := by rw [hlinks]; exact List.mem_append_left _ hm
            rw [convert_after, Prod.mk.injEq, Option.some.injEq] at hrun
            obtain ⟨hok, rfl⟩ := hrun
            have hall := carriedOut_of_ok hplan' (by simp) (by simp) hplain' hwhole' hok
            exact hdone.get?_eq hplan hall (by simp) (by simp [hsrc']) (by simp) (by simp [hdst'])
              hm' hm hm' hread

/-- A parcel whose time of sending is no instant. The conversion fails at that link, which has
others before and after it. -/
theorem Tier.convert_oddParcel_leaves :
    let start := Record.initial Parcels.schema ⟨2⟩
    let e := ConvertError.mismatch [⟨"sent", none⟩] (.scalar .timestamp false)
      (.scalar .datetime true) (.lossy (.timeCodec .timestamp .datetime))
    ((start.decl Parcels.schema).Plain ∧ start.Whole Parcels.schema) ∧
      ∃ left done l rest,
        (compiled.convert Parcels.schema (some Parcels.oddParcel) (some start) .toModel
          (Store.after Parcels.schema [])).1 = (.error e, some left) ∧
        (Plan.ofDecls (.between ⟨0⟩ ⟨2⟩ .toModel) (Parcels.schema.decl ⟨0⟩)
          (Parcels.schema.decl ⟨2⟩)).links = done ++ l :: rest ∧
        compiled.arrival Parcels.schema Parcels.oddParcel ⟨2⟩ l = .error e ∧
        CarriedOut Parcels.schema compiled Parcels.oddParcel done start left := by
  intro start e
  have hstart : (start.decl Parcels.schema).Plain ∧ start.Whole Parcels.schema :=
    ⟨Parcels.plain _, rfl⟩
  refine ⟨hstart, ?_⟩
  have h := convert_leaves Parcels.schema compiled (some Parcels.oddParcel) (some start)
    (fun r hr => by rw [← Option.some.inj hr]; exact hstart) .toModel []
  have hplan : Plan.resolve Parcels.schema (.between Parcels.oddParcel.type start.type .toModel) =
      .ok (Plan.ofDecls (.between ⟨0⟩ ⟨2⟩ .toModel) (Parcels.schema.decl ⟨0⟩)
        (Parcels.schema.decl ⟨2⟩)) := rfl
  have hfails : (compiled.convert Parcels.schema (some Parcels.oddParcel) (some start) .toModel
      (Store.after Parcels.schema [])).1.1 = .error e := by decide +kernel
  dsimp only at h
  rw [hplan, hfails] at h
  obtain ⟨left, hleft, ⟨hok, -⟩ | ⟨done, l, rest, e', hlinks, he, hl, hdone, -⟩⟩ := h
  · cases hok
  · cases he
    exact ⟨left, done, l, rest, Prod.ext hfails hleft, hlinks, hl, hdone⟩

end Crosswalk
