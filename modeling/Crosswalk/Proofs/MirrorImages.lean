import Crosswalk.Proofs.Fitting
import Crosswalk.Proofs.Reversal
import Crosswalk.Proofs.SharedFields

/-!
# The plans of a pair are mirror images

A plan is made for one direction, by a walk over the model's fields that is the same for both. The
direction only says, for each pair of fields, which of the two is read and which is written. So the
two plans of a pair have the same links in the same order, each turned round, and leave out the same
fields for the same causes (`Plan.resolve_mirrored`); and either both of them exist or none does.

How a link that is turned round transfers its values is `Transfer.Mirrors`, case by case. All cases
but one can be told from the one transfer alone. A narrowing conversion comes back as a widening one
where the kinds allow it, as from `f64` to `i32`, and as a narrowing one where neither kind contains
the other.
-/

namespace Crosswalk

/-! ### Conversions -/

/-- No two kinds widen to each other. -/
theorem ScalarKind.widensTo_asymm {k l : ScalarKind} (h : k.widensTo l = true) :
    l.widensTo k = false := by
  cases k <;> cases l <;> first | rfl | cases h

namespace ScalarConversion

/-- The second conversion is the one that leads back where the first one comes from. -/
inductive Mirrors : ScalarConversion → ScalarConversion → Prop
  | identity : Mirrors .identity .identity
  | widen (k l : ScalarKind) : Mirrors (.widen k l) (.narrow l k)
  | narrowWiden (k l : ScalarKind) : Mirrors (.narrow k l) (.widen l k)
  | narrow (k l : ScalarKind) : Mirrors (.narrow k l) (.narrow l k)
  | timeCodec (k l : ScalarKind) : Mirrors (.timeCodec k l) (.timeCodec l k)

variable {k l : ScalarKind} {c c' : ScalarConversion}

theorem Between.mirrors (h : Between k l c) (h' : Between l k c') : c.Mirrors c' := by
  cases h with
  | identity =>
    rw [h'.eq_identity]
    exact .identity
  | widen hwiden =>
    cases h' with
    | identity => exact absurd rfl (ScalarKind.numeric_of_widensTo hwiden).2.2
    | widen hback =>
      rw [ScalarKind.widensTo_asymm hwiden] at hback
      cases hback
    | narrow => exact .widen k l
    | readTime | writeTime => cases hwiden
  | narrow hk hl hne =>
    cases h' with
    | identity => exact absurd rfl hne
    | widen => exact .narrowWiden k l
    | narrow => exact .narrow k l
    | readTime | writeTime => cases hk
  | readTime =>
    cases h' with
    | widen hback => cases hback
    | narrow hk => cases hk
    | writeTime => exact .timeCodec _ _
  | writeTime =>
    cases h' with
    | widen hback => cases hback
    | narrow hk => cases hk
    | readTime => exact .timeCodec _ _

end ScalarConversion

/-! ### Transfers -/

namespace Presence

/-- The change of presence on the way back. -/
def flip : Presence → Presence
  | same => same
  | wrap => unwrap
  | unwrap => wrap

theorem flip_between (o o' : Bool) : (between o o').flip = between o' o := by
  cases o <;> cases o' <;> rfl

end Presence

namespace Transfer

/-- The second transfer moves values between the same two fields, the other way. -/
inductive Mirrors : Transfer → Transfer → Prop
  | scalar {c c' : ScalarConversion} (h : c.Mirrors c') (presence : Presence) :
    Mirrors (.scalar c presence) (.scalar c' presence.flip)
  | scalarList {c c' : ScalarConversion} (h : c.Mirrors c') :
    Mirrors (.scalarList c) (.scalarList c')
  | nested (key : PlanKey) : Mirrors (.nested key) (.nested key.flip)
  | nestedList (key : PlanKey) : Mirrors (.nestedList key) (.nestedList key.flip)
  | impossible (source target : FieldKind) :
    Mirrors (.impossible source target) (.impossible target source)

theorem Opposite.mirrors {direction : Direction} {source target : FieldKind} {t t' : Transfer}
    (h : Opposite direction source target t t') : t.Mirrors t' := by
  cases h with
  | scalar h h' o o' =>
    rw [← Presence.flip_between o o']
    exact .scalar (h.mirrors h') _
  | scalarList h h' => exact .scalarList (h.mirrors h')
  | nested t u o o' =>
    rw [← PlanKey.flip_between]
    exact .nested _
  | nestedList t u =>
    rw [← PlanKey.flip_between]
    exact .nestedList _
  | impossible => exact .impossible _ _

/-- A transfer that hands values over does so both ways. -/
theorem Mirrors.isDirect_eq {t t' : Transfer} (h : t.Mirrors t') : t'.isDirect = t.isDirect := by
  cases h with
  | scalar h presence => cases h <;> cases presence <;> rfl
  | scalarList h => cases h <;> rfl
  | _ => rfl

end Transfer

/-! ### Links -/

/-- The second link is the first one turned round: it has the same name, its ends are exchanged with
their positions and kinds, and its transfer goes the other way. -/
structure Link.Mirrors (l l' : Link) : Prop extends l.Reverses l' where
  name_eq : l'.name = l.name
  transfer_mirrors : l.transfer.Mirrors l'.transfer
  isDirect_eq : l'.transfer.isDirect = l.transfer.isDirect

theorem Link.mirrors_join (direction : Direction) (w m : Column) :
    (Link.join direction w m).Mirrors (.join direction.flip w m) := by
  have htransfer : (Link.join direction w m).transfer.Mirrors
      (Link.join direction.flip w m).transfer := by
    cases direction with
    | toModel => exact (Transfer.opposite_between .toModel w.kind m.kind).mirrors
    | toWire => exact (Transfer.opposite_between .toWire m.kind w.kind).mirrors
  exact {
    Link.reverses_join direction w m with
    name_eq := by rw [Plan.name_join, Plan.name_join]
    transfer_mirrors := htransfer
    isDirect_eq := htransfer.isDirect_eq }

/-! ### Plans -/

namespace Plan

variable (key : PlanKey) (wire model : TypeDecl)

theorem forall₂_links_flip :
    List.Forall₂ Link.Mirrors (ofDecls key wire model).links
      (ofDecls key.flip wire model).links := by
  rw [links_ofDecls, links_ofDecls, List.forall₂_map_left_iff, List.forall₂_map_right_iff]
  exact List.forall₂_same.mpr fun p _ => Link.mirrors_join key.direction p.1 p.2

theorem fieldNames_ofDecls_flip :
    (ofDecls key.flip wire model).fieldNames = (ofDecls key wire model).fieldNames := by
  rw [fieldNames, fieldNames, links_ofDecls, links_ofDecls, List.map_map, List.map_map]
  refine List.map_congr_left fun p _ => ?_
  rw [Function.comp_apply, Function.comp_apply, name_join, name_join]

/-- What is left out of the wire type depends on the names of the links only. -/
theorem wireOmission?_congr {links links' : List Link}
    (h : links'.map (·.name) = links.map (·.name)) (w : Column) :
    wireOmission? links' w = wireOmission? links w := by
  have hany (links : List Link) : links.any (·.name = w.name) =
      (links.map (·.name)).any (· = w.name) := by
    rw [List.any_map]
    rfl
  rw [wireOmission?, wireOmission?, hany, hany, h]

theorem omissions_ofDecls_flip :
    (ofDecls key.flip wire model).omissions = (ofDecls key wire model).omissions := by
  have hwire := wireOmission?_congr (fieldNames_ofDecls_flip key wire model)
  exact congrArg (_ ++ ·) (List.filterMap_congr fun w _ => hwire w)

/-- **The two plans of a pair of types are mirror images.** There is none in one direction exactly
if there is none in the other, and then one field is to blame for both. If there are plans then they
link the same names in the same order and leave out the same fields, and each link of one of them is
the link of the other turned round. -/
theorem resolve_mirrored (S : Schema) (t u : TypeId) (direction : Direction) :
    let key := PlanKey.between t u direction
    let back := PlanKey.between u t direction.flip
    ((∃ e, resolve S key = .error e) ↔ ∃ e, resolve S back = .error e) ∧
      (∀ e, resolve S key = .error e → resolve S back = .error { e with key := back }) ∧
      ∀ plan plan', resolve S key = .ok plan → resolve S back = .ok plan' →
        plan'.fieldNames = plan.fieldNames ∧ plan'.omissions = plan.omissions ∧
          List.Forall₂ Link.Mirrors plan.links plan'.links := by
  intro key back
  have hflip : back = key.flip := (PlanKey.flip_between t u direction).symm
  have hpair : back.pair = key.pair := by
    rw [hflip]
    rfl
  refine ⟨?_, fun e he => ?_, fun plan plan' h h' => ?_⟩
  · rw [resolve_eq_error_iff, resolve_eq_error_iff, hpair]
  · rw [resolve_eq_error_iff_repeats] at he ⊢
    rw [hpair]
    exact ⟨rfl, he.2⟩
  · obtain ⟨-, -, rfl⟩ := resolve_eq_ok_iff.mp h
    obtain ⟨-, -, rfl⟩ := resolve_eq_ok_iff.mp h'
    rw [hpair, hflip]
    exact ⟨fieldNames_ofDecls_flip _ _ _, omissions_ofDecls_flip _ _ _, forall₂_links_flip _ _ _⟩

/-- Parcels go both ways by plans that are mirror images. -/
theorem resolve_mirrored_parcels :
    let key := PlanKey.between ⟨0⟩ ⟨2⟩ .toModel
    let back := PlanKey.between ⟨2⟩ ⟨0⟩ .toWire
    ∃ plan plan', resolve Parcels.schema key = .ok plan ∧ resolve Parcels.schema back = .ok plan' ∧
      plan'.fieldNames = ["codes", "from", "weight", "price", "sent", "stops"] ∧
      plan'.omissions = [⟨"hook", .wire, .unsupported .function⟩] ∧
      List.Forall₂ Link.Mirrors plan.links plan'.links := by
  intro key back
  obtain ⟨plan, h⟩ : ∃ plan, resolve Parcels.schema key = .ok plan := ⟨_, rfl⟩
  obtain ⟨plan', h'⟩ : ∃ plan', resolve Parcels.schema back = .ok plan' := ⟨_, rfl⟩
  obtain ⟨-, -, hmirrored⟩ := resolve_mirrored Parcels.schema ⟨0⟩ ⟨2⟩ .toModel
  obtain ⟨hnames, homissions, hlinks⟩ := hmirrored plan plan' h h'
  cases h
  exact ⟨_, plan', rfl, h', hnames, homissions, hlinks⟩

end Plan

end Crosswalk
