import Crosswalk.Proofs.Coercion
import Crosswalk.Proofs.Links

/-!
# The two directions of a pair

A pair of types has two plans, one for each direction, and they join the same fields. So every link
has a counterpart in the other plan that goes the opposite way between the same two fields
(`Plan.exists_reverse`), and the transfers of the two are opposite ones: what one of them widens the
other narrows, what one wraps the other unwraps, and nested records cross by the two plans of their
own pair (`Transfer.opposite_between`).
-/

namespace Crosswalk

/-- The other direction. -/
def Direction.flip : Direction → Direction
  | toModel => toWire
  | toWire => toModel

namespace PlanKey

/-- The same pair of types, the other way. -/
def flip (key : PlanKey) : PlanKey := ⟨key.pair, key.direction.flip⟩

@[simp] theorem flip_flip (key : PlanKey) : key.flip.flip = key := by
  obtain ⟨pair, direction⟩ := key
  cases direction <;> rfl

@[simp] theorem source_flip (key : PlanKey) : key.flip.source = key.target := by
  obtain ⟨pair, direction⟩ := key
  cases direction <;> rfl

@[simp] theorem target_flip (key : PlanKey) : key.flip.target = key.source := by
  obtain ⟨pair, direction⟩ := key
  cases direction <;> rfl

@[simp] theorem flip_between (t u : TypeId) (direction : Direction) :
    (between t u direction).flip = between u t direction.flip := by
  cases direction <;> rfl

end PlanKey

/-! ### Opposite transfers -/

/-- If scalars of one kind convert to another, those convert back. -/
theorem ScalarKind.isSome_conversion_comm (k l : ScalarKind) :
    (k.conversion l).isSome = (l.conversion k).isSome := by
  cases k <;> cases l <;> rfl

/-- Between two kinds there are conversions both ways, or none. -/
theorem ScalarKind.conversion_cases (k l : ScalarKind) :
    (k.conversion l = none ∧ l.conversion k = none) ∨
      ∃ c c', k.conversion l = some c ∧ l.conversion k = some c' ∧
        ScalarConversion.Between k l c ∧ ScalarConversion.Between l k c' := by
  have hcomm := isSome_conversion_comm k l
  cases hc : k.conversion l with
  | none =>
    rw [hc, Option.isSome_none, eq_comm, Option.isSome_eq_false_iff, Option.isNone_iff_eq_none]
      at hcomm
    exact .inl ⟨rfl, hcomm⟩
  | some c =>
    rw [hc, Option.isSome_some, eq_comm, Option.isSome_iff_exists] at hcomm
    obtain ⟨c', hc'⟩ := hcomm
    exact .inr ⟨c, c', rfl, hc', between_of_conversion hc, between_of_conversion hc'⟩

/-- The transfers between two kinds, there and back. -/
inductive Transfer.Opposite (direction : Direction) :
    FieldKind → FieldKind → Transfer → Transfer → Prop
  | scalar {k l : ScalarKind} {c c' : ScalarConversion} (h : ScalarConversion.Between k l c)
    (h' : ScalarConversion.Between l k c') (o o' : Bool) :
    Opposite direction (.scalar k o) (.scalar l o') (.scalar c (.between o o'))
      (.scalar c' (.between o' o))
  | scalarList {k l : ScalarKind} {c c' : ScalarConversion} (h : ScalarConversion.Between k l c)
    (h' : ScalarConversion.Between l k c') :
    Opposite direction (.scalarList k) (.scalarList l) (.scalarList c) (.scalarList c')
  | nested (t u : TypeId) (o o' : Bool) :
    Opposite direction (.nested t o) (.nested u o') (.nested (.between t u direction))
      (.nested (.between u t direction.flip))
  | nestedList (t u : TypeId) :
    Opposite direction (.nestedList t) (.nestedList u) (.nestedList (.between t u direction))
      (.nestedList (.between u t direction.flip))
  | impossible (source target : FieldKind) :
    Opposite direction source target (.impossible source target) (.impossible target source)

theorem Transfer.opposite_between (direction : Direction) (source target : FieldKind) :
    Opposite direction source target (.between source target direction)
      (.between target source direction.flip) := by
  rw [between.eq_def source]
  split
  · next k o l o' =>
    rw [between]
    rcases k.conversion_cases l with ⟨hc, hc'⟩ | ⟨c, c', hc, hc', h, h'⟩
    · rw [hc, hc']
      exact .impossible _ _
    · rw [hc, hc']
      exact .scalar h h' o o'
  · next k l =>
    rw [between]
    rcases k.conversion_cases l with ⟨hc, hc'⟩ | ⟨c, c', hc, hc', h, h'⟩
    · rw [hc, hc']
      exact .impossible _ _
    · rw [hc, hc']
      exact .scalarList h h'
  · exact .nested _ _ _ _
  · exact .nestedList _ _
  · next hscalar hscalarList hnested hnestedList =>
    have hback : between target source direction.flip = .impossible target source := by
      rw [between.eq_def]
      split
      · exact (hscalar _ _ _ _ rfl rfl).elim
      · exact (hscalarList _ _ rfl rfl).elim
      · exact (hnested _ _ _ _ rfl rfl).elim
      · exact (hnestedList _ _ rfl rfl).elim
      · rfl
    rw [hback]
    exact .impossible _ _

/-! ### Opposite links -/

/-- The second link goes the opposite way between the same two fields. -/
structure Link.Reverses (l l' : Link) : Prop where
  sourceIndex_eq : l'.sourceIndex = l.targetIndex
  targetIndex_eq : l'.targetIndex = l.sourceIndex
  sourceKind_eq : l'.sourceKind = l.targetKind
  targetKind_eq : l'.targetKind = l.sourceKind

theorem Link.Reverses.symm {l l' : Link} (h : l.Reverses l') : l'.Reverses l :=
  ⟨h.targetIndex_eq.symm, h.sourceIndex_eq.symm, h.targetKind_eq.symm, h.sourceKind_eq.symm⟩

theorem Link.reverses_join (direction : Direction) (w m : Column) :
    (Link.join direction w m).Reverses (.join direction.flip w m) := by
  cases direction <;> exact ⟨rfl, rfl, rfl, rfl⟩

namespace Plan

variable {S : Schema} {key : PlanKey} {plan plan' : Plan}

/-- A pair of types that has a plan has one the other way. -/
theorem exists_resolve_flip (h : resolve S key = .ok plan) :
    ∃ plan', resolve S key.flip = .ok plan' := by
  obtain ⟨hw, hm, -⟩ := resolve_eq_ok_iff.mp h
  exact ⟨_, resolve_eq_ok_iff.mpr ⟨hw, hm, rfl⟩⟩

/-- **Every link has a counterpart in the plan for the other direction.** -/
theorem exists_reverse (h : resolve S key = .ok plan) (h' : resolve S key.flip = .ok plan')
    {l : Link} (hl : l ∈ plan.links) : ∃ l' ∈ plan'.links, l.Reverses l' := by
  obtain ⟨-, -, rfl⟩ := resolve_eq_ok_iff.mp h
  obtain ⟨-, -, rfl⟩ := resolve_eq_ok_iff.mp h'
  rw [links_ofDecls, List.mem_map] at hl
  obtain ⟨p, hp, rfl⟩ := hl
  refine ⟨.join key.direction.flip p.1 p.2, ?_, Link.reverses_join _ _ _⟩
  rw [links_ofDecls]
  exact List.mem_map_of_mem hp

/-- And it is the counterpart of one. -/
theorem exists_reversed (h : resolve S key = .ok plan) (h' : resolve S key.flip = .ok plan')
    {l' : Link} (hl' : l' ∈ plan'.links) : ∃ l ∈ plan.links, l.Reverses l' := by
  rw [← key.flip_flip] at h
  obtain ⟨l, hl, hreverses⟩ := exists_reverse h' h hl'
  exact ⟨l, hl, hreverses.symm⟩

/-- The transfers of opposite links are opposite. -/
theorem opposite_of_reverses (h : resolve S key = .ok plan) (h' : resolve S key.flip = .ok plan')
    {l l' : Link} (hl : l ∈ plan.links) (hl' : l' ∈ plan'.links) (hreverses : l.Reverses l') :
    Transfer.Opposite key.direction l.sourceKind l.targetKind l.transfer l'.transfer := by
  obtain ⟨source, target, hj⟩ := exists_joins h hl
  obtain ⟨source', target', hj'⟩ := exists_joins h' hl'
  have hopposite := Transfer.opposite_between key.direction l.sourceKind l.targetKind
  rw [hj.transfer_eq, hj'.transfer_eq, ← hj.sourceKind_eq, ← hj.targetKind_eq, ← hj'.sourceKind_eq,
    ← hj'.targetKind_eq, hreverses.sourceKind_eq, hreverses.targetKind_eq]
  exact hopposite

end Plan

end Crosswalk
