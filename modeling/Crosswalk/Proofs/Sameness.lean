import Crosswalk.Proofs.Coercion
import Crosswalk.Proofs.Nesting
import Mathlib.Data.List.Forall2

/-!
# Sameness of values

Two values are the same when nothing that can be read from them tells them apart. Every value is
the same as itself, floating-point numbers that are no numbers included, since their words are
equal. Lists are the same when they are item by item, and for two records of one type it is enough
that all their cells are. Which of two values is the first does not matter.
-/

namespace Crosswalk

theorem Number.numericallyEqual_comm (a b : Number) :
    a.numericallyEqual b = b.numericallyEqual a := Bool.and_comm ..

theorem Binary32.same_comm (a b : Binary32) : a.same b = b.same a := by
  rw [same, same, Number.numericallyEqual_comm, BEq.comm]

theorem Binary64.same_comm (a b : Binary64) : a.same b = b.same a := by
  rw [same, same, Number.numericallyEqual_comm, BEq.comm]

namespace Value

variable {S : Schema} {as bs : List Value}

theorem sameItems_iff :
    sameItems S as bs = true ↔ List.Forall₂ (fun a b => a.same S b = true) as bs := by
  induction as generalizing bs with
  | nil => cases bs <;> simp [sameItems]
  | cons a as ih => cases bs <;> simp [sameItems, ih]

/-- Fields that cannot be read do not matter, so this is only one direction. -/
theorem sameCells_of_forall₂ (fields : List FieldDecl)
    (h : List.Forall₂ (fun a b => a.same S b = true) as bs) : sameCells S fields as bs = true := by
  induction h generalizing fields with
  | nil => cases fields <;> rfl
  | cons hhead _ ih =>
    cases fields with
    | nil => rfl
    | cons f fs => simp [sameCells, hhead, ih fs]

theorem same_list (h : List.Forall₂ (fun a b => a.same S b = true) as bs) :
    (Value.list as).same S (.list bs) = true := by
  rw [same]
  exact sameItems_iff.mpr h

theorem same_record (type : TypeId) (h : List.Forall₂ (fun a b => a.same S b = true) as bs) :
    (Value.record type as).same S (.record type bs) = true := by
  simp [same, sameCells_of_forall₂ _ h]

theorem same_refl (S : Schema) (v : Value) : v.same S v = true := by
  induction v using Value.induction with
  | flat v hv =>
    cases v with
    | null => rfl
    | list items => exact absurd rfl (hv.1 items)
    | record type cells => exact absurd rfl (hv.2 type cells)
    | _ => exact same_self rfl S
  | list items ih => exact same_list (List.forall₂_same.mpr ih)
  | record type cells ih => exact same_record type (List.forall₂_same.mpr ih)

/-! ### Either way round -/

theorem sameItems_comm (h : ∀ a ∈ as, ∀ b, a.same S b = b.same S a) :
    sameItems S as bs = sameItems S bs as := by
  induction as generalizing bs with
  | nil => cases bs <;> rfl
  | cons a as ih =>
    cases bs with
    | nil => rfl
    | cons b bs =>
      obtain ⟨ha, has⟩ := List.forall_mem_cons.mp h
      rw [sameItems, sameItems, ha b, ih has]

theorem sameCells_comm (fields : List FieldDecl) (h : ∀ a ∈ as, ∀ b, a.same S b = b.same S a) :
    sameCells S fields as bs = sameCells S fields bs as := by
  induction fields generalizing as bs with
  | nil => cases as <;> cases bs <;> rfl
  | cons f fs ih =>
    cases as with
    | nil => cases bs <;> rfl
    | cons a as =>
      cases bs with
      | nil => rfl
      | cons b bs =>
        obtain ⟨ha, has⟩ := List.forall_mem_cons.mp h
        rw [sameCells, sameCells, ha b, ih has]

theorem same_comm (S : Schema) (a b : Value) : a.same S b = b.same S a := by
  induction a using Value.induction generalizing b with
  | flat a ha =>
    cases a with
    | list items => exact absurd rfl (ha.1 items)
    | record type cells => exact absurd rfl (ha.2 type cells)
    | f32 x =>
      cases b with
      | f32 y => exact x.same_comm y
      | _ => rfl
    | f64 x =>
      cases b with
      | f64 y => exact x.same_comm y
      | _ => rfl
    | _ =>
      cases b <;> first | rfl | exact BEq.comm
  | list items ih =>
    cases b with
    | list others => exact sameItems_comm ih
    | _ => rfl
  | record type cells ih =>
    cases b with
    | record other others =>
      by_cases h : type = other
      · subst h
        rw [same, same, sameCells_comm _ ih]
      · have h' : ¬ other = type := fun h' => h h'.symm
        rw [same, same, beq_false_of_ne h, beq_false_of_ne h', Bool.false_and, Bool.false_and]
    | _ => rfl

end Value

end Crosswalk
