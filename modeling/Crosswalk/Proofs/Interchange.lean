import Crosswalk.Proofs.CoercionPaths
import Crosswalk.Value.Clone

/-!
# Same values can stand for each other

Sameness of values is an equivalence, a value is the same as its copy, and coercion makes the same
of what is the same, or nothing of either (`Value.same_lawful`).

For floating-point numbers this needs an argument, since sameness joins two relations there. Equal
words alone tell the two zeros apart, and equal numbers alone tell a `nan` from itself. The union of
the two is transitive because what is no number is numerically equal to nothing: a chain of same
values that is in one place a step between different words is about one number all along. This is
`Value.same_iff_of_scalarKind?`, which is about all kinds of scalars at once. Coercion looks at that
number and keeps it, so it cannot take two representations of it to different places.

A record is compared by what can be read of it (`Record.same_iff_reads`). A field that cannot be
read is nothing in both records, so what is in it does not matter. That is why a copy is the same
although its type may leave something else there. Types are compared before any field is. So
declarations that agree in everything make no two records of different types the same.
-/

namespace Crosswalk

/-! ### Related options -/

theorem rel_mono {α β : Type} {R R' : α → β → Prop} (h : ∀ a b, R a b → R' a b) {o : Option α}
    {o' : Option β} (hrel : Option.Rel R o o') : Option.Rel R' o o' := by
  cases hrel with
  | none => exact .none
  | some hrel => exact .some (h _ _ hrel)

theorem rel_trans {α : Type} {R : α → α → Prop} {o o' o'' : Option α}
    (h : ∀ a ∈ o, ∀ b c, R a b → R b c → R a c) (hab : Option.Rel R o o')
    (hbc : Option.Rel R o' o'') : Option.Rel R o o'' := by
  cases hab with
  | none => exact hbc
  | some hab =>
    cases hbc with
    | some hbc => exact .some (h _ rfl _ _ hab hbc)

theorem rel_of_isSome_iff {α β : Type} {R : α → β → Prop} {o : Option α} {o' : Option β}
    (hsome : o.isSome = true ↔ o'.isSome = true) (h : ∀ a ∈ o, ∀ b ∈ o', R a b) :
    Option.Rel R o o' := by
  cases o with
  | none =>
    cases o' with
    | none => exact .none
    | some b => simp at hsome
  | some a =>
    cases o' with
    | none => simp at hsome
    | some b => exact .some (h a rfl b rfl)

/-! ### Scalars -/

/-- **Numerically equal is what denotes one quantity**, where `nan` equals nothing. -/
theorem Number.numericallyEqual_iff {n n' : Number} :
    n.numericallyEqual n' = true ↔ n.quantity ≠ .nan ∧ n.quantity = n'.quantity := by
  constructor
  · intro h
    cases n with
    | nan => cases h
    | infinite negative =>
      cases n' with
      | infinite negative' =>
        have hsign : negative = negative' := by
          cases negative <;> cases negative' <;> first | rfl | cases h
        exact ⟨Quantity.noConfusion, by rw [hsign]⟩
      | _ => cases negative <;> cases h
    | finite negative quanta =>
      cases n' with
      | nan => cases h
      | infinite negative' => cases negative' <;> cases h
      | finite negative' quanta' =>
        obtain ⟨hle, hge⟩ := Bool.and_eq_true_iff.mp h
        have hsigned := Int.le_antisymm (of_decide_eq_true hle) (of_decide_eq_true hge)
        exact ⟨Quantity.noConfusion, by rw [quantity, quantity, hsigned]⟩
  · rintro ⟨hnan, hquantity⟩
    rcases quantity_eq_iff.mp hquantity with h | h
    · rw [numericallyEqual_comm]
      exact h.numericallyEqual fun hn => hnan (hn ▸ rfl)
    · exact h.numericallyEqual fun hn => hnan (hquantity.trans (hn ▸ rfl))

theorem Binary32.same_iff {a b : Binary32} :
    a.same b = true ↔ a = b ∨ a.number.numericallyEqual b.number = true := by
  rw [same, Bool.or_eq_true, beq_iff_eq, Binary32.mk.injEq]

theorem Binary64.same_iff {a b : Binary64} :
    a.same b = true ↔ a = b ∨ a.number.numericallyEqual b.number = true := by
  rw [same, Bool.or_eq_true, beq_iff_eq, Binary64.mk.injEq]

namespace Value

/-- The two values are the same. -/
abbrev Same (S : Schema) (a b : Value) : Prop := a.same S b = true

variable {S : Schema} {a b c : Value} {as bs cs : List Value} {fields : List FieldDecl}

theorem isNumeric_of_quantity? {k : ScalarKind} {q : Quantity} (ha : a.scalarKind? = some k)
    (hq : a.quantity? = some q) : k.isNumeric = true := by
  cases a <;> cases ha <;> first | rfl | cases hq

/-- Values of one kind that denote one number are the same. -/
theorem same_of_quantity? {k : ScalarKind} {q : Quantity} (ha : a.scalarKind? = some k)
    (hb : b.scalarKind? = some k) (hq : q ≠ .nan) (haq : a.quantity? = some q)
    (hbq : b.quantity? = some q) : Same S a b := by
  have hk := isNumeric_of_quantity? ha haq
  rcases alike_of_quantity?_eq S hk ha hb (haq.trans hbq.symm) with h | ⟨-, hnan, -⟩
  · exact h
  · rw [quantity?_eq, hnan, Option.map_some, Option.some.injEq] at haq
    exact absurd haq.symm hq

/-- What is numerically equal denotes one number. -/
theorem exists_quantity?_of_numericallyEqual {n n' : Number} (ha : a.number? = some n)
    (hb : b.number? = some n') (h : n.numericallyEqual n' = true) :
    ∃ q, q ≠ .nan ∧ a.quantity? = some q ∧ b.quantity? = some q := by
  obtain ⟨hnan, hquantity⟩ := Number.numericallyEqual_iff.mp h
  refine ⟨n.quantity, hnan, ?_, ?_⟩
  · rw [quantity?_eq, ha, Option.map_some]
  · rw [quantity?_eq, hb, Option.map_some, hquantity]

/-- **Scalars are the same if they are equal, or of one kind and denote one number.** -/
theorem same_iff_of_scalarKind? {k : ScalarKind} (ha : a.scalarKind? = some k) :
    Same S a b ↔ a = b ∨ (b.scalarKind? = some k ∧
      ∃ q, q ≠ .nan ∧ a.quantity? = some q ∧ b.quantity? = some q) := by
  constructor
  · intro h
    cases a with
    | null | list items | record type cells => cases ha
    | f32 x =>
      cases b with
      | f32 y =>
        rcases Binary32.same_iff.mp h with rfl | h
        · exact .inl rfl
        · exact .inr ⟨ha, exists_quantity?_of_numericallyEqual rfl rfl h⟩
      | _ => cases h
    | f64 x =>
      cases b with
      | f64 y =>
        rcases Binary64.same_iff.mp h with rfl | h
        · exact .inl rfl
        · exact .inr ⟨ha, exists_quantity?_of_numericallyEqual rfl rfl h⟩
      | _ => cases h
    | _ => cases b <;> first | cases h | exact .inl (congrArg _ (eq_of_beq h))
  · rintro (rfl | ⟨hb, q, hq, haq, hbq⟩)
    · exact same_self ha S
    · exact same_of_quantity? ha hb hq haq hbq

theorem same_trans_of_scalarKind? {k : ScalarKind} (ha : a.scalarKind? = some k)
    (hab : Same S a b) (hbc : Same S b c) : Same S a c := by
  rcases (same_iff_of_scalarKind? ha).mp hab with rfl | ⟨hb, q, hq, haq, hbq⟩
  · exact hbc
  rcases (same_iff_of_scalarKind? hb).mp hbc with rfl | ⟨hc, q', -, hbq', hcq⟩
  · exact hab
  obtain rfl := Option.some.inj (hbq.symm.trans hbq')
  exact same_of_quantity? ha hc hq haq hcq

/-! ### Lists and records -/

/-- Cells are compared field by field: there has to be one in both or in neither, and the two have
to be the same unless the field cannot be read. -/
theorem sameCells_iff : sameCells S fields as bs = true ↔
    ∀ (index : Nat) f, fields[index]? = some f →
      Option.Rel (fun a b => f.readable = false ∨ Same S a b) as[index]? bs[index]? := by
  induction fields generalizing as bs with
  | nil => simp [sameCells]
  | cons f fs ih =>
    cases as with
    | nil =>
      cases bs with
      | nil => exact iff_of_true rfl fun _ _ _ => .none
      | cons b bs =>
        refine iff_of_false Bool.false_ne_true fun h => ?_
        cases h 0 f rfl
    | cons a as =>
      cases bs with
      | nil =>
        refine iff_of_false Bool.false_ne_true fun h => ?_
        cases h 0 f rfl
      | cons b bs =>
        rw [sameCells, Bool.and_eq_true, Bool.or_eq_true, Bool.not_eq_true', ih]
        constructor
        · rintro ⟨hhead, htail⟩ (_ | index) g hg
          · cases hg
            exact .some hhead
          · exact htail index g hg
        · intro h
          refine ⟨?_, fun index g hg => h (index + 1) g hg⟩
          cases h 0 f rfl with
          | some hhead => exact hhead

theorem sameItems_trans (h : ∀ a ∈ as, ∀ b c, Same S a b → Same S b c → Same S a c)
    (hab : sameItems S as bs = true) (hbc : sameItems S bs cs = true) :
    sameItems S as cs = true := by
  induction as generalizing bs cs with
  | nil =>
    cases bs with
    | nil => exact hbc
    | cons b bs => cases hab
  | cons a as ih =>
    obtain ⟨ha, has⟩ := List.forall_mem_cons.mp h
    cases bs with
    | nil => cases hab
    | cons b bs =>
      cases cs with
      | nil => cases hbc
      | cons c cs =>
        rw [sameItems, Bool.and_eq_true] at hab hbc ⊢
        exact ⟨ha b c hab.1 hbc.1, ih has hab.2 hbc.2⟩

theorem sameCells_trans (h : ∀ a ∈ as, ∀ b c, Same S a b → Same S b c → Same S a c)
    (hab : sameCells S fields as bs = true) (hbc : sameCells S fields bs cs = true) :
    sameCells S fields as cs = true := by
  rw [sameCells_iff] at hab hbc ⊢
  intro index f hf
  refine rel_trans (fun a ha b c hab hbc => ?_) (hab index f hf) (hbc index f hf)
  rcases hab with hunread | hab
  · exact .inl hunread
  · exact hbc.imp_right fun hbc => h a (List.mem_of_getElem? ha) b c hab hbc

/-- **Sameness is transitive**, by induction on what is inside the first value. -/
theorem same_trans (hab : Same S a b) (hbc : Same S b c) : Same S a c := by
  induction a using Value.induction generalizing b c with
  | flat a ha =>
    cases hk : a.scalarKind? with
    | some k => exact same_trans_of_scalarKind? hk hab hbc
    | none =>
      cases a with
      | null =>
        cases b with
        | null => exact hbc
        | _ => cases hab
      | list items => exact absurd rfl (ha.1 items)
      | record type cells => exact absurd rfl (ha.2 type cells)
      | _ => cases hk
  | list items ih =>
    cases b with
    | list others =>
      cases c with
      | list rest =>
        rw [Same, same] at hab hbc ⊢
        exact sameItems_trans (fun a ha b c => ih a ha) hab hbc
      | _ => cases hbc
    | _ => cases hab
  | record type cells ih =>
    cases b with
    | record type' cells' =>
      cases c with
      | record type'' cells'' =>
        rw [Same, same, Bool.and_eq_true, beq_iff_eq] at hab hbc ⊢
        obtain ⟨rfl, hab⟩ := hab
        obtain ⟨rfl, hbc⟩ := hbc
        exact ⟨rfl, sameCells_trans (fun a ha b c => ih a ha) hab hbc⟩
      | _ => cases hbc
    | _ => cases hab

theorem same_equivalence (S : Schema) : Equivalence (Same S) where
  refl := same_refl S
  symm {a b} h := (same_comm S a b).symm.trans h
  trans := same_trans

/-! ### Copies -/

theorem cloneItems_eq_map (unread : TypeId → FieldDecl → Value → Value) (items : List Value) :
    cloneItems S unread items = items.map (clone S unread) := by
  induction items with
  | nil => rfl
  | cons v vs ih => rw [cloneItems, ih, List.map_cons]

theorem getElem?_cloneCells (unread : TypeId → FieldDecl → Value → Value) (type : TypeId)
    {cells : List Value} {index : Nat} {f : FieldDecl} (hf : fields[index]? = some f) :
    (cloneCells S unread type fields cells)[index]? = cells[index]?.map fun v =>
      if f.readable then v.clone S unread else unread type f v := by
  induction fields generalizing cells index with
  | nil => cases hf
  | cons g gs ih =>
    cases cells with
    | nil => rfl
    | cons v vs =>
      cases index with
      | zero =>
        cases hf
        rfl
      | succ index => exact ih hf

/-- **A value is the same as its copy**, whatever its type leaves in fields that cannot be read. -/
theorem same_clone (S : Schema) (unread : TypeId → FieldDecl → Value → Value) (v : Value) :
    Same S v (v.clone S unread) := by
  induction v using Value.induction with
  | flat v hv =>
    cases v with
    | list items => exact absurd rfl (hv.1 items)
    | record type cells => exact absurd rfl (hv.2 type cells)
    | _ => exact same_refl S _
  | list items ih =>
    rw [clone, cloneItems_eq_map]
    exact same_list (List.forall₂_map_right_iff.mpr (List.forall₂_same.mpr ih))
  | record type cells ih =>
    rw [Same, clone, same, beq_self_eq_true, Bool.true_and, sameCells_iff]
    intro index f hf
    rw [getElem?_cloneCells unread type hf]
    cases hv : cells[index]? with
    | none => exact .none
    | some v =>
      refine .some ?_
      by_cases hread : f.readable = true
      · dsimp only
        rw [if_pos hread]
        exact .inr (ih v (List.mem_of_getElem? hv))
      · exact .inl (Bool.eq_false_of_not_eq_true hread)

theorem cloneCells_eq_self (type : TypeId) {cells : List Value}
    (h : ∀ v ∈ cells, v.clone S (fun _ _ cell => cell) = v) :
    cloneCells S (fun _ _ cell => cell) type fields cells = cells := by
  induction fields generalizing cells with
  | nil => cases cells <;> rfl
  | cons f fs ih =>
    cases cells with
    | nil => rfl
    | cons v vs =>
      obtain ⟨hv, hvs⟩ := List.forall_mem_cons.mp h
      rw [cloneCells, hv, ite_self, ih hvs]

/-- A copy that keeps fields that cannot be read as they are is the value itself. -/
theorem clone_eq_self (S : Schema) (v : Value) : v.clone S (fun _ _ cell => cell) = v := by
  induction v using Value.induction with
  | flat v hv =>
    cases v with
    | list items => exact absurd rfl (hv.1 items)
    | record type cells => exact absurd rfl (hv.2 type cells)
    | _ => rfl
  | list items ih => rw [clone, cloneItems_eq_map, List.map_congr_left ih, List.map_id']
  | record type cells ih => rw [clone, cloneCells_eq_self type ih]

/-! ### Coercion -/

theorem coerce?_eq_none_of_quantity? {j k : ScalarKind} {q : Quantity}
    (ha : a.scalarKind? = some j) (hq : a.quantity? = some q) (hk : ¬ k.isNumeric = true) :
    a.coerce? k = none := by
  have hj := isNumeric_of_quantity? ha hq
  have hne : j ≠ k := fun h => hk (h ▸ hj)
  rw [coerce?_of_numeric ha hj hne, ofNumber?_of_not_numeric hk, Option.bind_fun_none]

/-- **Coercion makes the same of the same, or nothing of either.** -/
theorem coerce?_of_same (h : Same S a b) (k : ScalarKind) :
    Option.Rel (Same S) (a.coerce? k) (b.coerce? k) := by
  cases ha : a.scalarKind? with
  | none =>
    cases a with
    | null =>
      cases b with
      | null => exact .some (same_refl S null)
      | _ => cases h
    | list items =>
      cases b with
      | list others => exact .none
      | _ => cases h
    | record type cells =>
      cases b with
      | record type' cells' => exact .none
      | _ => cases h
    | _ => cases ha
  | some j =>
    rcases (same_iff_of_scalarKind? ha).mp h with rfl | ⟨hb, q, hq, haq, hbq⟩
    · cases a.coerce? k with
      | none => exact .none
      | some v => exact .some (same_refl S v)
    have hj := isNumeric_of_quantity? ha haq
    by_cases hk : k.isNumeric = true
    · -- whether anything comes out depends on what is denoted only
      have hsome : (a.coerce? k).isSome = true ↔ (b.coerce? k).isSome = true :=
        (isSome_coerce?_iff ha hj hk haq).trans (isSome_coerce?_iff hb hj hk hbq).symm
      refine rel_of_isSome_iff hsome fun v hv w hw => ?_
      obtain ⟨hvk, hvq⟩ := quantity?_of_coerce? ha hj haq hv
      obtain ⟨hwk, hwq⟩ := quantity?_of_coerce? hb hj hbq hw
      exact same_of_quantity? hvk hwk hq hvq hwq
    · rw [coerce?_eq_none_of_quantity? ha haq hk, coerce?_eq_none_of_quantity? hb hbq hk]
      exact .none

end Value

/-! ### Whole records -/

namespace Record

variable {S : Schema} {a b : Record}

theorem same_iff : a.same S b = true ↔
    a.type = b.type ∧ Value.sameCells S (a.decl S).fields a.cells b.cells = true := by
  rw [same, toValue, toValue, Value.same, Bool.and_eq_true, beq_iff_eq]
  rfl

theorem same_eq_false_of_type_ne (h : a.type ≠ b.type) : a.same S b = false := by
  rw [Bool.eq_false_iff]
  exact fun hsame => h (same_iff.mp hsame).1

/-- **Records are the same if they are of one type and read the same**, field by field. A field that
cannot be read reads as nothing in both. -/
theorem same_iff_reads (ha : a.Whole S) (hb : b.Whole S) :
    a.same S b = true ↔
      a.type = b.type ∧ ∀ index, Option.Rel (Value.Same S) (a.get? S index) (b.get? S index) := by
  rw [same_iff, Value.sameCells_iff]
  refine and_congr_right fun htype => ?_
  have hdecl : b.decl S = a.decl S := by rw [decl, decl, htype]
  constructor
  · intro h index
    rw [get?, get?, hdecl]
    by_cases hread : (a.decl S).readableAt index = true
    · obtain ⟨f, hf, hvisible⟩ := TypeDecl.readableAt_iff.mp hread
      rw [if_pos hread, if_pos hread]
      exact rel_mono (fun _ _ h => h.resolve_left (by simp [hvisible])) (h index f hf)
    · rw [if_neg hread, if_neg hread]
      exact .none
  · intro h index f hf
    cases hvisible : f.readable with
    | false =>
      have hlt := (List.getElem?_eq_some_iff.mp hf).1
      have hlt' : index < b.cells.length := by rwa [hb, hdecl]
      rw [List.getElem?_eq_getElem (ha ▸ hlt), List.getElem?_eq_getElem hlt']
      exact .some (.inl rfl)
    | true =>
      have hread := TypeDecl.readableAt_iff.mpr ⟨f, hf, hvisible⟩
      have hreads := h index
      rw [get?, get?, hdecl, if_pos hread, if_pos hread] at hreads
      exact rel_mono (fun _ _ => .inr) hreads

end Record

/-! ### The laws -/

namespace Value

/-- **Sameness is an equivalence that copying and coercion respect**, for all values, with records
of any types in them.

Every value is the same as its copy, whatever the types of the records in it leave in fields that
cannot be read. Records of two types are never the same, be the declarations equal or not, and those
of one type are if they read the same in every field. Values that are the same are coerced to values
of a kind that are the same, or neither of them is coerced to it. -/
theorem same_lawful (S : Schema) :
    Equivalence (Same S) ∧
      (∀ unread v, Same S v (v.clone S unread)) ∧
      (∀ a b : Record, a.type ≠ b.type → a.same S b = false) ∧
      (∀ a b : Record, a.Whole S → b.Whole S →
        (a.same S b = true ↔ a.type = b.type ∧
          ∀ index, Option.Rel (Same S) (a.get? S index) (b.get? S index))) ∧
      ∀ a b, Same S a b → ∀ k, Option.Rel (Same S) (a.coerce? k) (b.coerce? k) :=
  ⟨same_equivalence S, same_clone S, fun _ _ => Record.same_eq_false_of_type_ne,
    fun _ _ => Record.same_iff_reads, fun _ _ => coerce?_of_same⟩

end Value

namespace Coins

/-- Two types of coins that are declared alike. Nobody can read where a coin was made. -/
def decls : List TypeDecl :=
  List.replicate 2 ⟨"Coin", [
    ⟨"worth", .scalar .f64 false, false, .declared⟩,
    ⟨"mint", .scalar .string false, false, .handmade false fun v => .ok fun _ => v⟩]⟩

theorem isSome_ofDecls? : (Schema.ofDecls? decls fun _ => .null).isSome = true := by decide

def schema : Schema := (Schema.ofDecls? decls fun _ => .null).get isSome_ofDecls?

def coin (type : TypeId) (worth : Binary64) (mint : String) : Record :=
  ⟨type, [.f64 worth, .string mint]⟩

end Coins

/-- A coin that is worth nothing is the same as one from elsewhere that is worth the negative zero,
and as a copy of that which does not know its mint. It is not the same as a coin of the other type.
The two zeros stay the same in single precision. -/
theorem Value.same_lawful_coins :
    let S := Coins.schema
    let one := Coins.coin ⟨0⟩ ⟨0⟩ "Ulm"
    let other := Coins.coin ⟨0⟩ ⟨0x8000000000000000⟩ "Bern"
    let foreign := Coins.coin ⟨1⟩ ⟨0⟩ "Ulm"
    (S.decl foreign.type = S.decl one.type ∧ one.same S foreign = false) ∧
      one.same S other = true ∧
      Same S one.toValue (other.toValue.clone S fun _ _ _ => .null) ∧
      ∃ v w, (f64 ⟨0⟩).coerce? .f32 = some v ∧
        (f64 ⟨0x8000000000000000⟩).coerce? .f32 = some w ∧ Same S v w := by
  intro S one other foreign
  obtain ⟨hequivalence, hclone, htypes, hreads, hcoerce⟩ := same_lawful S
  have hzeros : Same S (f64 ⟨0⟩) (f64 ⟨0x8000000000000000⟩) := by decide +kernel
  have hsame : one.same S other = true := by
    refine (hreads one other rfl rfl).mpr ⟨rfl, fun index => ?_⟩
    match index with
    | 0 => exact .some hzeros
    | 1 => exact .none
    | _ + 2 => exact .none
  have hsome : ((f64 ⟨0⟩).coerce? .f32).isSome = true := by decide +kernel
  have hrel := hcoerce _ _ hzeros .f32
  refine ⟨⟨rfl, htypes one foreign (by decide)⟩, hsame,
    hequivalence.trans hsame (hclone _ _), ?_⟩
  generalize (f64 ⟨0⟩).coerce? .f32 = x at hrel hsome
  generalize (f64 ⟨0x8000000000000000⟩).coerce? .f32 = y at hrel
  cases hrel with
  | none => cases hsome
  | some hrel => exact ⟨_, _, rfl, rfl, hrel⟩

end Crosswalk
