import Crosswalk.Proofs.FlatImages
import Crosswalk.Proofs.Fitting
import Crosswalk.Proofs.Histories
import Crosswalk.Proofs.LinkEffects

/-!
# Handing values over

Between equal kinds of equal presence a compiled plan hands values over. It reads the source field
and writes what it has read, and does not look at it. The other copiers carry every value across,
which for such a link means that an absent list becomes the empty one and that anything else in
place of a list is an error. This module says when the two come to the same.

For scalars they always do, since there carrying looks at nothing either, and for a list they do
when the source field holds a list. They need not when it holds something else, which only a
hand-made record can. An absent value in place of a list comes to the same only where the target
field makes no difference between nothing and the empty list (`FieldDecl.TakesNullAsEmpty`), as an
ordinary list field does and a hand-made one may. Over any other value the two copiers always part,
at least in the error. `Tier.copyFrom_handOver_eq_iff` puts this together and
`Tier.copyFrom_handOver_ne` shows both ways of parting.

A record that fits has nothing but lists in its list fields, which is why the tiers agree on those
(`Tier.convert_agrees`).
-/

namespace Crosswalk

/-- The field does the same with nothing as with the empty list, be it to hold the same afterwards
or to refuse both in the same words. What a hand-made field does may depend on what it held. -/
def FieldDecl.TakesNullAsEmpty (f : FieldDecl) (held : Value) : Prop :=
  match f.access with
  | .declared => (∃ k, f.kind = .scalarList k) ∨ ∃ t, f.kind = .nestedList t
  | .handmade _ take => (take .null).map (· held) = (take (.list [])).map (· held)

variable {S : Schema}

/-! ### Nothing and the empty list -/

theorem FieldDecl.write_null_eq_iff {f : FieldDecl} {type : TypeId} {held : Value} :
    (f.write S type .null).map (· held) = (f.write S type (.list [])).map (· held) ↔
      f.TakesNullAsEmpty held := by
  obtain ⟨name, kind, sensitive, access⟩ := f
  have hshapes : Value.null.shapeName ≠ (Value.list []).shapeName := by decide
  cases access with
  | handmade readable take => exact Iff.rfl
  | declared =>
    cases kind with
    | scalar k optional =>
      cases optional <;>
        simp [write, FieldKind.admit?, Value.scalarKind?, Value.isNull, TakesNullAsEmpty, hshapes,
          Except.map]
    | nested type optional =>
      simp [write, FieldKind.admit?, Value.isRecordOf, TakesNullAsEmpty, Except.map]
    | unsupported what =>
      simp [write, FieldKind.admit?, TakesNullAsEmpty, hshapes, Except.map]
    | _ => simp [write, FieldKind.admit?, TakesNullAsEmpty]

/-- Two changes of a cell come to the same if they make the same of what it holds. -/
theorem modify_eq_modify_iff {cells : List Value} {index : Nat} (h : index < cells.length)
    {change change' : Value → Value} :
    cells.modify index change = cells.modify index change' ↔
      change cells[index] = change' cells[index] := by
  constructor
  · intro heq
    simpa [List.getElem?_modify_eq, h] using congrArg (·[index]?) heq
  · intro heq
    rw [List.modify_eq_set_get change h, List.modify_eq_set_get change' h]
    exact congrArg (cells.set index) heq

/-! ### What carrying makes of a value -/

namespace Link

variable {l : Link}

theorem carryFlat_scalarList_null {c : ScalarConversion} (h : l.transfer = .scalarList c) :
    l.carryFlat .null = .ok (.list []) := by
  rw [carryFlat.eq_def, h]

theorem carryFlat_scalarList_unexpected {c : ScalarConversion} (h : l.transfer = .scalarList c)
    {v : Value} (hlist : ∀ items, v ≠ .list items) (hnull : v ≠ .null) :
    l.carryFlat v = .error (l.unexpected v) := by
  rw [carryFlat.eq_def, h]
  cases v with
  | null => exact absurd rfl hnull
  | list items => exact absurd rfl (hlist items)
  | _ => rfl

/-! ### Writing what was made -/

/-- What becomes of a destination when the link writes what it has made of a value. -/
def deliver (S : Schema) (l : Link) (dst : Record) (made : Except ConvertError Value) : Outcome :=
  match made with
  | .error e => ⟨.error e, dst⟩
  | .ok v =>
    match dst.set S l.targetIndex v with
    | .error e => ⟨.error (l.mismatch (.refused e)), dst⟩
    | .ok dst => ⟨.ok (), dst⟩

/-- Two values leave a destination the same if the target field, should there be one, does the same
with both to what it holds. -/
theorem deliver_ok_eq_iff {dst : Record} (hdst : dst.Whole S) {v w : Value} :
    l.deliver S dst (.ok v) = l.deliver S dst (.ok w) ↔
      ∀ f held, (dst.decl S).fields[l.targetIndex]? = some f →
        dst.cells[l.targetIndex]? = some held →
        (f.write S dst.type v).map (· held) = (f.write S dst.type w).map (· held) := by
  rw [deliver, deliver, Record.set, Record.set]
  cases hf : (dst.decl S).fields[l.targetIndex]? with
  | none => simp
  | some f =>
    have hlt : l.targetIndex < dst.cells.length := by
      rw [hdst]
      exact (List.getElem?_eq_some_iff.mp hf).1
    simp only [Option.some.injEq, List.getElem?_eq_getElem hlt, forall_eq', forall_apply_eq_imp_iff]
    cases f.write S dst.type v with
    | error e =>
      cases f.write S dst.type w with
      | error e' => simp [Except.map, mismatch]
      | ok change' => simp [Except.map]
    | ok change =>
      cases f.write S dst.type w with
      | error e' => simp [Except.map]
      | ok change' => simp [Except.map, modify_eq_modify_iff hlt]

/-- A destination that takes or refuses a value does not end as one that is never written to, since
the errors differ. -/
theorem deliver_ok_ne_unexpected (dst : Record) (v w : Value) :
    l.deliver S dst (.ok v) ≠ l.deliver S dst (.error (l.unexpected w)) := by
  rw [deliver, deliver]
  cases dst.set S l.targetIndex v with
  | error e => simp [unexpected, mismatch]
  | ok made => simp

end Link

namespace Tier

variable {l : Link} {c : Copier} {src dst : Record}

/-- A single copier that reaches the two fields of the link and makes something of the value without
asking for anything. -/
theorem copyFrom_single (tier : Tier) {made : Value → Except ConvertError Value} {s : Store}
    (hlink : c.link = l) (hread : c.read? S src = src.get? S l.sourceIndex)
    (hcarry : ∀ v, tier.carry S v c s = (made v, s))
    (hwrite : ∀ v, c.write S dst v = dst.set S l.targetIndex v) :
    tier.copyFrom S src [c] dst s =
      match src.get? S l.sourceIndex with
      | none => (⟨.error (.access (.unknownField src.type l.name)), dst⟩, s)
      | some v => (l.deliver S dst (made v), s) := by
  rw [copyFrom_cons, hread, hlink]
  cases src.get? S l.sourceIndex with
  | none => rfl
  | some v =>
    simp only [hcarry, hwrite, Link.deliver, copyFrom_nil]
    cases made v with
    | error e => rfl
    | ok w =>
      dsimp only
      cases dst.set S l.targetIndex w <;> rfl

/-- A single copier that hands over. -/
theorem copyFrom_handOver (tier : Tier) (l : Link) (src dst : Record) (s : Store) :
    tier.copyFrom S src [.handOver l] dst s =
      match src.get? S l.sourceIndex with
      | none => (⟨.error (.access (.unknownField src.type l.name)), dst⟩, s)
      | some v => (l.deliver S dst (.ok v), s) :=
  copyFrom_single tier rfl (Copier.read?_handOver S l src)
    (fun v => congrFun (carry_handOver l v) s) fun _ => rfl

/-- A single copier that looks at the value. -/
theorem copyFrom_looking (tier : Tier) (h : l.transfer.isDirect = true) (hc : c.Looks l)
    (hread : c.read? S src = src.get? S l.sourceIndex)
    (hwrite : ∀ v, c.write S dst v = dst.set S l.targetIndex v) (s : Store) :
    tier.copyFrom S src [c] dst s =
      match src.get? S l.sourceIndex with
      | none => (⟨.error (.access (.unknownField src.type l.name)), dst⟩, s)
      | some v => (l.deliver S dst (l.carryFlat v), s) := by
  obtain ⟨hnested, hnestedList⟩ := Transfer.not_nested_of_isDirect h
  have hlink : c.link = l := by cases hc <;> rfl
  exact copyFrom_single tier hlink hread (fun v => carry_of_not_nested hnested hnestedList v hc s)
    hwrite

/-- When the records have the types that the plan was made for, it does not matter whether their
fields are reached by name or by position. -/
theorem copyFrom_byName_eq {key : PlanKey} {plan : Plan} (hplan : Plan.resolve S key = .ok plan)
    (hl : l ∈ plan.links) (h : l.transfer.isDirect = true) (hsrc : src.type = key.source)
    (hdst : dst.type = key.target) (tier tier' : Tier) (s : Store) :
    tier.copyFrom S src [.byName l] dst s = tier'.copyFrom S src [.byPosition l] dst s := by
  obtain ⟨source, target, hj⟩ := Plan.exists_joins hplan hl
  have hread := Copier.read?_copier hplan hj naive hsrc
  have hwrite (v : Value) : (Copier.byName l).write S dst v = dst.set S l.targetIndex v := by
    have hplace := Copier.placement_copier hplan hj naive v
    rw [← hdst] at hplace
    rw [Copier.write_eq, Record.set_eq, ← hplace]
    rfl
  rw [copyFrom_looking tier h .byName hread hwrite,
    copyFrom_looking tier' h .byPosition (Copier.read?_byPosition S l src) fun _ => rfl]

/-- **When a value may be handed over.** For any link that is compiled to a copier that hands over,
any source and any destination: handing over comes to what carrying comes to, as a result and for
the destination, exactly if the link moves a scalar, or the source field holds a list, or it holds
nothing and the target field makes no difference between nothing and the empty list. Carrying is
done by position here; under the plan's own types it comes to the same by name. -/
theorem copyFrom_handOver_eq_iff (S : Schema) (tier : Tier) (l : Link)
    (hdirect : l.transfer.isDirect = true) (src dst : Record) (hdst : dst.Whole S) (s : Store) :
    Copier.compile l = .handOver l ∧
    (tier.copyFrom S src [.handOver l] dst s = tier.copyFrom S src [.byPosition l] dst s ↔
      ∀ v, src.get? S l.sourceIndex = some v →
        (∃ c presence, l.transfer = .scalar c presence) ∨ (∃ items, v = .list items) ∨
          (v = .null ∧ ∀ f held, (dst.decl S).fields[l.targetIndex]? = some f →
            dst.cells[l.targetIndex]? = some held → f.TakesNullAsEmpty held)) ∧
    ∀ key plan, Plan.resolve S key = .ok plan → l ∈ plan.links → src.type = key.source →
      dst.type = key.target → ∀ tier' : Tier,
        tier'.copyFrom S src [.byName l] dst s = tier.copyFrom S src [.byPosition l] dst s := by
  refine ⟨if_pos hdirect, ?_, fun key plan hplan hl hsrc hdst' tier' =>
    copyFrom_byName_eq hplan hl hdirect hsrc hdst' tier' tier s⟩
  rw [copyFrom_handOver,
    copyFrom_looking tier hdirect .byPosition (Copier.read?_byPosition S l src) fun _ => rfl]
  cases src.get? S l.sourceIndex with
  | none => simp
  | some v =>
    simp only [Prod.mk.injEq, and_true, Option.some.injEq, forall_eq']
    rcases Transfer.isDirect_iff.mp hdirect with hscalar | hlist
    · rw [Link.carryFlat_scalar hscalar, Link.carryScalar_identity_same]
      simp [hscalar]
    · by_cases hitems : ∃ items, v = .list items
      · obtain ⟨items, rfl⟩ := hitems
        rw [Link.carryFlat_scalarList hlist, Link.carryScalars_identity]
        simp [Except.map]
      · by_cases hnull : v = .null
        · subst hnull
          rw [Link.carryFlat_scalarList_null hlist, Link.deliver_ok_eq_iff hdst]
          simp only [FieldDecl.write_null_eq_iff]
          simp [hlist]
        · rw [Link.carryFlat_scalarList_unexpected hlist (not_exists.mp hitems) hnull]
          simp [hlist, hitems, hnull, Link.deliver_ok_ne_unexpected]

end Tier

/-! ### Tags -/

namespace Tags

/-- A message whose list of tags may hold anything, a model that holds what it declares, and one
that takes anything too. -/
def decls : List TypeDecl :=
  [⟨"TagsMessage", [⟨"tags", .scalarList .i64, false, .loose⟩]⟩,
   ⟨"Tags", [⟨"tags", .scalarList .i64, false, .declared⟩]⟩,
   ⟨"AnyTags", [⟨"tags", .scalarList .i64, false, .loose⟩]⟩]

theorem isSome_ofDecls? : (Schema.ofDecls? decls fun _ => .null).isSome = true := by decide

def schema : Schema := (Schema.ofDecls? decls fun _ => .null).get isSome_ofDecls?

/-- A message without tags. -/
def bare : Record := ⟨⟨0⟩, [.null]⟩

/-- A message with a text in place of its tags. -/
def misread : Record := ⟨⟨0⟩, [.string "red"]⟩

/-- The link of the tags, which is the same for both models. -/
def link : Link := ⟨"tags", 0, 0, .scalarList .i64, .scalarList .i64, .scalarList .identity⟩

end Tags

/-- A message without tags may be handed over to a model that holds what it declares. -/
theorem Tier.copyFrom_handOver_tags :
    (Tags.link.transfer.isDirect = true ∧ (Record.initial Tags.schema ⟨1⟩).Whole Tags.schema) ∧
      compiled.copyFrom Tags.schema Tags.bare [.handOver Tags.link]
          (.initial Tags.schema ⟨1⟩) .empty =
        compiled.copyFrom Tags.schema Tags.bare [.byPosition Tags.link]
          (.initial Tags.schema ⟨1⟩) .empty := by
  have hwhole : (Record.initial Tags.schema ⟨1⟩).Whole Tags.schema := rfl
  refine ⟨⟨rfl, hwhole⟩, ?_⟩
  obtain ⟨-, hiff, -⟩ := copyFrom_handOver_eq_iff Tags.schema compiled Tags.link rfl
    Tags.bare (.initial Tags.schema ⟨1⟩) hwhole .empty
  refine hiff.mpr fun v hv => .inr (.inr ⟨(Option.some.inj hv).symm, fun f held hf _ => ?_⟩)
  rw [← Option.some.inj hf]
  exact .inl ⟨.i64, rfl⟩

/-- A model that takes anything shows the difference. Where there are no tags, handing over leaves
nothing and carrying leaves the empty list. Where there is a text in their place, handing over
succeeds and carrying fails. -/
theorem Tier.copyFrom_handOver_ne :
    ∃ plan, Plan.resolve Tags.schema (.between ⟨0⟩ ⟨2⟩ .toModel) = .ok plan ∧
      plan.links = [Tags.link] ∧ Tags.link.transfer.isDirect = true ∧
      ((compiled.copyFrom Tags.schema Tags.bare (plan.links.map compiled.copier)
          (.initial Tags.schema ⟨2⟩) .empty).1 = ⟨.ok (), ⟨⟨2⟩, [.null]⟩⟩ ∧
        (naive.copyFrom Tags.schema Tags.bare (plan.links.map naive.copier)
          (.initial Tags.schema ⟨2⟩) .empty).1 = ⟨.ok (), ⟨⟨2⟩, [.list []]⟩⟩) ∧
      (compiled.copyFrom Tags.schema Tags.misread (plan.links.map compiled.copier)
          (.initial Tags.schema ⟨2⟩) .empty).1 = ⟨.ok (), ⟨⟨2⟩, [.string "red"]⟩⟩ ∧
        (naive.copyFrom Tags.schema Tags.misread (plan.links.map naive.copier)
          (.initial Tags.schema ⟨2⟩) .empty).1 =
            ⟨.error (Tags.link.unexpected (.string "red")), ⟨⟨2⟩, [.null]⟩⟩ :=
  ⟨_, rfl, rfl, rfl, ⟨rfl, rfl⟩, rfl, rfl⟩

end Crosswalk
