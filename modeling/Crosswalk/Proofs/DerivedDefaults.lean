import Crosswalk.Proofs.Issued

/-!
# Derived defaults

The default of a type may be any that fits it, and most often it is derived: a field starts with
the zero value of its kind, an empty list or an absence, and with the initial record of its type
where there has to be one (`Schema.Derives`). Tables of declarations are filled in like that
(`Schema.derives_of_ofDecls?`).

An initial record of that kind has nothing in it but zero values and further initial records. So
nothing in it is past the end of the calendar, and neither is what stands for an absent record
(`PlanKey.fillsInCalendar_of_derives`).
-/

namespace Crosswalk

variable {S : Schema} {t : TypeId}

namespace Schema

/-- The default of the type is the derived one, as far as its ordinary fields go. -/
def Derives (S : Schema) (t : TypeId) : Prop :=
  ∀ (index : Nat) f v, (S.decl t).fields[index]? = some f →
    (S.initialCells t)[index]? = some v → f.access = .declared →
      v = f.kind.zero S.initialCells

/-! ### Tables -/

section Tables

variable {decls : List TypeDecl} {handmade : FieldDecl → Value}

/-- More depth changes nothing once the cells fit. By induction on the depth: if it did not suffice,
some required record would have too few cells. -/
theorem zeroCells_succ (hdecl : ∀ t, S.decl t = decls.getD t.index ⟨"", []⟩) {depth : Nat}
    {d : TypeDecl} (h : Value.cellsFitWhere S.decl (·.access = .declared) d.fields
      (zeroCells decls handmade depth d) = true) :
    zeroCells decls handmade (depth + 1) d = zeroCells decls handmade depth d := by
  induction depth generalizing d with
  | zero =>
    have hlength := (Value.cellsFitWhere_iff.mp h).1
    rw [zeroCells, List.length_nil, eq_comm, List.length_eq_zero_iff] at hlength
    rw [zeroCells, zeroCells, hlength, List.map_nil]
  | succ depth ih =>
    have hcells := (Value.cellsFitWhere_iff.mp h).2
    rw [zeroCells, zeroCells]
    refine List.map_congr_left fun f hf => ?_
    by_cases haccess : f.access = .declared
    · rw [if_pos haccess, if_pos haccess]
      obtain ⟨index, hindex⟩ := List.getElem?_of_mem hf
      have hfits := hcells index f _ hindex
        (by rw [zeroCells, List.getElem?_map, hindex, Option.map_some, if_pos haccess])
        (by simp [haccess])
      cases hkind : f.kind with
      | nested u optional =>
        cases optional with
        | true => rfl
        | false =>
          rw [hkind] at hfits
          obtain ⟨h, -⟩ | ⟨r, hr, rfl, hinner⟩ := Value.fits_nested.mp hfits
          · cases h
          · obtain ⟨-, hinside⟩ := Value.record.inj hr
            rw [Record.fitsWhere, hdecl, ← hinside] at hinner
            exact congrArg (Value.record _) (ih hinner)
      | scalar k optional => cases optional <;> rfl
      | _ => rfl
    · rw [if_neg haccess, if_neg haccess]

/-- **Types that come from a table have derived defaults.** -/
theorem derives_of_ofDecls? (h : ofDecls? decls handmade = some S) (t : TypeId) :
    S.Derives t := by
  have hdecl (u : TypeId) : S.decl u = decls.getD u.index ⟨"", []⟩ := (eq_of_ofTables? h u).1
  have hcells (u : TypeId) :
      S.initialCells u = zeroCells decls handmade decls.length (S.decl u) := by
    rw [(eq_of_ofTables? h u).2, hdecl, List.getD_eq_getElem?_getD, List.getD_eq_getElem?_getD,
      List.getElem?_map]
    cases decls[u.index]? with
    | some d => rfl
    | none => cases decls.length <;> rfl
  intro index f v hf hv haccess
  rw [hcells, ← zeroCells_succ hdecl (hcells t ▸ S.initialCells_fit t), zeroCells,
    List.getElem?_map, hf, Option.map_some, if_pos haccess, Option.some.injEq] at hv
  rw [← hv]
  congr 1
  funext u
  rw [hcells, hdecl]

end Tables

end Schema

/-! ### Initial records -/

namespace FieldKind

variable {kind : FieldKind} {required : TypeId → List Value}

theorem holds_zero {r : Record} (h : (kind.zero required).Holds r) :
    ∃ u, kind.nestedType? = some u ∧ r = ⟨u, required u⟩ := by
  cases kind with
  | nested u optional =>
    rcases h with h | ⟨items, h, -⟩ <;> cases optional
    · exact ⟨u, rfl, Record.toValue_injective h.symm⟩
    all_goals cases h
  | scalar k optional =>
    rcases h with h | ⟨items, h, -⟩ <;> cases optional <;> cases k <;> cases h
  | unsupported what => rcases h with h | ⟨items, h, -⟩ <;> cases h
  | _ =>
    rcases h with h | ⟨items, h, hmem⟩ <;> cases h
    exact absurd hmem List.not_mem_nil

theorem not_overruns_zero {l : Link} : ¬ l.Overruns (kind.zero required) := by
  intro h
  generalize hv : kind.zero required = v at h
  cases h with
  | instant _ _ hd =>
    rcases kind with ⟨k, _ | _⟩ | _ | ⟨u, _ | _⟩ | _ | _ <;> try cases hv
    cases k <;> cases hv
    exact DateTime.not_endsCalendar rfl hd
  | item _ _ hmem hd =>
    rcases kind with ⟨k, _ | _⟩ | _ | ⟨u, _ | _⟩ | _ | _ <;> try cases hv
    · cases k <;> cases hv
    all_goals cases hmem

end FieldKind

section Initial

variable (hderives : ∀ t, S.Derives t) (ht : S.Ordinary t)

include hderives ht

/-- What a field of an initial record reads is the zero of a kind. -/
theorem Record.exists_zero {index : Nat} {v : Value} (hv : (initial S t).get? S index = some v) :
    ∃ f ∈ (S.decl t).fields, v = f.kind.zero S.initialCells := by
  rw [get?_eq_getElem? (r := initial S t) ht.plain (whole_initial t)] at hv
  obtain ⟨f, hf⟩ : ∃ f, (S.decl t).fields[index]? = some f := by
    obtain ⟨hlt, -⟩ := List.getElem?_eq_some_iff.mp hv
    exact ⟨_, List.getElem?_eq_getElem (hlt.trans_eq (whole_initial t))⟩
  have hmem : f ∈ (S.decl t).fields := List.mem_of_getElem? hf
  exact ⟨f, hmem, hderives t index f v hf hv (ht.plain f hmem)⟩

/-- From an initial record one comes to initial records only. -/
theorem Reached.exists_initial {key key' : PlanKey} {inner : Record}
    (h : Reached S key (.initial S t) key' inner) : ∃ u, S.Ordinary u ∧ inner = .initial S u := by
  generalize hr : Record.initial S t = r at h
  induction h generalizing t with
  | here => exact ⟨t, ht, hr.symm⟩
  | inside hplan hl hv henter _ ih =>
    subst hr
    obtain ⟨f, hf, rfl⟩ := Record.exists_zero hderives ht hv
    obtain ⟨u, hu, rfl⟩ := FieldKind.holds_zero henter.holds
    exact ih (ht.nested hf hu) rfl

/-- **Derived defaults are within the calendar.** -/
theorem Record.initial_inCalendar (key : PlanKey) : (initial S t).InCalendar S key := by
  intro key' inner plan l v hreached _ _ hv
  obtain ⟨u, hu, rfl⟩ := hreached.exists_initial hderives ht
  obtain ⟨f, -, rfl⟩ := exists_zero hderives hu hv
  exact FieldKind.not_overruns_zero

end Initial

/-- The types that a key leads to are inside of those that it is for. -/
theorem PlanKey.LeadsTo.ordinary_target {key key' : PlanKey} (h : LeadsTo S key key')
    (ht : S.Ordinary key.target) : S.Ordinary key'.target := by
  induction h with
  | refl => exact ht
  | step hplan hl htransfer _ ih =>
    obtain ⟨source, target, hj⟩ := Plan.exists_joins hplan hl
    rcases htransfer with htransfer | htransfer
    · obtain ⟨t, u, o, o', -, htarget, rfl⟩ := (htransfer ▸ hj.suits).exists_nested
      rw [target_between] at ih
      exact ih (hj.ordinary_target ht (by rw [htarget]; rfl))
    · obtain ⟨t, u, -, htarget, rfl⟩ := (htransfer ▸ hj.suits).exists_nestedList
      rw [target_between] at ih
      exact ih (hj.ordinary_target ht (by rw [htarget]; rfl))

/-- **Where defaults are derived, what stands for an absent record is within the calendar.** -/
theorem PlanKey.fillsInCalendar_of_derives {key : PlanKey} (hderives : ∀ t, S.Derives t)
    (ht : S.Ordinary key.target) : key.FillsInCalendar S := by
  intro key' plan l key'' t u hleads hplan hl _ _ htarget
  obtain ⟨source, target, hj⟩ := Plan.exists_joins hplan hl
  have hu : S.Ordinary u :=
    hj.ordinary_target (hleads.ordinary_target ht) (by rw [htarget]; rfl)
  exact Record.initial_inCalendar hderives hu _

end Crosswalk
