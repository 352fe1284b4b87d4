import Crosswalk.Proofs.OrdinaryRedaction

/-!
# Writing back what was redacted

Redaction redacts a copy of a nested record, and writes it back only if something in it was
replaced. A count that is too low would lose a redaction that way, and no error would show it.

`Record.rewrite` is the same redaction with every nested record written back, whatever its count.
On records that fit ordinary types the two agree, in the result and in the count
(`Record.rewrite_eq`). On other records they need not: a field that cannot be written may hold a
record in which there is nothing to replace.
-/

namespace Crosswalk

namespace Redaction

variable (S : Schema)

/-- Redaction goes into what the field holds. -/
def goesInto (f : FieldDecl) : Bool := f.readable && !f.sensitive

mutual

/-- The redaction of one field, with every nested record written back. -/
def rewriteStep (type : TypeId) (f : FieldDecl) : Value → Except AccessError (Nat × Value)
  | .record t cells =>
    match goesInto f, f.kind with
    | true, .nested .. =>
      match rewriteCells t (S.decl t).fields cells with
      | (.error e, _) => .error e
      | (.ok count, made) =>
        (f.write S type (.record t made)).map fun change => (count, change (.record t cells))
    | _, _ => step S type f (.record t cells)
  | .list items =>
    match goesInto f, f.kind with
    | true, .nestedList _ =>
      match rewriteItems items with
      | .error e => .error e
      | .ok (count, made) =>
        (f.write S type (.list made)).map fun change => (count, change (.list items))
    | _, _ => step S type f (.list items)
  | v => step S type f v

/-- The redaction of some fields of a type, with every nested record written back. -/
def rewriteCells (type : TypeId) :
    List FieldDecl → List Value → Except AccessError Nat × List Value
  | f :: fs, cell :: cells =>
    match rewriteStep type f cell with
    | .error e => (.error e, cell :: cells)
    | .ok (here, new) =>
      let rest := rewriteCells type fs cells
      (rest.1.map (here + ·), new :: rest.2)
  | _, cells => (.ok 0, cells)

/-- The redaction of the records of a list, with every nested record written back. -/
def rewriteItems : List Value → Except AccessError (Nat × List Value)
  | [] => .ok (0, [])
  | .record t cells :: rest =>
    match rewriteCells t (S.decl t).fields cells with
    | (.error e, _) => .error e
    | (.ok here, made) =>
      (rewriteItems rest).map fun (count, others) => (here + count, .record t made :: others)
  | v :: rest => (rewriteItems rest).map fun (count, others) => (count, v :: others)

end

end Redaction

/-- Redacts a record and writes back every record inside it, whether or not anything in that was
replaced. -/
def Record.rewrite (S : Schema) (r : Record) : Except AccessError Nat × Record :=
  let (count, cells) := Redaction.rewriteCells S r.type (r.decl S).fields r.cells
  (count, { r with cells })

namespace Redaction

variable {S : Schema} {type : TypeId} {f : FieldDecl} {v w : Value} {count : Nat}

theorem rewriteItems_cons (r : Record) (rest : List Value) :
    rewriteItems S (r.toValue :: rest) = match r.rewrite S with
      | (.error e, _) => .error e
      | (.ok here, left) => (rewriteItems S rest).map fun (count, others) =>
          (here + count, left.toValue :: others) := by
  rw [Record.toValue, rewriteItems, Record.rewrite, Record.decl]
  generalize rewriteCells S r.type (S.decl r.type).fields r.cells = redaction
  obtain ⟨result, made⟩ := redaction
  cases result <;> rfl

theorem rewriteItems_eq {rs : List Record} (h : ∀ r ∈ rs, r.rewrite S = r.redact S) :
    rewriteItems S (rs.map (·.toValue)) = redactItems S (rs.map (·.toValue)) := by
  induction rs with
  | nil => rfl
  | cons r rs ih =>
    rw [List.map_cons, rewriteItems_cons, h r List.mem_cons_self,
      ih fun r' hr' => h r' (List.mem_cons_of_mem r hr')]
    exact (redactItems_cons r _).symm

theorem rewriteStep_record (hf : goesInto f = true) {t : TypeId} {optional : Bool}
    (hk : f.kind = .nested t optional) (r : Record) :
    rewriteStep S type f r.toValue = match r.rewrite S with
      | (.error e, _) => .error e
      | (.ok count, left) =>
        (f.write S type left.toValue).map fun change => (count, change r.toValue) := by
  rw [Record.toValue, rewriteStep, hf, hk, Record.rewrite, Record.decl]
  generalize rewriteCells S r.type (S.decl r.type).fields r.cells = redaction
  obtain ⟨result, made⟩ := redaction
  cases result <;> rfl

theorem rewriteStep_list (hf : goesInto f = true) {t : TypeId} (hk : f.kind = .nestedList t)
    (items : List Value) :
    rewriteStep S type f (.list items) = match rewriteItems S items with
      | .error e => .error e
      | .ok (count, made) =>
        (f.write S type (.list made)).map fun change => (count, change (.list items)) := by
  rw [rewriteStep, hf, hk]

theorem rewriteStep_of_not_goesInto (hf : goesInto f = false) :
    rewriteStep S type f v = step S type f v := by
  cases v <;> simp [rewriteStep, hf]

theorem rewriteStep_of_flat (hk : f.kind.nestedType? = none) :
    rewriteStep S type f v = step S type f v := by
  obtain ⟨name, kind, sensitive, access⟩ := f
  cases kind <;> cases hk <;> cases v <;> simp [rewriteStep]

/-- Where a field keeps what is made of the records in it, it makes no difference whether it is
written when nothing was replaced. -/
theorem write_eq_step (hread : f.access = .declared)
    (hr : replacement S f v = .ok (ofInner count w)) (hw : f.kind.admit? S w = some w)
    (hsame : count = 0 → w = v) :
    (f.write S type w).map (fun change => (count, change v)) = step S type f v := by
  have hwrite : f.write S type w = .ok fun _ => w := by
    simp [FieldDecl.write, hread, hw]
  rw [hwrite, eq_comm]
  refine (step_eq_ok_iff (FieldDecl.readable_of_declared hread)).mpr ?_
  rw [hr, ofInner]
  by_cases hcount : count = 0
  · rw [if_pos hcount]
    exact .inl ⟨rfl, hcount, hsame hcount⟩
  · rw [if_neg hcount]
    exact .inr ⟨w, _, rfl, hwrite, rfl⟩

/-- **The step of a field** that is ordinary and fits is the same if every record in it is written
back, as long as that makes no difference inside. -/
theorem rewriteStep_eq (hread : f.access = .declared) (hv : v.fits S f.kind = true)
    (hinner : ∀ r, v.Holds r → f.kind.nestedType? = some r.type → r.fits S = true →
      r.Redactable S ∧ r.rewrite S = r.redact S) :
    rewriteStep S type f v = step S type f v := by
  cases hsecret : f.sensitive with
  | true => exact rewriteStep_of_not_goesInto (by simp [goesInto, hsecret])
  | false =>
    have hf : goesInto f = true := by
      simp [goesInto, FieldDecl.readable_of_declared hread, hsecret]
    cases hk : f.kind with
    | nested t optional =>
      rw [hk] at hv hinner
      rcases Value.fits_nested.mp hv with ⟨-, rfl⟩ | ⟨r, rfl, rfl, hr⟩
      · rfl
      · obtain ⟨⟨count, left, hredact, hsame⟩, hrewrite⟩ :=
          hinner r (Value.holds_self r) rfl hr
        rw [rewriteStep_record hf hk, hrewrite, hredact]
        refine write_eq_step hread ?_ ?_ fun hcount => by rw [hsame hcount]
        · rw [replacement_record hsecret hk, hredact]
        · have htype : left.type = r.type := by
            rw [← show (r.redact S).2 = left from congrArg Prod.snd hredact]
            rfl
          rw [hk]
          exact FieldKind.admit?_record htype optional
    | nestedList t =>
      rw [hk] at hv hinner
      obtain ⟨rs, rfl, hrs⟩ := Value.fits_nestedList.mp hv
      have hall : ∀ r ∈ rs, r.Redactable S ∧ r.rewrite S = r.redact S := by
        intro r hr
        obtain ⟨rfl, hfits⟩ := hrs r hr
        exact hinner r (Value.holds_item (List.mem_map_of_mem hr)) rfl hfits
      obtain ⟨count, hitems, hsame⟩ := redactItems_of_redactable fun r hr => (hall r hr).1
      rw [rewriteStep_list hf hk, rewriteItems_eq fun r hr => (hall r hr).2, hitems]
      refine write_eq_step hread ?_ ?_ fun hcount => by rw [hsame hcount]
      · simp [replacement, hsecret, hk, hitems, Except.map]
      · rw [hk]
        refine FieldKind.admit?_records fun left hleft => ?_
        obtain ⟨r, hr, rfl⟩ := List.mem_map.mp hleft
        exact (hrs r hr).1
    | _ => exact rewriteStep_of_flat (by rw [hk]; rfl)

theorem rewriteCells_eq {fields : List FieldDecl} {cells : List Value}
    (h : ∀ (i : Nat) f v, fields[i]? = some f → cells[i]? = some v →
      rewriteStep S type f v = step S type f v) :
    rewriteCells S type fields cells = redactCells S type fields cells := by
  induction fields generalizing cells with
  | nil => cases cells <;> rfl
  | cons f fs ih =>
    cases cells with
    | nil => rfl
    | cons v vs =>
      rw [rewriteCells, h 0 f v rfl rfl, ih fun i g w hg hw => h (i + 1) g w hg hw]
      exact (redactCells_cons S type f fs v vs).symm

end Redaction

/-- **Writing back only what was redacted is enough.** By induction on the nesting. -/
theorem Record.rewrite_eq {S : Schema} {r : Record} (htype : S.Ordinary r.type)
    (hfits : r.fits S = true) : r.rewrite S = r.redact S := by
  induction r using Record.nestedInduction with
  | step r ih =>
    rw [rewrite, redact, Redaction.rewriteCells_eq fun i f v hf hv => ?_]
    obtain ⟨hread, hfit, hnested⟩ := ordinary_field htype hfits hf hv
    refine Redaction.rewriteStep_eq hread hfit fun inner hin htype' hinner => ?_
    have hordinary := hnested inner.type htype'
    exact ⟨(redact_eq hordinary hinner).1,
      ih v (List.mem_of_getElem? hv) inner hin hordinary hinner⟩

end Crosswalk
