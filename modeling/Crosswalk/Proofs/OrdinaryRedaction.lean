import Crosswalk.Proofs.Admission
import Crosswalk.Proofs.RedactionSteps

/-!
# Redaction of ordinary records

Ordinary fields take whatever redaction writes to them. So the redaction of a record that fits an
ordinary type always succeeds, and it is the same as treating every field by itself:
`Redaction.covered` is what a field holds afterwards, as a function of what it held before, with no
loop, no errors and no count. Only the records inside are still redacted by the loop, and that is
where the induction of `Record.redact_eq` goes on.

The count only matters in being zero or not, since a nested record with the count zero is not
written back. It is part of the induction that nothing has changed then.
-/

namespace Crosswalk

theorem TypeDecl.Plain.faithful {d : TypeDecl} (h : d.Plain) : d.Faithful := by
  intro f hf
  rw [h f hf]
  exact Access.faithful_declared

/-- The value after redaction, if it is a record. -/
def Value.redacted (S : Schema) : Value → Value
  | .record type cells => (Record.redact S ⟨type, cells⟩).2.toValue
  | v => v

namespace Redaction

variable (S : Schema)

/-- What a sensitive ordinary field of the kind holds after redaction. -/
def coveredSecret (kind : FieldKind) (v : Value) : Value :=
  match kind, v with
  | _, .null => .null
  | .scalar k _, _ => scalar k
  | .scalarList k, .list items => .list (items.map fun _ => scalar k)
  | .nested _ true, _ => .null
  | .nested type false, _ => .record type (S.initialCells type)
  | .nestedList _, _ => .list []
  | _, _ => v

/-- What any other ordinary field of the kind holds after redaction. -/
def coveredOpen (kind : FieldKind) (v : Value) : Value :=
  match kind, v with
  | .nested .., _ => v.redacted S
  | .nestedList _, .list items => .list (items.map (·.redacted S))
  | _, _ => v

/-- What an ordinary field holds after redaction. -/
def covered (f : FieldDecl) (v : Value) : Value :=
  if f.sensitive then coveredSecret S f.kind v else coveredOpen S f.kind v

variable {S} {f : FieldDecl}

theorem covered_of_sensitive (hf : f.sensitive = true) (v : Value) :
    covered S f v = coveredSecret S f.kind v := if_pos hf

theorem covered_of_open (hf : f.sensitive = false) (v : Value) :
    covered S f v = coveredOpen S f.kind v := if_neg (by simp [hf])

end Redaction

/-- The redaction of the record succeeds, and if it replaces nothing then nothing changes. -/
def Record.Redactable (S : Schema) (r : Record) : Prop :=
  ∃ count left, r.redact S = (.ok count, left) ∧ (count = 0 → left = r)

namespace Redaction

variable {S : Schema} {type : TypeId} {f : FieldDecl} {v w : Value} {count : Nat}

/-- The step of the field comes to what the field is to hold afterwards, and if it counts nothing
then nothing has changed. -/
def Covers (S : Schema) (f : FieldDecl) (v : Value) : Prop :=
  ∀ type, ∃ count, step S type f v = .ok (count, covered S f v) ∧
    (count = 0 → covered S f v = v)

/-- A field in which there is nothing to replace. -/
theorem covers_none (hr : replacement S f v = .ok none) (hv : covered S f v = v) :
    Covers S f v := by
  intro type
  rw [step, hr, hv]
  refine ⟨0, ?_, fun _ => rfl⟩
  split <;> rfl

/-- A field that takes what is written to it. -/
theorem covers_some (hread : f.access = .declared) (hr : replacement S f v = .ok (some (count, w)))
    (hw : f.kind.admit? S w = some (covered S f v)) (hv : count = 0 → covered S f v = v) :
    Covers S f v := by
  intro type
  have hwrite : f.write S type w = .ok fun _ => covered S f v := by
    simp [FieldDecl.write, hread, hw]
  rw [step, if_pos (FieldDecl.readable_of_declared hread), hr]
  dsimp only
  rw [hwrite]
  exact ⟨count, rfl, hv⟩

/-! ### Sensitive fields -/

theorem scalarKind?_scalar (k : ScalarKind) : (scalar k).scalarKind? = some k := by
  cases k <;> rfl

theorem coveredSecret_scalar (k : ScalarKind) (optional : Bool) (hv : v ≠ .null) :
    coveredSecret S (.scalar k optional) v = scalar k := by
  cases v <;> first | rfl | exact absurd rfl hv

theorem covers_of_sensitive (hread : f.access = .declared) (hf : f.sensitive = true)
    (hv : v.fits S f.kind = true) : Covers S f v := by
  have hr := replacement_of_sensitive (S := S) hf v
  obtain ⟨name, kind, sensitive, access⟩ := f
  obtain rfl : sensitive = true := hf
  cases kind with
  | scalar k optional =>
    rw [Value.fits_scalar] at hv
    rcases hv with hv | ⟨-, rfl⟩
    · have hne : v ≠ .null := by
        rintro rfl
        cases hv
      have hcovered : covered S ⟨name, .scalar k optional, true, access⟩ v = scalar k :=
        coveredSecret_scalar k optional hne
      rw [ofSensitive_scalar k optional hne] at hr
      refine covers_some hread hr ?_ (by simp)
      rw [hcovered]
      exact FieldKind.admit?_scalar (.inl (scalarKind?_scalar k))
    · exact covers_none hr rfl
  | scalarList k =>
    rw [Value.fits_scalarList] at hv
    obtain ⟨items, rfl, -⟩ := hv
    refine covers_some hread hr (FieldKind.admit?_list fun w hw => ?_) fun hcount => ?_
    · obtain ⟨-, -, rfl⟩ := List.mem_map.mp hw
      exact scalarKind?_scalar k
    · rw [List.length_eq_zero_iff.mp hcount]
      rfl
  | nested t optional =>
    rw [Value.fits_nested] at hv
    rcases hv with ⟨-, rfl⟩ | ⟨r, rfl, rfl, -⟩
    · exact covers_none hr rfl
    · refine covers_some hread hr ?_ (by simp)
      cases optional <;> rfl
  | nestedList t =>
    rw [Value.fits_nestedList] at hv
    obtain ⟨rs, rfl, -⟩ := hv
    exact covers_some hread hr rfl (by simp)
  | unsupported what => cases v <;> exact covers_none hr rfl

/-! ### Records inside -/

theorem replacement_record (hf : f.sensitive = false) {t : TypeId} {optional : Bool}
    (hk : f.kind = .nested t optional) (r : Record) :
    replacement S f r.toValue = match r.redact S with
      | (.error e, _) => .error e
      | (.ok count, left) => .ok (ofInner count left.toValue) := by
  rw [Record.toValue, replacement, hf, hk, Record.redact, Record.decl]
  generalize redactCells S r.type (S.decl r.type).fields r.cells = redaction
  obtain ⟨result, made⟩ := redaction
  cases result <;> rfl

theorem redactItems_cons (r : Record) (rest : List Value) :
    redactItems S (r.toValue :: rest) = match r.redact S with
      | (.error e, _) => .error e
      | (.ok here, left) => (redactItems S rest).map fun (count, others) =>
          (here + count, left.toValue :: others) := by
  rw [Record.toValue, redactItems, Record.redact, Record.decl]
  generalize redactCells S r.type (S.decl r.type).fields r.cells = redaction
  obtain ⟨result, made⟩ := redaction
  cases result <;> rfl

/-- The records of a list are redacted one by one. -/
theorem redactItems_of_redactable {rs : List Record} (h : ∀ r ∈ rs, r.Redactable S) :
    let left := rs.map fun r => (r.redact S).2
    ∃ count, redactItems S (rs.map (·.toValue)) = .ok (count, left.map (·.toValue)) ∧
      (count = 0 → left = rs) := by
  induction rs with
  | nil => exact ⟨0, rfl, fun _ => rfl⟩
  | cons r rs ih =>
    obtain ⟨here, left, hredact, hsame⟩ := h r List.mem_cons_self
    obtain ⟨others, hothers, hsames⟩ := ih fun r' hr' => h r' (List.mem_cons_of_mem r hr')
    refine ⟨here + others, ?_, fun hcount => ?_⟩
    · rw [List.map_cons, redactItems_cons, List.map_cons, hredact, hothers]
      rfl
    · rw [List.map_cons, hredact, hsame (by omega), hsames (by omega)]

/-- What is written back into a field that holds records, if it is written back. -/
theorem covers_inner (hread : f.access = .declared)
    (hr : replacement S f v = .ok (ofInner count w)) (hv : covered S f v = w)
    (hw : f.kind.admit? S w = some w) (hsame : count = 0 → w = v) : Covers S f v := by
  rw [ofInner] at hr
  by_cases hcount : count = 0
  · rw [if_pos hcount] at hr
    exact covers_none hr (hv.trans (hsame hcount))
  · rw [if_neg hcount] at hr
    refine covers_some hread hr ?_ fun h => absurd h hcount
    rw [hw, hv]

theorem covers_of_open (hread : f.access = .declared) (hf : f.sensitive = false)
    (hv : v.fits S f.kind = true) (hinner : ∀ r, v.Holds r → f.kind.nestedType? = some r.type →
      r.fits S = true → r.Redactable S) : Covers S f v := by
  obtain ⟨name, kind, sensitive, access⟩ := f
  obtain rfl : sensitive = false := hf
  cases kind with
  | nested t optional =>
    rw [Value.fits_nested] at hv
    rcases hv with ⟨-, rfl⟩ | ⟨r, rfl, rfl, hr⟩
    · exact covers_none (by simp [replacement]) rfl
    · obtain ⟨count, left, hredact, hsame⟩ := hinner r (Value.holds_self r) rfl hr
      have hleft : (r.redact S).2 = left := congrArg Prod.snd hredact
      have hreplacement : replacement S ⟨name, .nested r.type optional, false, access⟩ r.toValue =
          .ok (ofInner count left.toValue) := by
        rw [replacement_record rfl rfl, hredact]
      refine covers_inner hread hreplacement ?_ ?_ ?_
      · exact congrArg Record.toValue hleft
      · rw [← hleft]
        exact FieldKind.admit?_record rfl optional
      · intro h
        rw [hsame h]
  | nestedList t =>
    rw [Value.fits_nestedList] at hv
    obtain ⟨rs, rfl, hrs⟩ := hv
    have hredactable : ∀ r ∈ rs, r.Redactable S := by
      intro r hr
      obtain ⟨rfl, hfits⟩ := hrs r hr
      exact hinner r (Value.holds_item (List.mem_map_of_mem hr)) rfl hfits
    obtain ⟨count, hitems, hsame⟩ := redactItems_of_redactable hredactable
    have hreplacement : replacement S ⟨name, .nestedList t, false, access⟩
          (.list (rs.map (·.toValue))) =
        .ok (ofInner count (.list ((rs.map fun r => (r.redact S).2).map (·.toValue)))) := by
      simp [replacement, hitems, Except.map]
    refine covers_inner hread hreplacement ?_ (FieldKind.admit?_records ?_) ?_
    · change Value.list ((rs.map (·.toValue)).map (·.redacted S)) = _
      rw [List.map_map, List.map_map]
      rfl
    · intro left hleft
      obtain ⟨r, hr, rfl⟩ := List.mem_map.mp hleft
      exact (hrs r hr).1
    · intro h
      rw [hsame h]
  | _ => cases v <;> exact covers_none (by simp [replacement]) rfl

/-! ### Whole records -/

/-- When every field comes to what it is to hold, the loop does what can be done field by field. -/
theorem redactCells_of_covers (type : TypeId) {fields : List FieldDecl} {cells : List Value}
    (hlength : cells.length = fields.length)
    (h : ∀ (i : Nat) f v, fields[i]? = some f → cells[i]? = some v → Covers S f v) :
    let made := List.zipWith (covered S) fields cells
    ∃ count, redactCells S type fields cells = (.ok count, made) ∧
      (count = 0 → made = cells) := by
  induction fields generalizing cells with
  | nil =>
    obtain rfl := List.length_eq_zero_iff.mp hlength
    exact ⟨0, rfl, fun _ => rfl⟩
  | cons f fs ih =>
    cases cells with
    | nil => cases hlength
    | cons v vs =>
      obtain ⟨here, hstep, hsame⟩ := h 0 f v rfl rfl type
      obtain ⟨others, hothers, hsames⟩ := ih (Nat.succ_injective hlength)
        fun i g w hg hw => h (i + 1) g w hg hw
      refine ⟨here + others, ?_, fun hcount => ?_⟩
      · rw [redactCells_cons, hstep, hothers]
        rfl
      · rw [List.zipWith_cons_cons, hsame (by omega), hsames (by omega)]

end Redaction

/-- **Redaction of a record of an ordinary type** succeeds, leaves the record alone if it replaces
nothing, and is done field by field. -/
theorem Record.redact_eq {S : Schema} {r : Record} (htype : S.Ordinary r.type)
    (hfits : r.fits S = true) : r.Redactable S ∧
      (r.redact S).2 = ⟨r.type, List.zipWith (Redaction.covered S) (r.decl S).fields r.cells⟩ := by
  induction r using Record.nestedInduction with
  | step r ih =>
    have hcovers (i : Nat) (f : FieldDecl) (v : Value) (hf : (r.decl S).fields[i]? = some f)
        (hv : r.cells[i]? = some v) : Redaction.Covers S f v := by
      obtain ⟨hread, hfit, hordinary⟩ := ordinary_field htype hfits hf hv
      by_cases hsecret : f.sensitive = true
      · exact Redaction.covers_of_sensitive hread hsecret hfit
      · rw [Bool.not_eq_true] at hsecret
        refine Redaction.covers_of_open hread hsecret hfit fun inner hin hnested hinner => ?_
        exact (ih v (List.mem_of_getElem? hv) inner hin (hordinary inner.type hnested) hinner).1
    obtain ⟨count, hredact, hsame⟩ := Redaction.redactCells_of_covers r.type
      (whole_of_fits hfits) hcovers
    have heq : r.redact S =
        (.ok count, ⟨r.type, List.zipWith (Redaction.covered S) (r.decl S).fields r.cells⟩) := by
      rw [Record.redact, hredact]
    exact ⟨⟨count, _, heq, fun hcount => by rw [hsame hcount]⟩, by rw [heq]⟩

end Crosswalk
