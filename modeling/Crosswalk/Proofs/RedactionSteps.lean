import Crosswalk.Redaction

/-!
# Redaction field by field

Redacting a record is a loop over its fields. `Redaction.step` is what the loop does at one field,
and `Redaction.redactCells_cases` is what becomes of a whole run: every field has been stepped
through, or the step failed at some field, and then that field and all later ones are as they were.

A hand-made field may take what stands in place of a secret and go on as if nothing had happened. So
what a redaction achieves can only be said of fields that hold what they take (`Access.Faithful`).
-/

namespace Crosswalk

/-! ### Fields that hold what they take -/

/-- The field is ordinary, or after a write it holds what it was given. -/
def Access.Faithful : Access → Prop
  | declared => True
  | handmade _ take => ∀ v change, take v = .ok change → ∀ old, change old = v

/-- Every field is ordinary or holds what it takes. -/
def TypeDecl.Faithful (d : TypeDecl) : Prop := ∀ f ∈ d.fields, f.access.Faithful

@[simp] theorem Access.faithful_declared : declared.Faithful := trivial

@[simp] theorem Access.faithful_loose : loose.Faithful := by
  rintro v change h old
  cases h
  rfl

@[simp] theorem Access.faithful_closed (readable : Bool) (why : Value → AccessError) :
    (closed readable why).Faithful := by
  intro v change h
  cases h

/-- What an ordinary field keeps is what it was given, unless that is an absent value. -/
theorem FieldKind.eq_of_admit? {S : Schema} {kind : FieldKind} {v cell : Value} (hv : v ≠ .null)
    (h : kind.admit? S v = some cell) : cell = v := by
  cases kind <;> simp only [admit?] at h <;> grind

/-- **A field that has taken something holds it**, unless that is an absent value. -/
theorem FieldDecl.eq_of_write {S : Schema} {f : FieldDecl} {type : TypeId} {v : Value}
    {change : Value → Value} (hkeeps : f.access.Faithful) (hv : v ≠ .null)
    (h : f.write S type v = .ok change) (old : Value) : change old = v := by
  rw [write] at h
  cases haccess : f.access with
  | declared =>
    rw [haccess] at h
    cases htaken : f.kind.admit? S v with
    | none =>
      rw [htaken] at h
      cases h
    | some cell =>
      rw [htaken] at h
      cases h
      exact FieldKind.eq_of_admit? hv htaken
  | handmade readable take =>
    rw [haccess] at h hkeeps
    exact hkeeps v change h old

/-! ### One field and the loop -/

namespace Redaction

variable (S : Schema)

/-- The redaction of one field: how many values were replaced, and the cell after it. -/
def step (type : TypeId) (f : FieldDecl) (cell : Value) : Except AccessError (Nat × Value) :=
  if f.readable then
    match replacement S f cell with
    | .error e => .error e
    | .ok none => .ok (0, cell)
    | .ok (some (count, v)) => (f.write S type v).map fun change => (count, change cell)
  else .ok (0, cell)

/-- The fields before the given one have been stepped through, and the others are as before. -/
structure SteppedTo (type : TypeId) (fields : List FieldDecl) (before after : List Value)
    (stop : Nat) : Prop where
  stepped : ∀ i < stop, ∀ f new, fields[i]? = some f → after[i]? = some new →
    ∃ cell count, before[i]? = some cell ∧ step S type f cell = .ok (count, new)
  kept : ∀ i, stop ≤ i → after[i]? = before[i]?

variable {S} {type : TypeId} {f : FieldDecl} {fs : List FieldDecl} {cell new : Value}
variable {cells before after : List Value} {stop count : Nat} {e : AccessError}

theorem SteppedTo.refl (S : Schema) (type : TypeId) (fields : List FieldDecl)
    (cells : List Value) : SteppedTo S type fields cells cells 0 :=
  ⟨fun _ h => absurd h (Nat.not_lt_zero _), fun _ _ => rfl⟩

theorem SteppedTo.cons (hstep : step S type f cell = .ok (count, new))
    (h : SteppedTo S type fs before after stop) :
    SteppedTo S type (f :: fs) (cell :: before) (new :: after) (stop + 1) where
  stepped i hi g v hg hv := by
    cases i with
    | zero =>
      cases hg
      cases hv
      exact ⟨cell, count, rfl, hstep⟩
    | succ i => exact h.stepped i (Nat.lt_of_succ_lt_succ hi) g v hg hv
  kept i hi := by
    cases i with
    | zero => exact absurd hi (Nat.not_succ_le_zero _)
    | succ i => exact h.kept i (Nat.le_of_succ_le_succ hi)

/-! ### The loop -/

theorem redactCells_cons (S : Schema) (type : TypeId) (f : FieldDecl) (fs : List FieldDecl)
    (cell : Value) (cells : List Value) :
    redactCells S type (f :: fs) (cell :: cells) =
      match step S type f cell with
      | .error e => (.error e, cell :: cells)
      | .ok (here, new) =>
        let rest := redactCells S type fs cells
        (rest.1.map (here + ·), new :: rest.2) := by
  have hzero (result : Except AccessError Nat) : result.map (0 + ·) = result := by
    cases result with
    | error e => rfl
    | ok count => exact congrArg Except.ok (Nat.zero_add count)
  rw [redactCells, step]
  by_cases hread : f.readable = true
  · simp only [if_pos hread]
    cases replacement S f cell with
    | error e => rfl
    | ok r =>
      cases r with
      | none => simp only [hzero]
      | some made =>
        obtain ⟨here, v⟩ := made
        dsimp only
        cases f.write S type v <;> rfl
  · simp only [if_neg hread, hzero]

/-- **Redaction goes from field to field up to the first that fails.** -/
theorem redactCells_cases (S : Schema) (type : TypeId) (fields : List FieldDecl)
    (cells : List Value) :
    let (result, made) := redactCells S type fields cells
    (∃ count, result = .ok count ∧ SteppedTo S type fields cells made fields.length) ∨
      ∃ stop f cell e, fields[stop]? = some f ∧ cells[stop]? = some cell ∧
        step S type f cell = .error e ∧ result = .error e ∧
        SteppedTo S type fields cells made stop := by
  induction fields generalizing cells with
  | nil => cases cells <;> exact .inl ⟨0, rfl, SteppedTo.refl S type [] _⟩
  | cons f fs ih =>
    cases cells with
    | nil =>
      refine .inl ⟨0, rfl, fun i _ g v _ hv => ?_, fun _ _ => rfl⟩
      cases hv
    | cons cell cells =>
      rw [redactCells_cons]
      cases hstep : step S type f cell with
      | error e => exact .inr ⟨0, f, cell, e, rfl, rfl, hstep, rfl, SteppedTo.refl S type _ _⟩
      | ok made =>
        obtain ⟨here, new⟩ := made
        have hrest := ih cells
        dsimp only at hrest ⊢
        rcases hrest with ⟨count, hcount, hsteps⟩ | ⟨stop, g, v, e, hg, hv, hfail, he, hsteps⟩
        · rw [hcount]
          exact .inl ⟨here + count, rfl, hsteps.cons hstep⟩
        · rw [he]
          exact .inr ⟨stop + 1, g, v, e, hg, hv, hfail, rfl, hsteps.cons hstep⟩

/-! ### One field -/

/-- What the step of a field that can be read comes to. -/
theorem step_eq_ok_iff (hread : f.readable = true) :
    step S type f cell = .ok (count, new) ↔
      replacement S f cell = .ok none ∧ count = 0 ∧ new = cell ∨
        ∃ w change, replacement S f cell = .ok (some (count, w)) ∧
          f.write S type w = .ok change ∧ new = change cell := by
  rw [step, if_pos hread]
  cases replacement S f cell with
  | error e => simp
  | ok made =>
    cases made with
    | none => simp [eq_comm]
    | some made =>
      obtain ⟨here, w⟩ := made
      cases hwrite : f.write S type w <;> simp [Except.map] <;> grind

theorem replacement_of_sensitive (hf : f.sensitive = true) (v : Value) :
    replacement S f v = .ok (ofSensitive f.kind v) := by
  cases v <;> simp [replacement, hf]

/-- Whatever is in a sensitive scalar field is replaced. -/
theorem ofSensitive_scalar (k : ScalarKind) (optional : Bool) {v : Value} (hv : v ≠ .null) :
    ofSensitive (.scalar k optional) v = some (1, scalar k) := by
  cases v <;> first | rfl | exact absurd rfl hv

theorem scalar_ne_null (k : ScalarKind) : scalar k ≠ .null := by
  cases k <;> nofun

/-- After its step a sensitive scalar field holds nothing, or what stands in place of a secret,
unless it does not hold what it takes. -/
theorem step_secretScalar (hkeeps : f.access.Faithful) (hf : f.sensitive = true) {k : ScalarKind}
    {optional : Bool} (hk : f.kind = .scalar k optional) (hread : f.readable = true)
    (h : step S type f cell = .ok (count, new)) : new = .null ∨ new = scalar k := by
  rw [step_eq_ok_iff hread, replacement_of_sensitive hf, hk] at h
  by_cases hcell : cell = .null
  · subst hcell
    rcases h with ⟨-, -, rfl⟩ | ⟨w, _, hw, -⟩
    · exact .inl rfl
    · cases hw
  · rw [ofSensitive_scalar k optional hcell] at h
    rcases h with ⟨hnone, -⟩ | ⟨w, change, hw, hwrite, rfl⟩
    · cases hnone
    · cases hw
      exact .inr (FieldDecl.eq_of_write hkeeps (scalar_ne_null k) hwrite cell)

end Redaction

end Crosswalk
