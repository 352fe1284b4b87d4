import Crosswalk.Converter
import Crosswalk.Proofs.RedactionSteps

/-!
# What calls leave readable

When redaction is in effect, a call redacts its destination whatever became of the copy, since what
was written before a failure stays written.

The fields of ordinary records take whatever redaction writes to them. A hand-made record may refuse
a write, and that ends the redaction there, although a later field may hold a secret and be willing
to give it up. `Converter.call_redacts` says what this means. Every sensitive scalar before the
refused field has been redacted, and if no field refused these are all of them. If one did then the
call fails, be it for that reason or because the copy had failed before. Of a field that takes a
write it is only asked that it then holds what was written.

`Logins` has two models with a password and a sensitive field that refuses all writes. Where that
field comes first the password stays.
-/

namespace Crosswalk

namespace Record

variable (S : Schema)

/-- No sensitive scalar field before this position can be read, unless nothing is in it or what
stands in place of a secret. This is said of fields that hold what they have taken. -/
def ScalarsRedactedTo (r : Record) (stop : Nat) : Prop :=
  ∀ index < stop, ∀ f k optional v, (r.decl S).fields[index]? = some f → f.access.Faithful →
    f.sensitive = true → f.kind = .scalar k optional → r.get? S index = some v →
    v = .null ∨ v = Redaction.scalar k

variable {S} {r : Record}

theorem scalarsRedactedTo_of_steps {before after : List Value} {stop : Nat}
    (h : Redaction.SteppedTo S r.type (r.decl S).fields before after stop) :
    ScalarsRedactedTo S ⟨r.type, after⟩ stop := by
  intro index hindex f k optional v hf hkeeps hsecret hk hv
  rw [get?] at hv
  split at hv
  · next hread =>
    obtain ⟨cell, count, -, hstep⟩ := h.stepped index hindex f v hf hv
    rw [TypeDecl.readableAt, hf] at hread
    exact Redaction.step_secretScalar hkeeps hsecret hk (by simpa using hread) hstep
  · cases hv

/-- What is left of a record after its redaction. -/
theorem redact_cases (S : Schema) (r : Record) :
    let (result, left) := r.redact S
    (∃ count, result = .ok count ∧ left.ScalarsRedactedTo S (left.decl S).fields.length) ∨
      ∃ stop f cell e, (left.decl S).fields[stop]? = some f ∧ left.cells[stop]? = some cell ∧
        Redaction.step S left.type f cell = .error e ∧ result = .error e ∧
        left.ScalarsRedactedTo S stop := by
  rcases Redaction.redactCells_cases S r.type (r.decl S).fields r.cells with
    ⟨count, hcount, hsteps⟩ | ⟨stop, f, cell, e, hf, hcell, hfail, he, hsteps⟩
  · exact .inl ⟨count, hcount, scalarsRedactedTo_of_steps hsteps⟩
  · rw [← hsteps.kept stop (Nat.le_refl stop)] at hcell
    exact .inr ⟨stop, f, cell, e, hf, hcell, hfail, he, scalarsRedactedTo_of_steps hsteps⟩

end Record

namespace Converter

variable {σ : Type} (S : Schema)

/-- A call with two records is a copy and what is left to do after it. -/
theorem call_eq_complete (c : Converter σ) (src dst : Record) (direction : Direction)
    (options : CallOptions) (audit : Audit σ) :
    let copied := c.tier.convert S (some src) (some dst) direction c.store
    ∃ copy, copied.1.2 = some copy ∧ (c.call S (some src) (some dst) direction options audit).1 =
      c.complete S direction options audit copied.1.1 copy :=
  ⟨_, rfl, rfl⟩

variable {S} {c : Converter σ} {options : CallOptions}

variable (S c) in
/-- The rules do nothing to a record. -/
theorem target_check (r : Record) (audit : Audit σ) : (c.check S r audit).target = some r := by
  rw [check]
  split <;> rfl

/-- Whatever became of the copy, its record is redacted. -/
theorem target_complete (h : c.settings.redactsUnder options = true) (direction : Direction)
    (audit : Audit σ) (copied : Except ConvertError Unit) (copy : Record) :
    (c.complete S direction options audit copied copy).target = some (copy.redact S).2 := by
  rw [complete, if_pos h]
  obtain ⟨redacted, left⟩ := copy.redact S
  cases copied with
  | error e => rfl
  | ok _ =>
    cases redacted with
    | error e => rfl
    | ok _ =>
      dsimp only
      split
      · exact target_check S c left audit
      · rfl

/-- A failure of the copy is reported before one of the redaction. -/
theorem result_complete (h : c.settings.redactsUnder options = true) (direction : Direction)
    (audit : Audit σ) (copied : Except ConvertError Unit) {copy : Record} {e : AccessError}
    (he : (copy.redact S).1 = .error e) :
    (c.complete S direction options audit copied copy).result =
      copied.bind fun _ => .error (.access e) := by
  rw [complete, if_pos h]
  generalize copy.redact S = redaction at he ⊢
  obtain ⟨redacted, left⟩ := redaction
  dsimp only at he
  subst he
  cases copied <;> rfl

variable (S c)

/-- **What a call with redaction in effect leaves readable**, whatever the records are and whatever
became of the copy, of the redaction itself and of the rules. Up to some field every sensitive
scalar is absent or redacted. That is the end of the record, unless the redaction of that field
failed. In this case the call fails too, for that reason if the copy did not fail before. -/
theorem call_redacts (src dst : Record) (direction : Direction) (options : CallOptions)
    (audit : Audit σ) (h : c.settings.redactsUnder options = true) :
    let copied := (c.tier.convert S (some src) (some dst) direction c.store).1.1
    let call := (c.call S (some src) (some dst) direction options audit).1
    ∃ left stop, call.target = some left ∧ left.ScalarsRedactedTo S stop ∧
      (stop = (left.decl S).fields.length ∨
        ∃ f cell e, (left.decl S).fields[stop]? = some f ∧ left.cells[stop]? = some cell ∧
          Redaction.step S left.type f cell = .error e ∧
          call.result = copied.bind fun _ => .error (.access e)) := by
  intro copied call
  obtain ⟨copy, -, hcall⟩ := call_eq_complete S c src dst direction options audit
  have htarget : call.target = some (copy.redact S).2 := by
    rw [← target_complete h direction audit copied copy]
    exact congrArg Call.target hcall
  rcases copy.redact_cases S with ⟨-, -, hall⟩ | ⟨stop, f, cell, e, hf, hcell, hfail, he, hsome⟩
  · exact ⟨_, _, htarget, hall, .inl rfl⟩
  · refine ⟨_, stop, htarget, hsome, .inr ⟨f, cell, e, hf, hcell, hfail, ?_⟩⟩
    rw [← result_complete h direction audit copied he]
    exact congrArg Call.result hcall

end Converter

/-! ### A password and a field that cannot be written -/

namespace Logins

/-- A sensitive field that can only be read, in records of a type. -/
def sealedIn (type : TypeId) : FieldDecl where
  name := "sealed"
  kind := .scalar .string false
  sensitive := true
  access := .closed true fun v => .rejected type "sealed" (.scalar .string false) v.shapeName

/-- A message with a password, and two models that have such a field besides. In the one it comes
before the password, in the other one after it. -/
def decls : List TypeDecl :=
  [⟨"LoginMessage", [⟨"password", .scalar .string false, false, .declared⟩]⟩,
   ⟨"Login", [
      sealedIn ⟨1⟩,
      ⟨"password", .scalar .string false, true, .declared⟩]⟩,
   ⟨"Badge", [
      ⟨"password", .scalar .string false, true, .declared⟩,
      sealedIn ⟨2⟩]⟩]

theorem isSome_ofDecls? : (Schema.ofDecls? decls fun _ => .bool true).isSome = true := by decide

def schema : Schema := (Schema.ofDecls? decls fun _ => .bool true).get isSome_ofDecls?

/-- A converter into one of the models, which redacts and checks no rules. -/
def converter (model : TypeId) : Converter Unit := .new ⟨0⟩ model ⟨.basic, true, .none⟩

def message : Record := ⟨⟨0⟩, [.string "hunter2"]⟩

end Logins

/-- The redaction of a badge gets past the password and stops after it, and the call fails for
that. -/
theorem Converter.call_redacts_badge :
    let call := ((Logins.converter ⟨2⟩).call Logins.schema (some Logins.message)
      (some (.initial Logins.schema ⟨2⟩)) .toModel .none ⟨(), []⟩).1
    (Logins.converter ⟨2⟩).settings.redactsUnder .none = true ∧
      ∃ left e, call.target = some left ∧ left.ScalarsRedactedTo Logins.schema 1 ∧
        left.get? Logins.schema 0 = some (Redaction.scalar .string) ∧
        call.result = .error (.access e) := by
  intro call
  have hredacts : (Logins.converter ⟨2⟩).settings.redactsUnder .none = true := rfl
  obtain ⟨left, stop, hleft, hredacted, hstop⟩ := call_redacts Logins.schema (Logins.converter ⟨2⟩)
    Logins.message (.initial Logins.schema ⟨2⟩) .toModel .none ⟨(), []⟩ hredacts
  obtain rfl : (⟨⟨2⟩, [Redaction.scalar .string, .bool true]⟩ : Record) = left :=
    Option.some.inj hleft
  -- what is sealed was not redacted, so the redaction has not come past it
  have hle : stop ≤ 1 := by
    refine Nat.le_of_not_lt fun hlt => ?_
    rcases hredacted 1 hlt _ _ _ _ rfl (Access.faithful_closed _ _) rfl rfl rfl with h | h <;>
      cases h
  rcases hstop with rfl | ⟨f, cell, e, hf, hcell, hfail, hresult⟩
  · exact absurd hle (by decide)
  · obtain _ | _ | stop := stop
    · cases hf
      cases hcell
      cases hfail
    · exact ⟨hredacts, _, e, hleft, hredacted, rfl, hresult⟩
    · exact absurd hle (by omega)

/-- The password of a login would take what redaction puts in its place, and is still there. -/
theorem Converter.call_leaves_password :
    let call := ((Logins.converter ⟨1⟩).call Logins.schema (some Logins.message)
      (some (.initial Logins.schema ⟨1⟩)) .toModel .none ⟨(), []⟩).1
    (Logins.converter ⟨1⟩).settings.redactsUnder .none = true ∧
      ∃ left, call.target = some left ∧
        left.getByName? Logins.schema "password" = some (.string "hunter2") ∧
        ∃ r, left.setByName Logins.schema "password" (Redaction.scalar .string) = .ok r :=
  ⟨rfl, _, rfl, rfl, _, rfl⟩

end Crosswalk
