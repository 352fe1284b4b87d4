import Crosswalk.Proofs.RedactionDepth

/-!
# What a redaction conceals

`Redaction.Conceals` says what may be read in a sensitive field once its content is gone: nothing,
what stands in place of a secret, a list of that, or the record or list that a field starts with.

The fields of hand-made records may hold anything, whatever their kind. A sensitive field for a
scalar is redacted all the same, and one for a record, or for a list of records, is cleared. A field
for a list of scalars is only redacted if it holds a list. Anything else in it strays there, is
passed over, and can be read afterwards as before. `Record.redact_conceals` says that these are the
only secrets that a redaction leaves if it succeeds, in the record or in any that it goes into. Such
fields have to hold what they have taken, or there would be nothing to say about what they hold.
-/

namespace Crosswalk

/-- Whether the field is for a list of scalars, and the value is there but is no list. -/
def FieldKind.isStray : FieldKind → Value → Bool
  | .scalarList _, .null | .scalarList _, .list _ => false
  | .scalarList _, _ => true
  | _, _ => false

namespace Redaction

/-- The value gives away no more of a sensitive field of the kind than whether it held anything, and
how many scalars if it held a list of them. -/
inductive Conceals (S : Schema) : FieldKind → Value → Prop
  | absent (kind : FieldKind) : Conceals S kind .null
  | scalar (k : ScalarKind) (optional : Bool) :
    Conceals S (.scalar k optional) (Redaction.scalar k)
  | scalarList (k : ScalarKind) (length : Nat) :
    Conceals S (.scalarList k) (.list (List.replicate length (Redaction.scalar k)))
  | initial (t : TypeId) : Conceals S (.nested t false) (Record.initial S t).toValue
  | emptyList (t : TypeId) : Conceals S (.nestedList t) (.list [])

variable {S : Schema} {type : TypeId} {f : FieldDecl} {v new : Value} {count : Nat}

theorem not_conceals_of_isStray {kind : FieldKind} (h : kind.isStray v = true) :
    ¬ Conceals S kind v := by
  rintro (_ | _)
  · cases kind <;> cases h
  all_goals cases h

/-! ### One field -/

theorem step_secretList (hkeeps : f.access.Faithful) {k : ScalarKind} (hread : f.readable = true)
    (hf : f.sensitive = true) (hk : f.kind = .scalarList k)
    (h : step S type f v = .ok (count, new)) :
    if f.kind.isStray v then new = v else Conceals S f.kind new := by
  rw [step_eq_ok_iff hread, replacement_of_sensitive hf] at h
  rw [hk] at h ⊢
  cases v with
  | null =>
    rcases h with ⟨-, -, rfl⟩ | ⟨w, _, hw, -⟩
    · exact .absent _
    · cases hw
  | list items =>
    rcases h with ⟨hnone, -⟩ | ⟨w, change, hw, hwrite, rfl⟩
    · cases hnone
    · cases hw
      rw [FieldDecl.eq_of_write hkeeps (by simp) hwrite, List.map_const']
      exact .scalarList k items.length
  | _ =>
    rcases h with ⟨-, -, rfl⟩ | ⟨w, _, hw, -⟩
    · rfl
    · cases hw

/-- A field for records that has taken an absent value is cleared. -/
theorem conceals_of_write_null (hkeeps : f.access.Faithful) {t : TypeId}
    (hk : f.kind.nestedType? = some t) {change : Value → Value}
    (h : f.write S type .null = .ok change) (old : Value) : Conceals S f.kind (change old) := by
  obtain ⟨name, kind, sensitive, access⟩ := f
  dsimp only at hk ⊢
  cases access with
  | declared =>
    cases kind with
    | nested u optional =>
      cases optional <;> cases h
      · exact .initial u
      · exact .absent _
    | nestedList u =>
      cases h
      exact .emptyList u
    | _ => cases hk
  | handmade readable take =>
    rw [hkeeps .null change h old]
    exact .absent kind

theorem step_secretNested (hkeeps : f.access.Faithful) {t : TypeId} (hread : f.readable = true)
    (hf : f.sensitive = true) (hk : f.kind.nestedType? = some t)
    (h : step S type f v = .ok (count, new)) : Conceals S f.kind new := by
  have hcleared (hv : v ≠ .null) : ofSensitive f.kind v = some (1, .null) := by
    cases hkind : f.kind <;> rw [hkind] at hk <;> cases hk
    all_goals cases v <;> first | rfl | exact absurd rfl hv
  rw [step_eq_ok_iff hread, replacement_of_sensitive hf] at h
  by_cases hv : v = .null
  · subst hv
    rcases h with ⟨-, -, rfl⟩ | ⟨w, _, hw, -⟩
    · exact .absent _
    · cases hw
  · rw [hcleared hv] at h
    rcases h with ⟨hnone, -⟩ | ⟨w, change, hw, hwrite, rfl⟩
    · cases hnone
    · cases hw
      exact conceals_of_write_null hkeeps hk hwrite v

/-- **The step of a sensitive field** conceals what is in it, or passes over what strayed there. -/
theorem step_secret (hkeeps : f.access.Faithful) (hread : f.readable = true)
    (hf : f.sensitive = true) (hk : f.kind.unsupported? = none)
    (h : step S type f v = .ok (count, new)) :
    if f.kind.isStray v then new = v else Conceals S f.kind new := by
  cases hkind : f.kind with
  | scalar k optional =>
    rcases step_secretScalar hkeeps hf hkind hread h with rfl | rfl
    · exact .absent _
    · exact .scalar k optional
  | scalarList k =>
    rw [← hkind]
    exact step_secretList hkeeps hread hf hkind h
  | nested t optional =>
    have hconceals := step_secretNested hkeeps hread hf (congrArg FieldKind.nestedType? hkind) h
    rwa [hkind] at hconceals
  | nestedList t =>
    have hconceals := step_secretNested hkeeps hread hf (congrArg FieldKind.nestedType? hkind) h
    rwa [hkind] at hconceals
  | unsupported what =>
    rw [hkind] at hk
    cases hk

end Redaction

/-! ### Records -/

/-- **What a redaction conceals**, if it succeeds, in any record whatever, as long as fields made by
hand hold what they have taken. Every way through fields that are not sensitive leads to a record
afterwards if and only if it led to one before, and to the redaction of that. There every sensitive
field that can be read, and is not impossible to copy, conceals what it held, with one exception,
which is exactly this: something has strayed into a field for a list of scalars. That is still
there. -/
theorem Record.redact_conceals (S : Schema) {r left : Record} {count : Nat}
    (hr : r.Faithful S) (h : r.redact S = (.ok count, left)) (way : List Entry) :
    left.follow? S way = (r.follow? S way).map (fun inner => (inner.redact S).2) ∧
      ∀ before after, r.follow? S way = some before → left.follow? S way = some after →
        ∀ (index : Nat) f w, (after.decl S).fields[index]? = some f → f.sensitive = true →
          f.kind.unsupported? = none → after.get? S index = some w →
          ∃ v, before.get? S index = some v ∧
            (Redaction.Conceals S f.kind w ↔ f.kind.isStray v = false) ∧
            (f.kind.isStray v = true → w = v) := by
  have hok : (r.redact S).1 = .ok count := congrArg Prod.fst h
  obtain rfl : (r.redact S).2 = left := congrArg Prod.snd h
  obtain ⟨hfollow, hredacts⟩ := follow?_redact hr hok way
  refine ⟨hfollow, fun before after hbefore hafter index f w hf hsecret hkind hw => ?_⟩
  obtain ⟨here, hhere⟩ := hredacts before hbefore
  rw [hfollow, hbefore] at hafter
  cases hafter
  rcases get?_redact hhere index with ⟨-, hnone⟩ | ⟨g, v, w', _, hg, hread, hv, hw', hstep⟩
  · cases hw.symm.trans hnone
  · cases hf.symm.trans hg
    cases hw.symm.trans hw'
    refine ⟨v, hv, ?_⟩
    have hfield : f.access.Faithful := hr way before hbefore f (List.mem_of_getElem? hf)
    have hsecret := Redaction.step_secret hfield hread hsecret hkind hstep
    cases hstray : f.kind.isStray v with
    | true =>
      rw [hstray] at hsecret
      obtain rfl : w = v := hsecret
      simpa using Redaction.not_conceals_of_isStray hstray
    | false =>
      rw [hstray] at hsecret
      simpa using hsecret

namespace Files

/-- Hand-made files, with secret codes, and the persons they belong to. -/
def decls : List TypeDecl :=
  [⟨"File", [
      ⟨"codes", .scalarList .string, true, .loose⟩,
      ⟨"owner", .nested ⟨1⟩ true, false, .loose⟩]⟩,
   ⟨"Person", [⟨"pin", .scalar .i32 true, true, .declared⟩]⟩]

theorem isSome_ofDecls? : (Schema.ofDecls? decls fun _ => .null).isSome = true := by decide

def schema : Schema := (Schema.ofDecls? decls fun _ => .null).get isSome_ofDecls?

/-- A file takes anything and holds it. -/
theorem faithful (r : Record) : r.Faithful schema := by
  intro way inner _
  refine Schema.forall_fields_of_ofTables? (Option.some_get isSome_ofDecls?).symm ?_ inner.type
  simp [decls]

def file (codes owner : Value) : Record := ⟨⟨0⟩, [codes, owner]⟩

end Files

/-- The pin of a file's owner is concealed, and so are the codes of a file with a list of them. -/
theorem Record.redact_conceals_file :
    let r := Files.file (.list [.string "4711", .string "4712"]) (.record ⟨1⟩ [.i32 1234])
    ∃ left, r.redact Files.schema = (.ok 3, left) ∧
      (∀ w, left.get? Files.schema 0 = some w →
        Redaction.Conceals Files.schema (.scalarList .string) w) ∧
      ∃ owner, left.follow? Files.schema [⟨1, none⟩] = some owner ∧
        ∀ w, owner.get? Files.schema 0 = some w →
          Redaction.Conceals Files.schema (.scalar .i32 true) w := by
  intro r
  have hredact : r.redact Files.schema = (.ok 3, (r.redact Files.schema).2) := rfl
  obtain ⟨-, htop⟩ := redact_conceals Files.schema (Files.faithful r) hredact []
  obtain ⟨-, hinner⟩ := redact_conceals Files.schema (Files.faithful r) hredact [⟨1, none⟩]
  refine ⟨_, hredact, fun w hw => ?_, _, rfl, fun w hw => ?_⟩
  · obtain ⟨v, hv, hconceals, -⟩ := htop r _ rfl rfl 0 _ w rfl rfl rfl hw
    cases hv
    exact hconceals.mpr rfl
  · obtain ⟨v, -, hconceals, -⟩ := hinner ⟨⟨1⟩, [.i32 1234]⟩ _ rfl rfl 0 _ w rfl rfl rfl hw
    exact hconceals.mpr rfl

/-- A code that stands in a file where a list should be is there after a redaction that succeeds. -/
theorem Record.redact_leaves_code :
    let r := Files.file (.string "4711") .null
    r.redact Files.schema = (.ok 0, r) ∧
      ∃ f, (r.decl Files.schema).fields[0]? = some f ∧ f.sensitive = true ∧
        f.kind.unsupported? = none ∧ r.get? Files.schema 0 = some (.string "4711") ∧
        ¬ Redaction.Conceals Files.schema f.kind (.string "4711") :=
  ⟨rfl, _, rfl, rfl, rfl, rfl, Redaction.not_conceals_of_isStray rfl⟩

end Crosswalk
