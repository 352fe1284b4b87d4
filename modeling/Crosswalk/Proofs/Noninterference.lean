import Crosswalk.Proofs.OrdinaryRedaction
import Crosswalk.Proofs.Sameness

/-!
# Redaction hides secrets

A redacted record may be shown to somebody who must not learn the secrets in it. That nothing can be
learned is a statement about two records: if they differ in secrets only, then they cannot be told
apart after redaction (`Record.redact_noninterference`).

To differ in secrets only is `Record.AgreesOpenly`. What is open in a record are its scalars and
lists of scalars that are not sensitive, the presence of nested records and the length of lists of
records in fields that are not sensitive, and the open part of these records in turn. Of sensitive
fields it is open whether an optional scalar is there, and how long a list of scalars is. Nothing is
open of a sensitive nested record or list of records, not even whether it is there. A field that
cannot be copied is passed over by redaction, sensitive or not, and has to agree as well. In
ordinary records there is nothing to be read from it.

The relation has a parameter, the relation by which open values agree. There are two that matter,
equality and sameness, by which zeros of either sign are one value. Redacted records are related in
the way in which the open parts were (`Value.Likeness`).
-/

namespace Crosswalk

/-- A relation in which every value is to itself, and lists and records are when their parts are. -/
structure Value.Likeness (R : Value → Value → Prop) : Prop where
  refl : ∀ v, R v v
  list : ∀ {as bs}, List.Forall₂ R as bs → R (.list as) (.list bs)
  record : ∀ (type : TypeId) {as bs}, List.Forall₂ R as bs → R (.record type as) (.record type bs)

theorem Value.likeness_eq : Value.Likeness Eq where
  refl _ := rfl
  list h := congrArg Value.list (List.forall₂_eq_eq_eq ▸ h)
  record type _ _ h := congrArg (Value.record type) (List.forall₂_eq_eq_eq ▸ h)

theorem Value.likeness_same (S : Schema) : Value.Likeness fun v w => v.same S w = true where
  refl := same_refl S
  list := same_list
  record type _ _ := same_record type

/-! ### Differing in secrets only -/

mutual

/-- The records are of one type and differ in secrets only. -/
inductive Record.AgreesOpenly (S : Schema) (R : Value → Value → Prop) : Record → Record → Prop
  | intro {a b} (htype : a.type = b.type)
      (h : ∀ (index : Nat) f v w, (a.decl S).fields[index]? = some f → a.cells[index]? = some v →
        b.cells[index]? = some w → FieldDecl.AgreesAt S R f v w) :
      Record.AgreesOpenly S R a b

/-- What two records hold in a field agrees as far as it is open. -/
inductive FieldDecl.AgreesAt (S : Schema) (R : Value → Value → Prop) :
    FieldDecl → Value → Value → Prop
  /-- Scalars and lists of scalars that anyone may see. -/
  | plain {f v w} (hopen : f.sensitive = false) (hkind : f.kind.nestedType? = none) (h : R v w) :
      FieldDecl.AgreesAt S R f v w
  /-- No nested record on either side. -/
  | absent {f} (hopen : f.sensitive = false) : FieldDecl.AgreesAt S R f .null .null
  | nested {f a b t optional} (hopen : f.sensitive = false) (hkind : f.kind = .nested t optional)
      (h : Record.AgreesOpenly S R a b) : FieldDecl.AgreesAt S R f a.toValue b.toValue
  | nestedList {f as bs t} (hopen : f.sensitive = false) (hkind : f.kind = .nestedList t)
      (h : List.Forall₂ (Record.AgreesOpenly S R) as bs) :
      FieldDecl.AgreesAt S R f (.list (as.map (·.toValue))) (.list (bs.map (·.toValue)))
  /-- Secret scalars are present or absent together. -/
  | secretScalar {f v w k optional} (hsecret : f.sensitive = true)
      (hkind : f.kind = .scalar k optional) (h : v = .null ↔ w = .null) :
      FieldDecl.AgreesAt S R f v w
  /-- Lists of secret scalars are of one length. -/
  | secretList {f vs ws k} (hsecret : f.sensitive = true) (hkind : f.kind = .scalarList k)
      (h : vs.length = ws.length) : FieldDecl.AgreesAt S R f (.list vs) (.list ws)
  /-- Secret records may be anything. -/
  | secretNested {f v w t} (hsecret : f.sensitive = true) (hkind : f.kind.nestedType? = some t) :
      FieldDecl.AgreesAt S R f v w
  | unsupported {f v w what} (hkind : f.kind = .unsupported what) (h : R v w) :
      FieldDecl.AgreesAt S R f v w

end

/-! ### One field -/

theorem Value.fits_toValue_nested {S : Schema} {r : Record} {t : TypeId} {optional : Bool} :
    r.toValue.fits S (.nested t optional) = true ↔ r.type = t ∧ r.fits S = true := by
  simp [Record.toValue, Record.fitsWhere, fitsWhere]

theorem Value.fits_toValue_nestedList {S : Schema} {rs : List Record} {t : TypeId} :
    (Value.list (rs.map (·.toValue))).fits S (.nestedList t) = true ↔
      ∀ r ∈ rs, r.type = t ∧ r.fits S = true := by
  rw [fits_nestedList]
  constructor
  · rintro ⟨rs', hrs, h⟩
    rwa [Record.map_toValue_injective (Value.list.inj hrs)]
  · exact fun h => ⟨rs, rfl, h⟩

namespace Redaction

variable {S : Schema} {R : Value → Value → Prop} {f : FieldDecl} {v w : Value}

theorem coveredOpen_of_flat {kind : FieldKind} (hkind : kind.nestedType? = none) (v : Value) :
    coveredOpen S kind v = v := by
  cases kind with
  | nested t optional => cases hkind
  | nestedList t => cases hkind
  | _ => rfl

theorem covered_unsupported {what : UnsupportedKind} (hkind : f.kind = .unsupported what)
    (v : Value) : covered S f v = v := by
  rw [covered, hkind]
  split
  · cases v <;> rfl
  · rfl

/-- All that fits a sensitive field of records is cleared to one value. -/
theorem exists_cleared (S : Schema) {kind : FieldKind} {t : TypeId}
    (hkind : kind.nestedType? = some t) :
    ∃ cleared, ∀ v : Value, v.fits S kind = true → coveredSecret S kind v = cleared := by
  cases kind with
  | nested u optional =>
    cases optional with
    | true =>
      refine ⟨.null, fun v hv => ?_⟩
      rcases Value.fits_nested.mp hv with ⟨-, rfl⟩ | ⟨r, rfl, -, -⟩ <;> rfl
    | false =>
      refine ⟨.record u (S.initialCells u), fun v hv => ?_⟩
      rcases Value.fits_nested.mp hv with ⟨h, -⟩ | ⟨r, rfl, -, -⟩
      · cases h
      · rfl
  | nestedList u =>
    refine ⟨.list [], fun v hv => ?_⟩
    obtain ⟨rs, rfl, -⟩ := Value.fits_nestedList.mp hv
    rfl
  | _ => cases hkind

/-- **Redaction of a field leaves what was alike in the open alike altogether**, if it does so to
the records in the field. -/
theorem covered_like (hR : Value.Likeness R) (h : f.AgreesAt S R v w)
    (hv : v.fits S f.kind = true) (hw : w.fits S f.kind = true)
    (hinner : ∀ a b, v.Holds a → f.kind.nestedType? = some a.type → a.fits S = true →
      b.fits S = true → a.AgreesOpenly S R b →
      R (a.redact S).2.toValue (b.redact S).2.toValue) :
    R (covered S f v) (covered S f w) := by
  cases h with
  | plain hopen hkind h =>
    rw [covered_of_open hopen, covered_of_open hopen, coveredOpen_of_flat hkind,
      coveredOpen_of_flat hkind]
    exact h
  | absent hopen => exact hR.refl _
  | @nested _ a b t optional hopen hkind h =>
    rw [covered_of_open hopen, covered_of_open hopen]
    rw [hkind] at hv hw hinner ⊢
    obtain ⟨rfl, ha⟩ := Value.fits_toValue_nested.mp hv
    obtain ⟨-, hb⟩ := Value.fits_toValue_nested.mp hw
    exact hinner a b (Value.holds_self a) rfl ha hb h
  | @nestedList _ as bs t hopen hkind h =>
    rw [covered_of_open hopen, covered_of_open hopen]
    rw [hkind] at hv hw hinner ⊢
    have has := Value.fits_toValue_nestedList.mp hv
    have hbs := Value.fits_toValue_nestedList.mp hw
    refine hR.list ?_
    rw [List.map_map, List.map_map, List.forall₂_map_left_iff, List.forall₂_map_right_iff]
    obtain ⟨hlength, hget⟩ := List.forall₂_iff_get.mp h
    refine List.forall₂_iff_get.mpr ⟨hlength, fun i hi hi' => ?_⟩
    have hmem := List.get_mem as ⟨i, hi⟩
    obtain ⟨htype, ha⟩ := has _ hmem
    obtain ⟨-, hb⟩ := hbs _ (List.get_mem bs ⟨i, hi'⟩)
    have hholds := Value.holds_item (List.mem_map_of_mem hmem (f := (·.toValue)))
    exact hinner _ _ hholds (congrArg some htype.symm) ha hb (hget i hi hi')
  | @secretScalar _ _ _ k optional hsecret hkind h =>
    rw [covered_of_sensitive hsecret, covered_of_sensitive hsecret, hkind]
    by_cases hnull : v = .null
    · rw [h.mp hnull, hnull]
      exact hR.refl _
    · rw [coveredSecret_scalar k optional hnull, coveredSecret_scalar k optional (mt h.mpr hnull)]
      exact hR.refl _
  | @secretList _ vs ws k hsecret hkind h =>
    rw [covered_of_sensitive hsecret, covered_of_sensitive hsecret, hkind]
    have hreplaced : vs.map (fun _ => scalar k) = ws.map fun _ => scalar k := by
      rw [List.map_const', List.map_const', h]
    rw [coveredSecret, coveredSecret, hreplaced]
    exact hR.refl _
  | secretNested hsecret hkind =>
    obtain ⟨cleared, hcleared⟩ := exists_cleared S hkind
    rw [covered_of_sensitive hsecret, covered_of_sensitive hsecret, hcleared v hv, hcleared w hw]
    exact hR.refl _
  | unsupported hkind h =>
    rw [covered_unsupported hkind, covered_unsupported hkind]
    exact h

/-- Fields that are alike after redaction make up records that are. -/
theorem forall₂_covered {fields : List FieldDecl} {vs ws : List Value}
    (hvs : vs.length = fields.length) (hws : ws.length = fields.length)
    (h : ∀ (index : Nat) f v w, fields[index]? = some f → vs[index]? = some v →
      ws[index]? = some w → R (covered S f v) (covered S f w)) :
    List.Forall₂ R (List.zipWith (covered S) fields vs) (List.zipWith (covered S) fields ws) := by
  refine List.forall₂_iff_get.mpr ⟨by simp [hvs, hws], fun i hi hi' => ?_⟩
  rw [List.length_zipWith] at hi hi'
  simp only [List.get_eq_getElem, List.getElem_zipWith]
  refine h i _ _ _ ?_ ?_ ?_ <;> exact List.getElem?_eq_getElem _

end Redaction

/-! ### Records -/

/-- **Redaction leaves records that differ in secrets only alike altogether.** -/
theorem Record.redact_like {S : Schema} {R : Value → Value → Prop} (hR : Value.Likeness R)
    {a b : Record} (htype : S.Ordinary a.type) (ha : a.fits S = true) (hb : b.fits S = true)
    (h : a.AgreesOpenly S R b) : R (a.redact S).2.toValue (b.redact S).2.toValue := by
  induction a using Record.nestedInduction generalizing b with
  | step a ih =>
    obtain ⟨hsame, hfields⟩ := h
    obtain ⟨bType, bCells⟩ := b
    obtain rfl : a.type = bType := hsame
    rw [(redact_eq htype ha).2, (redact_eq (r := ⟨a.type, bCells⟩) htype hb).2]
    refine hR.record a.type (Redaction.forall₂_covered (whole_of_fits ha) (whole_of_fits hb)
      fun i f v w hf hv hw => ?_)
    obtain ⟨-, hfit, hordinary⟩ := ordinary_field htype ha hf hv
    obtain ⟨-, hfit', -⟩ := ordinary_field (r := ⟨a.type, bCells⟩) htype hb hf hw
    refine Redaction.covered_like hR (hfields i f v w hf hv hw) hfit hfit'
      fun inner inner' hin hnested hinner hinner' hagree => ?_
    exact ih v (List.mem_of_getElem? hv) inner hin (hordinary inner.type hnested) hinner hinner'
      hagree

/-- **Redaction hides secrets.** The redaction of every record of an ordinary type succeeds. If two
records of the type differ in secrets only then they are equal after it, and if their open parts are
the same, without being equal, then they are the same after it in every field at every depth. -/
theorem Record.redact_noninterference (S : Schema) (t : TypeId) (ht : S.Ordinary t) (a b : Record)
    (ha : a.type = t) (hb : b.type = t) (hfits : a.fits S = true) (hfits' : b.fits S = true) :
    (∃ count, (a.redact S).1 = .ok count) ∧ (∃ count, (b.redact S).1 = .ok count) ∧
      (a.AgreesOpenly S Eq b → (a.redact S).2 = (b.redact S).2) ∧
      (a.AgreesOpenly S (fun v w => v.same S w = true) b →
        (a.redact S).2.same S (b.redact S).2 = true) := by
  rw [← ha] at ht
  have ht' : S.Ordinary b.type := by rwa [hb, ← ha]
  obtain ⟨⟨count, left, hredact, -⟩, -⟩ := redact_eq ht hfits
  obtain ⟨⟨count', left', hredact', -⟩, -⟩ := redact_eq ht' hfits'
  refine ⟨⟨count, by rw [hredact]⟩, ⟨count', by rw [hredact']⟩, fun h => ?_, fun h => ?_⟩
  · exact toValue_injective (redact_like Value.likeness_eq ht hfits hfits' h)
  · exact redact_like (Value.likeness_same S) ht hfits hfits' h

namespace Accounts

/-- Accounts with secrets of every form: a password, a pin that may be absent, codes, a card that is
secret as a whole, and persons with a secret of their own. -/
def decls : List TypeDecl :=
  [⟨"Account", [
      ⟨"balance", .scalar .f64 false, false, .declared⟩,
      ⟨"password", .scalar .string false, true, .declared⟩,
      ⟨"pin", .scalar .i32 true, true, .declared⟩,
      ⟨"codes", .scalarList .string, true, .declared⟩,
      ⟨"card", .nested ⟨1⟩ true, true, .declared⟩,
      ⟨"owner", .nested ⟨2⟩ false, false, .declared⟩,
      ⟨"heirs", .nestedList ⟨2⟩, false, .declared⟩]⟩,
   ⟨"Card", [⟨"number", .scalar .string false, false, .declared⟩]⟩,
   ⟨"Person", [
      ⟨"name", .scalar .string false, false, .declared⟩,
      ⟨"birth", .scalar .timestamp false, true, .declared⟩]⟩]

theorem isSome_ofDecls? : (Schema.ofDecls? decls fun _ => .null).isSome = true := by decide

def schema : Schema := (Schema.ofDecls? decls fun _ => .null).get isSome_ofDecls?

theorem ordinary (t : TypeId) : schema.Ordinary t := by
  have hall : ∀ d ∈ decls, ∀ f ∈ d.fields, f.access = .declared := by decide
  exact fun u _ => Schema.plain_of_ofTables? (Option.some_get isSome_ofDecls?).symm hall u

def person (name : String) (birth : Timestamp) : Record := ⟨⟨2⟩, [.string name, .timestamp birth]⟩

/-- An account of Ada's, with her heir Ben. -/
def account (balance : Binary64) (password : String) (pin : Int32) (code : String) (card : Value)
    (birth : Timestamp) : Record where
  type := ⟨0⟩
  cells := [.f64 balance, .string password, .i32 pin, .list [.string code], card,
    (person "Ada" birth).toValue, .list [(person "Ben" birth).toValue]]

variable {R : Value → Value → Prop}

theorem person_agrees (hR : ∀ v, R v v) (name : String) (birth birth' : Timestamp) :
    (person name birth).AgreesOpenly schema R (person name birth') := by
  refine .intro rfl fun index f v w hf hv hw => ?_
  match index with
  | 0 => cases hf; cases hv; cases hw; exact .plain rfl rfl (hR _)
  | 1 => cases hf; cases hv; cases hw; exact .secretScalar rfl rfl (by simp)
  | n + 2 => cases hf

theorem account_agrees (hR : ∀ v, R v v) {balance balance' : Binary64}
    (h : R (.f64 balance) (.f64 balance')) (password password' : String) (pin pin' : Int32)
    (code code' : String) (card card' : Value) (birth birth' : Timestamp) :
    (account balance password pin code card birth).AgreesOpenly schema R
      (account balance' password' pin' code' card' birth') := by
  refine .intro rfl fun index f v w hf hv hw => ?_
  match index with
  | 0 => cases hf; cases hv; cases hw; exact .plain rfl rfl h
  | 1 | 2 => cases hf; cases hv; cases hw; exact .secretScalar rfl rfl (by simp)
  | 3 => cases hf; cases hv; cases hw; exact .secretList rfl rfl rfl
  | 4 => cases hf; cases hv; cases hw; exact .secretNested rfl rfl
  | 5 => cases hf; cases hv; cases hw; exact .nested rfl rfl (person_agrees hR _ _ _)
  | 6 =>
    cases hf; cases hv; cases hw
    have hheirs : List.Forall₂ (Record.AgreesOpenly schema R) [person "Ben" birth]
        [person "Ben" birth'] := .cons (person_agrees hR _ _ _) .nil
    exact .nestedList rfl rfl hheirs
  | n + 7 => cases hf

end Accounts

/-- Two accounts with nothing secret in common are equal after redaction. A third one, with a zero
of the other sign for its balance, is the same. -/
theorem Record.redact_noninterference_accounts :
    let card : Value := .record ⟨1⟩ [.string "4711"]
    let a := Accounts.account .zero "hunter2" 1234 "blue" card ⟨5, 7⟩
    let b := Accounts.account .zero "swordfish" 0 "red" .null ⟨-86400, 0⟩
    let c := Accounts.account ⟨0x8000000000000000⟩ "" (-1) "" .null ⟨0, 0⟩
    (a.fits Accounts.schema = true ∧ b.fits Accounts.schema = true ∧
      c.fits Accounts.schema = true) ∧
      (∃ count, (a.redact Accounts.schema).1 = .ok count) ∧
      (a.redact Accounts.schema).2 = (b.redact Accounts.schema).2 ∧
      (a.redact Accounts.schema).2.same Accounts.schema (c.redact Accounts.schema).2 = true := by
  intro card a b c
  have hfits : a.fits Accounts.schema = true ∧ b.fits Accounts.schema = true ∧
      c.fits Accounts.schema = true := by decide
  obtain ⟨ha, hb, hc⟩ := hfits
  have hab := redact_noninterference Accounts.schema ⟨0⟩ (Accounts.ordinary ⟨0⟩) a b rfl rfl ha hb
  have hac := redact_noninterference Accounts.schema ⟨0⟩ (Accounts.ordinary ⟨0⟩) a c rfl rfl ha hc
  refine ⟨⟨ha, hb, hc⟩, hab.1, hab.2.2.1 ?_, hac.2.2.2 ?_⟩
  · exact Accounts.account_agrees Eq.refl rfl _ _ _ _ _ _ _ _ _ _
  · exact Accounts.account_agrees (Value.same_refl _) (by decide) _ _ _ _ _ _ _ _ _ _

end Crosswalk
