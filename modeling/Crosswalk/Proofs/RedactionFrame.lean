import Crosswalk.Proofs.Noninterference
import Crosswalk.Proofs.RedactionDepth
import Crosswalk.Proofs.WritingBack

/-!
# What a redaction leaves alone

For records of ordinary types, whose fields hold what their kinds say. Redaction replaces secrets
and nothing else: `FieldDecl.Keeps` is what it leaves of a field, and it leaves that at every depth.
It is done once and for all. A second redaction counts what it replaces again, but finds nothing to
change.
-/

namespace Crosswalk

/-- A field that held the first value and now holds the second still has what redaction is to leave
alone: all of it if it cannot be copied, or if it is not sensitive and for scalars. Of records that
are not sensitive, their presence and number is left. -/
def FieldDecl.Keeps (f : FieldDecl) (v w : Value) : Prop :=
  match f.kind with
  | .scalar .. | .scalarList _ => f.sensitive = false → w = v
  | .nested .. => f.sensitive = false → (w = .null ↔ v = .null)
  | .nestedList _ =>
    f.sensitive = false → ∃ vs ws, v = .list vs ∧ w = .list ws ∧ ws.length = vs.length
  | .unsupported _ => w = v

namespace Redaction

variable {S : Schema} {f : FieldDecl} {kind : FieldKind} {v : Value}

/-! ### One field -/

theorem covered_keeps (hv : v.fits S f.kind = true) : f.Keeps v (covered S f v) := by
  rw [FieldDecl.Keeps]
  cases hk : f.kind with
  | scalar k optional | scalarList k =>
    intro hopen
    rw [covered_of_open hopen, coveredOpen_of_flat (by rw [hk]; rfl)]
  | nested t optional =>
    intro hopen
    rw [covered_of_open hopen, hk]
    cases v <;> simp [coveredOpen, Value.redacted, Record.toValue]
  | nestedList t =>
    intro hopen
    rw [hk] at hv
    obtain ⟨rs, rfl, -⟩ := Value.fits_nestedList.mp hv
    rw [covered_of_open hopen, hk]
    exact ⟨_, _, rfl, rfl, List.length_map _⟩
  | unsupported what => exact covered_unsupported hk v

theorem coveredSecret_fits (hv : v.fits S kind = true)
    (hordinary : ∀ t, kind.nestedType? = some t → S.Ordinary t) :
    (coveredSecret S kind v).fits S kind = true := by
  cases kind with
  | scalar k optional =>
    by_cases hnull : v = .null
    · subst hnull
      exact hv
    · rw [coveredSecret_scalar k optional hnull]
      exact Value.fits_scalar.mpr (.inl (scalarKind?_scalar k))
  | scalarList k =>
    obtain ⟨items, rfl, -⟩ := Value.fits_scalarList.mp hv
    refine Value.fits_scalarList.mpr ⟨_, rfl, fun w hw => ?_⟩
    obtain ⟨-, -, rfl⟩ := List.mem_map.mp hw
    exact scalarKind?_scalar k
  | nested t optional =>
    rcases Value.fits_nested.mp hv with ⟨-, rfl⟩ | ⟨r, rfl, -, -⟩
    · exact hv
    · refine Value.fits_nested.mpr ?_
      cases optional with
      | true => exact .inl ⟨rfl, rfl⟩
      | false => exact .inr ⟨.initial S t, rfl, rfl, Record.initial_fits (hordinary t rfl)⟩
  | nestedList t =>
    obtain ⟨rs, rfl, -⟩ := Value.fits_nestedList.mp hv
    exact Value.fits_nestedList.mpr ⟨[], rfl, by simp⟩
  | unsupported what => exact Value.fits_unsupported what _

theorem coveredSecret_idempotent (hv : v.fits S kind = true) :
    coveredSecret S kind (coveredSecret S kind v) = coveredSecret S kind v := by
  cases kind with
  | scalar k optional =>
    by_cases hnull : v = .null
    · subst hnull
      rfl
    · have hscalar : scalar k ≠ .null := by cases k <;> simp [scalar, Value.zero]
      rw [coveredSecret_scalar k optional hnull, coveredSecret_scalar k optional hscalar]
  | scalarList k =>
    obtain ⟨items, rfl, -⟩ := Value.fits_scalarList.mp hv
    simp [coveredSecret]
  | nested t optional =>
    rcases Value.fits_nested.mp hv with ⟨-, rfl⟩ | ⟨r, rfl, -, -⟩
    · rfl
    · cases optional <;> rfl
  | nestedList t =>
    obtain ⟨rs, rfl, -⟩ := Value.fits_nestedList.mp hv
    rfl
  | unsupported what => cases v <;> rfl

/-- The record that is left fits its type, and its redaction leaves it alone. -/
def Settles (S : Schema) (r : Record) : Prop :=
  (r.redact S).2.fits S = true ∧ ((r.redact S).2.redact S).2 = (r.redact S).2

theorem coveredOpen_records (S : Schema) (t : TypeId) (rs : List Record) :
    coveredOpen S (.nestedList t) (.list (rs.map (·.toValue))) =
      .list ((rs.map fun r => (r.redact S).2).map (·.toValue)) := by
  rw [coveredOpen, List.map_map, List.map_map]
  rfl

theorem coveredOpen_settles (hv : v.fits S kind = true)
    (hinner : ∀ r, v.Holds r → kind.nestedType? = some r.type → r.fits S = true → Settles S r) :
    (coveredOpen S kind v).fits S kind = true ∧
      coveredOpen S kind (coveredOpen S kind v) = coveredOpen S kind v := by
  cases kind with
  | nested t optional =>
    rcases Value.fits_nested.mp hv with ⟨-, rfl⟩ | ⟨r, rfl, rfl, hr⟩
    · exact ⟨hv, rfl⟩
    · obtain ⟨hfits, hsame⟩ := hinner r (Value.holds_self r) rfl hr
      exact ⟨Value.fits_toValue_nested.mpr ⟨rfl, hfits⟩, congrArg Record.toValue hsame⟩
  | nestedList t =>
    obtain ⟨rs, rfl, hrs⟩ := Value.fits_nestedList.mp hv
    have hsettles : ∀ r ∈ rs, Settles S r := by
      intro r hr
      obtain ⟨rfl, hfits⟩ := hrs r hr
      exact hinner r (Value.holds_item (List.mem_map_of_mem hr)) rfl hfits
    have hagain : (rs.map fun r => (r.redact S).2).map (fun r => (r.redact S).2) =
        rs.map fun r => (r.redact S).2 := by
      rw [List.map_map]
      exact List.map_congr_left fun r hr => (hsettles r hr).2
    rw [coveredOpen_records, coveredOpen_records, hagain]
    refine ⟨Value.fits_toValue_nestedList.mpr fun left hmem => ?_, rfl⟩
    obtain ⟨r, hr, rfl⟩ := List.mem_map.mp hmem
    exact ⟨(hrs r hr).1, (hsettles r hr).1⟩
  | _ => exact ⟨hv, rfl⟩

/-- **What a field holds after redaction** fits the field, and stays as it is from then on. -/
theorem covered_settles (hv : v.fits S f.kind = true)
    (hordinary : ∀ t, f.kind.nestedType? = some t → S.Ordinary t)
    (hinner : ∀ r, v.Holds r → f.kind.nestedType? = some r.type → r.fits S = true →
      Settles S r) :
    (covered S f v).fits S f.kind = true ∧ covered S f (covered S f v) = covered S f v := by
  cases hsecret : f.sensitive with
  | true =>
    rw [covered_of_sensitive hsecret, covered_of_sensitive hsecret]
    exact ⟨coveredSecret_fits hv hordinary, coveredSecret_idempotent hv⟩
  | false =>
    rw [covered_of_open hsecret, covered_of_open hsecret]
    exact coveredOpen_settles hv hinner

end Redaction

/-! ### Records -/

theorem zipWith_eq_right {α β : Type} {g : α → β → β} {as : List α} {bs : List β}
    (hlength : bs.length = as.length)
    (h : ∀ (i : Nat) a b, as[i]? = some a → bs[i]? = some b → g a b = b) :
    List.zipWith g as bs = bs := by
  refine List.ext_getElem (by simp [hlength]) fun i hi hi' => ?_
  rw [List.getElem_zipWith]
  exact h i _ _ (List.getElem?_eq_getElem _) (List.getElem?_eq_getElem _)

namespace Record

variable {S : Schema} {r : Record}

/-- **One redaction is enough.** By induction on the nesting. -/
theorem redact_settles (htype : S.Ordinary r.type) (hfits : r.fits S = true) :
    Redaction.Settles S r := by
  induction r using Record.nestedInduction with
  | step r ih =>
    have hfield (i : Nat) (f : FieldDecl) (v : Value) (hf : (r.decl S).fields[i]? = some f)
        (hv : r.cells[i]? = some v) : (Redaction.covered S f v).fits S f.kind = true ∧
          Redaction.covered S f (Redaction.covered S f v) = Redaction.covered S f v := by
      obtain ⟨-, hfit, hnested⟩ := ordinary_field htype hfits hf hv
      refine Redaction.covered_settles hfit hnested fun inner hin htype' hinner => ?_
      exact ih v (List.mem_of_getElem? hv) inner hin (hnested inner.type htype') hinner
    have hmade (i : Nat) (f : FieldDecl) (w : Value) (hf : (r.decl S).fields[i]? = some f)
        (hw : (r.redact S).2.cells[i]? = some w) :
        w.fits S f.kind = true ∧ Redaction.covered S f w = w := by
      rw [(redact_eq htype hfits).2] at hw
      obtain ⟨g, v, hg, hv, rfl⟩ := List.getElem?_zipWith_eq_some.mp hw
      cases hf.symm.trans hg
      exact hfield i f v hf hv
    have hlength : (r.redact S).2.cells.length = (r.decl S).fields.length :=
      (Redaction.length_redactCells S r.type (r.decl S).fields r.cells).trans
        (whole_of_fits hfits)
    have hleft : (r.redact S).2.fits S = true :=
      fits_iff.mpr ⟨hlength, fun i f w hf hw _ => (hmade i f w hf hw).1⟩
    refine ⟨hleft, ?_⟩
    rw [(redact_eq (r := (r.redact S).2) htype hleft).2]
    exact congrArg (mk r.type) (zipWith_eq_right hlength fun i f w hf hw => (hmade i f w hf hw).2)

/-- **A field of a record** is left with what redaction keeps of it. -/
theorem redact_keeps (htype : S.Ordinary r.type) (hfits : r.fits S = true) {index : Nat}
    {f : FieldDecl} (hf : (r.decl S).fields[index]? = some f) :
    ∃ v w, r.get? S index = some v ∧ (r.redact S).2.get? S index = some w ∧ f.Keeps v w := by
  have hwhole := whole_of_fits hfits
  have hwhole' := whole_of_fits (redact_settles htype hfits).1
  have hplain : ((r.redact S).2.decl S).Plain := htype.plain
  rw [get?_eq_getElem? htype.plain hwhole, get?_eq_getElem? hplain hwhole']
  obtain ⟨v, hv⟩ : ∃ v, r.cells[index]? = some v := by
    obtain ⟨hlt, -⟩ := List.getElem?_eq_some_iff.mp hf
    rw [Whole] at hwhole
    exact ⟨_, List.getElem?_eq_getElem (by omega)⟩
  have hw : (r.redact S).2.cells[index]? = some (Redaction.covered S f v) := by
    rw [(redact_eq htype hfits).2]
    exact List.getElem?_zipWith_eq_some.mpr ⟨f, v, hf, hv, rfl⟩
  exact ⟨v, _, hv, hw, Redaction.covered_keeps (ordinary_field htype hfits hf hv).2.1⟩

/-! ### Records inside -/

theorem ordinary_of_enter? {inner : Record} {entry : Entry} (htype : S.Ordinary r.type)
    (hfits : r.fits S = true) (h : r.enter? S entry = some inner) :
    S.Ordinary inner.type ∧ inner.fits S = true := by
  obtain ⟨f, v, hf, -, hv, hinner⟩ := enter?_eq_some_iff.mp h
  rw [get?_eq_getElem? htype.plain (whole_of_fits hfits)] at hv
  obtain ⟨-, hfit, hnested⟩ := ordinary_field htype hfits hf hv
  obtain ⟨hholds, t, ht⟩ := FieldKind.holds_of_inner? hinner
  obtain ⟨rfl, hinner⟩ := Value.fits_of_holds hfit ht hholds
  exact ⟨hnested _ ht, hinner⟩

theorem ordinary_of_follow? {inner : Record} {way : List Entry} (htype : S.Ordinary r.type)
    (hfits : r.fits S = true) (h : r.follow? S way = some inner) :
    S.Ordinary inner.type ∧ inner.fits S = true := by
  induction way generalizing r with
  | nil =>
    cases h
    exact ⟨htype, hfits⟩
  | cons entry rest ih =>
    obtain ⟨next, henter, hrest⟩ := Option.bind_eq_some_iff.mp h
    obtain ⟨htype', hfits'⟩ := ordinary_of_enter? htype hfits henter
    exact ih htype' hfits' hrest

theorem faithful_of_ordinary (htype : S.Ordinary r.type) (hfits : r.fits S = true) :
    r.Faithful S :=
  fun _ _ h => (ordinary_of_follow? htype hfits h).1.plain.faithful

/-- **Redaction touches nothing but secrets, loses none of its updates, and is done once and for
all**, on every record of an ordinary type. It succeeds. Every way through fields that are not
sensitive leads to a record of the same type as before, in which every field has been left with what
redaction keeps of it. If nothing was counted then nothing has changed. Writing back every nested
record would come to the same. A second redaction succeeds too, and changes nothing. -/
theorem redact_frame (S : Schema) (t : TypeId) (ht : S.Ordinary t) (r : Record) (hr : r.type = t)
    (hfits : r.fits S = true) :
    ∃ count left, r.redact S = (.ok count, left) ∧
      (∀ way before, r.follow? S way = some before →
        ∃ after, left.follow? S way = some after ∧ after.type = before.type ∧
          ∀ (index : Nat) f, (before.decl S).fields[index]? = some f →
            ∃ v w, before.get? S index = some v ∧ after.get? S index = some w ∧ f.Keeps v w) ∧
      (count = 0 → left = r) ∧
      r.rewrite S = r.redact S ∧
      ∃ again, left.redact S = (.ok again, left) := by
  subst hr
  obtain ⟨count, left, hredact, hzero⟩ := (redact_eq ht hfits).1
  obtain rfl : (r.redact S).2 = left := congrArg Prod.snd hredact
  have hok : (r.redact S).1 = .ok count := congrArg Prod.fst hredact
  obtain ⟨hleft, hsame⟩ := redact_settles ht hfits
  refine ⟨count, _, hredact, fun way before hbefore => ?_, hzero, rewrite_eq ht hfits, ?_⟩
  · obtain ⟨htype, hfits'⟩ := ordinary_of_follow? ht hfits hbefore
    refine ⟨(before.redact S).2, ?_, rfl, fun index f hf => redact_keeps htype hfits' hf⟩
    rw [(follow?_redact (faithful_of_ordinary ht hfits) hok way).1, hbefore]
    rfl
  · obtain ⟨again, left', hagain, -⟩ := (redact_eq (r := (r.redact S).2) ht hleft).1
    refine ⟨again, hagain.trans (congrArg (Prod.mk _) ?_)⟩
    rw [← hsame, hagain]

/-- The name of an heir is still there after the account has been redacted once or twice. -/
theorem redact_frame_account :
    let card : Value := .record ⟨1⟩ [.string "4711"]
    let r := Accounts.account .zero "hunter2" 1234 "blue" card ⟨5, 7⟩
    r.fits Accounts.schema = true ∧
      ∃ count left, r.redact Accounts.schema = (.ok count, left) ∧
        (∃ heir, left.follow? Accounts.schema [⟨6, some 0⟩] = some heir ∧
          heir.get? Accounts.schema 0 = some (.string "Ben")) ∧
        r.rewrite Accounts.schema = r.redact Accounts.schema ∧
        ∃ again, left.redact Accounts.schema = (.ok again, left) := by
  intro card r
  have hfits : r.fits Accounts.schema = true := by decide
  obtain ⟨count, left, hredact, hframe, -, hrewrite, hagain⟩ :=
    redact_frame Accounts.schema ⟨0⟩ (Accounts.ordinary ⟨0⟩) r rfl hfits
  obtain ⟨heir, hheir, -, hkeeps⟩ := hframe [⟨6, some 0⟩] (Accounts.person "Ben" ⟨5, 7⟩) rfl
  obtain ⟨v, w, hv, hw, hkeep⟩ := hkeeps 0 _ rfl
  cases hv
  obtain rfl : w = .string "Ben" := hkeep rfl
  exact ⟨hfits, count, left, hredact, ⟨heir, hheir, hw⟩, hrewrite, hagain⟩

end Record

end Crosswalk
