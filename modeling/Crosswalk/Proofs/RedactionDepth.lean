import Crosswalk.Proofs.OrdinaryRedaction

/-!
# Redaction at every depth

Redaction goes into the records in fields that are not sensitive, redacts a copy there and writes it
back if anything in it was replaced. This module says what comes of that inside a record, be it
ordinary or not: its fields may hold anything and may refuse writes. All that is asked of a field
made by hand is that it holds what it has taken (`Record.Faithful`).

The way inside is a list of entries, each through a field that is open and to one of the records
there. `Record.follow?` is where a way leads to. If the redaction of the whole succeeds then so does
that of every record on the way, and what stands at its end afterwards is the redaction of what
stood there before (`Record.follow?_redact`). So a statement about the fields of a redacted record
holds at every depth as soon as it holds at the top.

One point is delicate: a record that was not written back has to be its own redaction. It is, since
a count of zero means that nothing has changed (`Redaction.eq_of_redactCells_zero`). That needs no
induction on the depth: where nothing was counted inside, nothing was written.
-/

namespace Crosswalk

/-! ### Ways inside -/

/-- The record that a value is. -/
def Value.record? : Value → Option Record
  | .record type cells => some ⟨type, cells⟩
  | _ => none

/-- The record in what a field of the kind holds, at the given place if it holds a list. -/
def FieldKind.inner? (kind : FieldKind) (item? : Option Nat) (v : Value) : Option Record :=
  match kind, item?, v with
  | .nested .., none, v => v.record?
  | .nestedList _, some i, .list items => items[i]?.bind Value.record?
  | _, _, _ => none

/-- A step from a record to one inside: through the field at a position, to an item if the field
holds a list. -/
structure Entry where
  index : Nat
  item? : Option Nat

namespace Record

variable (S : Schema)

/-- The record that an entry leads to. It has to be in a field that can be read and that is not
sensitive. -/
def enter? (r : Record) (entry : Entry) : Option Record :=
  match (r.decl S).fields[entry.index]? with
  | some f =>
    if f.sensitive then none else (r.get? S entry.index).bind (f.kind.inner? entry.item?)
  | none => none

/-- The record at the end of a way. -/
def follow? (r : Record) : List Entry → Option Record
  | [] => some r
  | entry :: rest => (r.enter? S entry).bind (follow? · rest)

end Record

namespace Record

/-- In every record that a way leads to, the fields are ordinary or hold what they take. -/
def Faithful (S : Schema) (r : Record) : Prop :=
  ∀ way inner, r.follow? S way = some inner → (inner.decl S).Faithful

end Record

section Inner

variable {S : Schema} {r inner : Record} {v : Value}

theorem Value.eq_of_record? (h : v.record? = some r) : v = r.toValue := by
  cases v <;> cases h
  rfl

theorem Value.redacted_of_record? (h : v.record? = none) : v.redacted S = v := by
  cases v <;> first | rfl | cases h

theorem Record.redacted_toValue (S : Schema) (r : Record) :
    r.toValue.redacted S = (r.redact S).2.toValue := rfl

/-- A list of records holds a record in its place. -/
theorem FieldKind.exists_of_inner?_list {t : TypeId} {item? : Option Nat} {items : List Value}
    (h : (FieldKind.nestedList t).inner? item? (.list items) = some inner) :
    ∃ w ∈ items, w.record? = some inner := by
  cases item? with
  | none => cases h
  | some i =>
    obtain ⟨w, hw, hrecord⟩ := Option.bind_eq_some_iff.mp h
    exact ⟨w, List.mem_of_getElem? hw, hrecord⟩

theorem FieldKind.holds_of_inner? {kind : FieldKind} {item? : Option Nat}
    (h : kind.inner? item? v = some inner) : v.Holds inner ∧ ∃ t, kind.nestedType? = some t := by
  cases kind with
  | nested t optional =>
    cases item? with
    | none => exact ⟨.inl (Value.eq_of_record? h), t, rfl⟩
    | some i => cases h
  | nestedList t =>
    cases v with
    | list items =>
      obtain ⟨w, hw, hrecord⟩ := exists_of_inner?_list h
      obtain rfl := Value.eq_of_record? hrecord
      exact ⟨Value.holds_item hw, t, rfl⟩
    | _ => cases item? <;> cases h
  | _ => cases h

theorem Record.enter?_eq_some_iff {entry : Entry} :
    r.enter? S entry = some inner ↔ ∃ f v, (r.decl S).fields[entry.index]? = some f ∧
      f.sensitive = false ∧ r.get? S entry.index = some v ∧
      f.kind.inner? entry.item? v = some inner := by
  rw [enter?]
  cases (r.decl S).fields[entry.index]? with
  | none => simp
  | some f => cases hsecret : f.sensitive <;> simp [Option.bind_eq_some_iff, hsecret]

end Inner

/-! ### Fields that are open -/

/-- The redaction of the record succeeds and replaces no more than so many values. -/
def Record.RedactsUpTo (S : Schema) (r : Record) (bound : Nat) : Prop :=
  ∃ count left, r.redact S = (.ok count, left) ∧ count ≤ bound

theorem Record.RedactsUpTo.mono {S : Schema} {r : Record} {bound bound' : Nat}
    (h : r.RedactsUpTo S bound) (hle : bound ≤ bound') : r.RedactsUpTo S bound' := by
  obtain ⟨count, left, hr, hcount⟩ := h
  exact ⟨count, left, hr, hcount.trans hle⟩

namespace Redaction

variable {S : Schema} {type : TypeId} {f : FieldDecl} {v w new : Value} {count : Nat}

/-- The redaction of a list that begins with a record. -/
theorem exists_of_redactItems_cons {r : Record} {rest made : List Value}
    (h : redactItems S (r.toValue :: rest) = .ok (count, made)) :
    ∃ here left others made', r.redact S = (.ok here, left) ∧
      redactItems S rest = .ok (others, made') ∧ here + others = count ∧
      left.toValue :: made' = made := by
  rw [redactItems_cons] at h
  generalize r.redact S = redaction at h ⊢
  obtain ⟨result, left⟩ := redaction
  cases result with
  | error e => cases h
  | ok here =>
    obtain ⟨⟨others, made'⟩, hrest, hmade⟩ := map_eq_ok_iff.mp h
    cases hmade
    exact ⟨here, left, others, made', rfl, hrest, rfl, rfl⟩

/-- The redaction of a list that begins with anything else. -/
theorem exists_of_redactItems_cons_flat {rest made : List Value} (hv : v.record? = none)
    (h : redactItems S (v :: rest) = .ok (count, made)) :
    ∃ made', redactItems S rest = .ok (count, made') ∧ v :: made' = made := by
  rw [redactItems] at h
  · obtain ⟨⟨others, made'⟩, hrest, hmade⟩ := map_eq_ok_iff.mp h
    cases hmade
    exact ⟨made', hrest, rfl⟩
  · rintro type cells rfl
    cases hv

/-- The records in a list are redacted one by one, and the rest of it is left alone. -/
theorem redactItems_eq_ok {items made : List Value} (h : redactItems S items = .ok (count, made)) :
    made = items.map (·.redacted S) ∧
      ∀ v ∈ items, ∀ inner, v.record? = some inner → inner.RedactsUpTo S count := by
  induction items generalizing count made with
  | nil =>
    cases h
    exact ⟨rfl, by simp⟩
  | cons v rest ih =>
    cases hv : v.record? with
    | some r =>
      obtain rfl := Value.eq_of_record? hv
      obtain ⟨here, left, others, made', hr, hrest, rfl, rfl⟩ := exists_of_redactItems_cons h
      obtain ⟨rfl, hinner⟩ := ih hrest
      refine ⟨?_, List.forall_mem_cons.mpr ⟨fun inner hin => ?_, fun w hw inner hin => ?_⟩⟩
      · rw [List.map_cons, Record.redacted_toValue, hr]
      · cases hv.symm.trans hin
        exact ⟨here, left, hr, Nat.le_add_right ..⟩
      · exact (hinner w hw inner hin).mono (Nat.le_add_left ..)
    | none =>
      obtain ⟨made', hrest, rfl⟩ := exists_of_redactItems_cons_flat hv h
      obtain ⟨rfl, hinner⟩ := ih hrest
      refine ⟨?_, List.forall_mem_cons.mpr ⟨fun inner hin => ?_, hinner⟩⟩
      · rw [List.map_cons, Value.redacted_of_record? hv]
      · cases hv.symm.trans hin

/-- What replaces a record, if it is replaced. -/
theorem exists_of_replacement_record (hf : f.sensitive = false) {t : TypeId} {optional : Bool}
    (hk : f.kind = .nested t optional) {r : Record} {made : Replacement}
    (h : replacement S f r.toValue = .ok made) :
    ∃ count, made = ofInner count (r.redact S).2.toValue ∧ r.RedactsUpTo S count := by
  rw [replacement_record hf hk] at h
  generalize hr : r.redact S = redaction at h ⊢
  obtain ⟨result, left⟩ := redaction
  cases result with
  | error e => cases h
  | ok count =>
    cases h
    exact ⟨count, rfl, count, left, hr, Nat.le_refl count⟩

/-- What replaces a list of records, if it is replaced. -/
theorem exists_of_replacement_list (hf : f.sensitive = false) {t : TypeId}
    (hk : f.kind = .nestedList t) {items : List Value} {made : Replacement}
    (h : replacement S f (.list items) = .ok made) :
    ∃ count, made = ofInner count (.list (items.map (·.redacted S))) ∧
      ∀ v ∈ items, ∀ inner, v.record? = some inner → inner.RedactsUpTo S count := by
  simp only [replacement, hf, hk, Bool.false_eq_true, if_false] at h
  obtain ⟨⟨count, items'⟩, hitems, rfl⟩ := map_eq_ok_iff.mp h
  obtain ⟨rfl, hinner⟩ := redactItems_eq_ok hitems
  exact ⟨count, rfl, hinner⟩

/-- **An open field is to hold what it holds, with the records in it redacted**, unless that
fails. It is written to only if values were replaced in them. -/
theorem replacement_open (hf : f.sensitive = false) {made : Replacement}
    (h : replacement S f v = .ok made) :
    ∃ count, made = ofInner count (coveredOpen S f.kind v) ∧
      ∀ item? inner, f.kind.inner? item? v = some inner → inner.RedactsUpTo S count := by
  have hplain (hnone : replacement S f v = .ok none)
      (hinner : ∀ item?, f.kind.inner? item? v = none) :
      ∃ count, made = ofInner count (coveredOpen S f.kind v) ∧
        ∀ item? inner, f.kind.inner? item? v = some inner → inner.RedactsUpTo S count := by
    rw [hnone] at h
    cases h
    refine ⟨0, rfl, fun item? inner hin => ?_⟩
    cases (hinner item?).symm.trans hin
  obtain ⟨name, kind, sensitive, access⟩ := f
  obtain rfl : sensitive = false := hf
  cases kind with
  | nested t optional =>
    cases hv : v.record? with
    | some r =>
      obtain rfl := Value.eq_of_record? hv
      obtain ⟨count, hmade, hr⟩ := exists_of_replacement_record rfl rfl h
      refine ⟨count, hmade, fun item? inner hin => ?_⟩
      cases item? with
      | some i => cases hin
      | none =>
        cases hv.symm.trans hin
        exact hr
    | none =>
      refine hplain ?_ fun item? => ?_
      · cases v <;> first | rfl | cases hv
      · cases item? <;> first | rfl | exact hv
  | nestedList t =>
    cases v with
    | list items =>
      obtain ⟨count, hmade, hinner⟩ := exists_of_replacement_list rfl rfl h
      refine ⟨count, hmade, fun item? inner hin => ?_⟩
      obtain ⟨w, hw, hrecord⟩ := FieldKind.exists_of_inner?_list hin
      exact hinner w hw inner hrecord
    | _ => exact hplain rfl fun item? => by cases item? <;> rfl
  | _ => exact hplain (by cases v <;> rfl) fun _ => rfl

end Redaction

/-! ### Nothing counted, nothing changed -/

namespace Redaction

variable {S : Schema} {type : TypeId} {f : FieldDecl} {v w new : Value} {count : Nat}

theorem ofInner_eq_none_iff : ofInner count v = none ↔ count = 0 := by
  simp [ofInner]

theorem ofInner_eq_some_iff {here : Nat} :
    ofInner count v = some (here, w) ↔ count ≠ 0 ∧ here = count ∧ w = v := by
  simp [ofInner, eq_comm]

/-- Only the items of an empty list are replaced without being counted. -/
theorem eq_of_replacement_zero (h : replacement S f v = .ok (some (0, w))) : v ≠ .null ∧ w = v := by
  cases hf : f.sensitive with
  | true =>
    rw [replacement_of_sensitive hf, Except.ok.injEq] at h
    cases hk : f.kind <;> rw [hk] at h <;> cases v <;> simp [ofSensitive] at h
    obtain ⟨rfl, rfl⟩ := h
    simp
  | false =>
    obtain ⟨count, hmade, -⟩ := replacement_open hf h
    obtain ⟨hcount, rfl, -⟩ := ofInner_eq_some_iff.mp hmade.symm
    exact absurd rfl hcount

theorem eq_of_step_zero (hkeeps : f.access.Faithful) (h : step S type f v = .ok (0, new)) :
    new = v := by
  by_cases hread : f.readable = true
  · rcases (step_eq_ok_iff hread).mp h with ⟨-, -, rfl⟩ | ⟨w, change, hw, hwrite, rfl⟩
    · rfl
    · obtain ⟨hv, rfl⟩ := eq_of_replacement_zero hw
      exact FieldDecl.eq_of_write hkeeps hv hwrite w
  · rw [step, if_neg hread] at h
    cases h
    rfl

/-- **What counts nothing changes nothing.** -/
theorem eq_of_redactCells_zero {fields : List FieldDecl} {cells : List Value}
    (hkeeps : ∀ f ∈ fields, f.access.Faithful) (h : (redactCells S type fields cells).1 = .ok 0) :
    (redactCells S type fields cells).2 = cells := by
  induction fields generalizing cells with
  | nil => cases cells <;> rfl
  | cons f fs ih =>
    cases cells with
    | nil => rfl
    | cons v vs =>
      rw [redactCells_cons] at h ⊢
      cases hstep : step S type f v with
      | error e => rfl
      | ok made =>
        obtain ⟨here, new⟩ := made
        rw [hstep] at h
        obtain ⟨others, hrest, hzero⟩ := map_eq_ok_iff.mp h
        obtain ⟨rfl, rfl⟩ := Nat.add_eq_zero_iff.mp hzero.symm
        obtain ⟨hf, hfs⟩ := List.forall_mem_cons.mp hkeeps
        dsimp only
        rw [eq_of_step_zero hf hstep, ih hfs hrest]

end Redaction

/-- The redaction of any record leaves it alone if it replaces nothing. -/
theorem Record.redact_of_redactsUpTo_zero {S : Schema} {r : Record}
    (hkeeps : (r.decl S).Faithful) (h : r.RedactsUpTo S 0) : (r.redact S).2 = r := by
  obtain ⟨count, left, hr, hcount⟩ := h
  obtain rfl := Nat.le_zero.mp hcount
  obtain ⟨type, cells⟩ := r
  exact congrArg (Record.mk type)
    (Redaction.eq_of_redactCells_zero hkeeps (congrArg Prod.fst hr))

/-! ### Records inside -/

namespace Redaction

variable {S : Schema} {type : TypeId} {f : FieldDecl} {v w new : Value} {count : Nat}

/-- What is in an open field stays in its place. -/
theorem inner?_coveredOpen (S : Schema) (kind : FieldKind) (item? : Option Nat) (v : Value) :
    kind.inner? item? (coveredOpen S kind v) =
      (kind.inner? item? v).map fun inner => (inner.redact S).2 := by
  have hredacted (v : Value) :
      (v.redacted S).record? = v.record?.map fun inner => (inner.redact S).2 := by
    cases v <;> rfl
  cases kind with
  | nested t optional =>
    cases item? with
    | none => exact hredacted v
    | some i => rfl
  | nestedList t =>
    cases item? with
    | none => cases v <;> rfl
    | some i =>
      cases v with
      | list items =>
        change ((items.map (·.redacted S))[i]?).bind Value.record? =
          (items[i]?.bind Value.record?).map _
        rw [List.getElem?_map]
        cases items[i]? with
        | none => rfl
        | some v => exact hredacted v
      | _ => rfl
  | _ => rfl

/-- Where redaction leaves the records inside as they are, so it does the field. -/
theorem coveredOpen_of_inner {kind : FieldKind}
    (h : ∀ item? inner, kind.inner? item? v = some inner → (inner.redact S).2 = inner) :
    coveredOpen S kind v = v := by
  cases kind with
  | nested t optional =>
    cases hv : v.record? with
    | none => exact Value.redacted_of_record? hv
    | some r =>
      obtain rfl := Value.eq_of_record? hv
      rw [coveredOpen, Record.redacted_toValue, h none r hv]
  | nestedList t =>
    cases v with
    | list items =>
      have hitems : ∀ v ∈ items, v.redacted S = v := by
        intro v hmem
        obtain ⟨i, hi⟩ := List.mem_iff_getElem?.mp hmem
        cases hv : v.record? with
        | none => exact Value.redacted_of_record? hv
        | some r =>
          have hr : (FieldKind.nestedList t).inner? (some i) (.list items) = some r := by
            rw [FieldKind.inner?, hi]
            exact hv
          obtain rfl := Value.eq_of_record? hv
          rw [Record.redacted_toValue, h (some i) r hr]
      rw [coveredOpen, List.map_congr_left hitems, List.map_id']
    | _ => rfl
  | _ => rfl

theorem coveredOpen_ne_null {kind : FieldKind} (hv : v ≠ .null) : coveredOpen S kind v ≠ .null := by
  cases kind <;> cases v <;> simp_all [coveredOpen, Value.redacted, Record.toValue]

/-- **The step of an open field** makes it what it is to hold and has redacted the records there. -/
theorem step_open (hkeeps : f.access.Faithful) (hread : f.readable = true)
    (hf : f.sensitive = false)
    (hfaithful : ∀ item? inner, f.kind.inner? item? v = some inner → (inner.decl S).Faithful)
    (h : step S type f v = .ok (count, new)) :
    new = coveredOpen S f.kind v ∧
      ∀ item? inner, f.kind.inner? item? v = some inner → inner.RedactsUpTo S count := by
  rcases (step_eq_ok_iff hread).mp h with ⟨hmade, rfl, rfl⟩ | ⟨w, change, hmade, hwrite, rfl⟩
  · obtain ⟨count, hcount, hinner⟩ := replacement_open hf hmade
    obtain rfl := ofInner_eq_none_iff.mp hcount.symm
    refine ⟨(coveredOpen_of_inner fun item? inner h => ?_).symm, hinner⟩
    exact Record.redact_of_redactsUpTo_zero (hfaithful item? inner h) (hinner item? inner h)
  · obtain ⟨_, hcount, hinner⟩ := replacement_open hf hmade
    obtain ⟨hne, rfl, rfl⟩ := ofInner_eq_some_iff.mp hcount.symm
    refine ⟨FieldDecl.eq_of_write hkeeps (coveredOpen_ne_null ?_) hwrite v, hinner⟩
    rintro rfl
    simp [replacement, hf] at hmade

theorem length_redactCells (S : Schema) (type : TypeId) (fields : List FieldDecl)
    (cells : List Value) : (redactCells S type fields cells).2.length = cells.length := by
  induction fields generalizing cells with
  | nil => cases cells <;> rfl
  | cons f fs ih =>
    cases cells with
    | nil => rfl
    | cons v vs =>
      rw [redactCells_cons]
      cases step S type f v with
      | error e => rfl
      | ok made => exact congrArg Nat.succ (ih vs)

end Redaction

namespace Record

variable {S : Schema} {r : Record} {count : Nat}

/-- **A redaction that succeeds has stepped through every field that can be read.** -/
theorem get?_redact (h : (r.redact S).1 = .ok count) (index : Nat) :
    (r.get? S index = none ∧ (r.redact S).2.get? S index = none) ∨
      ∃ f v w here, (r.decl S).fields[index]? = some f ∧ f.readable = true ∧
        r.get? S index = some v ∧ (r.redact S).2.get? S index = some w ∧
        Redaction.step S r.type f v = .ok (here, w) := by
  have hdecl : (r.redact S).2.decl S = r.decl S := rfl
  rw [get?, get?, hdecl]
  by_cases hread : (r.decl S).readableAt index = true
  · rw [if_pos hread, if_pos hread]
    obtain ⟨f, hf, hvisible⟩ := TypeDecl.readableAt_iff.mp hread
    have hlength : (r.redact S).2.cells.length = r.cells.length :=
      Redaction.length_redactCells S r.type (r.decl S).fields r.cells
    cases hw : (r.redact S).2.cells[index]? with
    | none =>
      rw [List.getElem?_eq_none_iff, hlength] at hw
      exact .inl ⟨List.getElem?_eq_none hw, rfl⟩
    | some w =>
      have hlt := (List.getElem?_eq_some_iff.mp hf).1
      rcases Redaction.redactCells_cases S r.type (r.decl S).fields r.cells with
        ⟨-, -, hsteps⟩ | ⟨-, -, -, e, -, -, -, he, -⟩
      · obtain ⟨v, here, hv, hstep⟩ := hsteps.stepped index hlt f w hf hw
        exact .inr ⟨f, v, w, here, hf, hvisible, hv, rfl, hstep⟩
      · cases h.symm.trans he
  · rw [if_neg hread, if_neg hread]
    exact .inl ⟨rfl, rfl⟩

theorem Faithful.enter {inner : Record} {entry : Entry} (hr : r.Faithful S)
    (h : r.enter? S entry = some inner) : inner.Faithful S := by
  intro way last hlast
  refine hr (entry :: way) last ?_
  rw [follow?, h]
  exact hlast

/-- **One entry into a redacted record** leads to what the entry led to before, redacted. -/
theorem enter?_redact (hr : r.Faithful S) (h : (r.redact S).1 = .ok count) (entry : Entry) :
    (r.redact S).2.enter? S entry = (r.enter? S entry).map (fun inner => (inner.redact S).2) ∧
      ∀ inner, r.enter? S entry = some inner → ∃ here, (inner.redact S).1 = .ok here := by
  have hdecl : (r.redact S).2.decl S = r.decl S := rfl
  rw [enter?, enter?, hdecl]
  cases hf : (r.decl S).fields[entry.index]? with
  | none => exact ⟨rfl, fun inner h => by cases h⟩
  | some f =>
    dsimp only
    cases hsecret : f.sensitive with
    | true => exact ⟨rfl, fun inner h => by cases h⟩
    | false =>
      rw [if_neg Bool.false_ne_true, if_neg Bool.false_ne_true]
      rcases get?_redact h entry.index with
        ⟨hv, hw⟩ | ⟨g, v, w, here, hg, hvisible, hv, hw, hstep⟩
      · rw [hv, hw]
        exact ⟨rfl, fun inner h => by cases h⟩
      · cases hf.symm.trans hg
        have hkeeps : f.access.Faithful := hr [] r rfl f (List.mem_of_getElem? hf)
        have henter (item? : Option Nat) (inner : Record)
            (hin : f.kind.inner? item? v = some inner) : (inner.decl S).Faithful := by
          have hentry : r.enter? S ⟨entry.index, item?⟩ = some inner :=
            enter?_eq_some_iff.mpr ⟨f, v, hf, hsecret, hv, hin⟩
          exact hr.enter hentry [] inner rfl
        obtain ⟨rfl, hinner⟩ := Redaction.step_open hkeeps hvisible hsecret henter hstep
        rw [hv, hw]
        refine ⟨Redaction.inner?_coveredOpen S f.kind entry.item? v, fun inner hin => ?_⟩
        obtain ⟨count, left, hredact, -⟩ := hinner entry.item? inner hin
        exact ⟨count, congrArg Prod.fst hredact⟩

/-- **A way into a redacted record** leads to what it led to before, redacted, and the redaction of
that has succeeded. By induction on the way. -/
theorem follow?_redact (hr : r.Faithful S) (h : (r.redact S).1 = .ok count) (way : List Entry) :
    (r.redact S).2.follow? S way = (r.follow? S way).map (fun inner => (inner.redact S).2) ∧
      ∀ inner, r.follow? S way = some inner → ∃ here, (inner.redact S).1 = .ok here := by
  induction way generalizing r count with
  | nil =>
    refine ⟨rfl, fun inner hinner => ?_⟩
    cases hinner
    exact ⟨count, h⟩
  | cons entry rest ih =>
    obtain ⟨henter, hredacts⟩ := enter?_redact hr h entry
    rw [follow?, follow?, henter]
    cases hinner : r.enter? S entry with
    | none => exact ⟨rfl, fun inner h => by cases h⟩
    | some inner =>
      obtain ⟨here, hhere⟩ := hredacts inner hinner
      exact ih (hr.enter hinner) hhere

end Record

end Crosswalk
