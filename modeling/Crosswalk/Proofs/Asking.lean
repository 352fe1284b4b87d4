import Crosswalk.Proofs.Trails

/-!
# Which plans a conversion asks for

A conversion asks for the plan of a key if it comes to it. That is so for its own key, and for what
the conversion of a record asks for, if the record is in a field that is linked, the links before it
have succeeded and, in a list, the items before it were converted. `Tier.Asks` is that relation,
said step by step and without an order. `Tier.mem_trail_iff` says that the trail of a conversion
lists the keys that the conversion asks for.
-/

namespace Crosswalk

namespace Tier

/-- A value that crosses by the transfer comes to a record, which is then converted by the key. In a
list, the records before it have been converted by then. -/
inductive Meets (S : Schema) (tier : Tier) : Transfer → Value → PlanKey → Record → Prop
  | record (key : PlanKey) (r : Record) : Meets S tier (.nested key) r.toValue key r
  | item {key : PlanKey} {before after : List Value} {r : Record}
    (h : ∀ v ∈ before, ∃ b : Record, v = b.toValue ∧
      (tier.outcome S key b (.initial S key.target)).result = .ok ()) :
    Meets S tier (.nestedList key) (.list (before ++ r.toValue :: after)) key r

/-- Converting the record by the first key asks for the plan of the second key: it is the same key,
or the conversion of a record that is met asks for it, after all links before have succeeded. -/
inductive Asks (S : Schema) (tier : Tier) : PlanKey → Record → PlanKey → Prop
  | here (key : PlanKey) (r : Record) : Asks S tier key r key
  | inside {key : PlanKey} {r : Record} {plan : Plan} {done rest : List Link} {l : Link} {v : Value}
    {key' : PlanKey} {inner : Record} {asked : PlanKey} (hplan : Plan.resolve S key = .ok plan)
    (hlinks : plan.links = done ++ l :: rest)
    (hdone : ∀ m ∈ done, ∃ p, tier.effect S r key.target (tier.copier m) = .ok p)
    (hv : (tier.copier l).read? S r = some v) (hmeets : Meets S tier l.transfer v key' inner)
    (h : Asks S tier key' inner asked) : Asks S tier key r asked

variable {S : Schema} {tier : Tier}

/-! ### What a value leads to -/

/-- The records that the value comes to ask for the key. -/
def AsksIn (S : Schema) (tier : Tier) (t : Transfer) (v : Value) (asked : PlanKey) : Prop :=
  ∃ key inner, Meets S tier t v key inner ∧ Asks S tier key inner asked

/-- The trail of the record lists what a conversion of it asks for, whatever the key. -/
def ListsAsked (S : Schema) (tier : Tier) (r : Record) : Prop :=
  ∀ key asked, asked ∈ tier.trail S key r ↔ Asks S tier key r asked

theorem asksIn_nested {key asked : PlanKey} {v : Value} :
    AsksIn S tier (.nested key) v asked ↔
      ∃ r : Record, v = r.toValue ∧ Asks S tier key r asked := by
  constructor
  · rintro ⟨key', inner, hmeets, hasks⟩
    cases hmeets
    exact ⟨inner, rfl, hasks⟩
  · rintro ⟨r, rfl, hasks⟩
    exact ⟨key, r, .record key r, hasks⟩

theorem asksIn_nestedList {key asked : PlanKey} {v : Value} :
    AsksIn S tier (.nestedList key) v asked ↔ ∃ before after, ∃ r : Record,
      v = .list (before ++ r.toValue :: after) ∧
      (∀ w ∈ before, ∃ b : Record, w = b.toValue ∧
        (tier.outcome S key b (.initial S key.target)).result = .ok ()) ∧
      Asks S tier key r asked := by
  constructor
  · rintro ⟨key', inner, hmeets, hasks⟩
    cases hmeets with
    | @item _ before after _ hbefore => exact ⟨before, after, inner, rfl, hbefore, hasks⟩
  · rintro ⟨before, after, r, rfl, hbefore, hasks⟩
    exact ⟨key, r, .item hbefore, hasks⟩

/-- Only a link that moves records comes to any. -/
theorem not_asksIn {t : Transfer} (h : ∀ key, t ≠ .nested key) (h' : ∀ key, t ≠ .nestedList key)
    (v : Value) (asked : PlanKey) : ¬ AsksIn S tier t v asked := by
  rintro ⟨key, inner, hmeets, -⟩
  cases hmeets with
  | record => exact h key rfl
  | item => exact h' key rfl

/-- An empty list asks for nothing. -/
theorem not_asksIn_nil (key asked : PlanKey) :
    ¬ AsksIn S tier (.nestedList key) (.list []) asked := by
  rw [asksIn_nestedList]
  rintro ⟨before, after, r, hv, -⟩
  cases before <;> cases hv

/-- A list asks for what its first record asks for and, if that one was converted, for what the rest
of the list asks for. -/
theorem asksIn_cons {key asked : PlanKey} {r : Record} {rest : List Value} :
    AsksIn S tier (.nestedList key) (.list (r.toValue :: rest)) asked ↔ Asks S tier key r asked ∨
      ((tier.outcome S key r (.initial S key.target)).result = .ok () ∧
        AsksIn S tier (.nestedList key) (.list rest) asked) := by
  rw [asksIn_nestedList, asksIn_nestedList]
  constructor
  · rintro ⟨before, after, inner, hv, hbefore, hasks⟩
    rw [Value.list.injEq] at hv
    cases before with
    | nil =>
      rw [Record.toValue_injective (List.cons.inj hv).1]
      exact .inl hasks
    | cons first before =>
      obtain ⟨hfirst, rfl⟩ := List.cons.inj hv
      obtain ⟨b, hb, hok⟩ := hbefore first List.mem_cons_self
      rw [← Record.toValue_injective (hfirst.trans hb)] at hok
      exact .inr ⟨hok, before, after, inner, rfl,
        fun w hw => hbefore w (List.mem_cons_of_mem _ hw), hasks⟩
  · rintro (hasks | ⟨hok, before, after, inner, hv, hbefore, hasks⟩)
    · exact ⟨[], rest, r, rfl, by simp, hasks⟩
    · rw [Value.list.injEq] at hv
      subst hv
      refine ⟨r.toValue :: before, after, inner, rfl, fun w hw => ?_, hasks⟩
      rcases List.mem_cons.mp hw with rfl | hw
      · exact ⟨r, rfl, hok⟩
      · exact hbefore w hw

/-- A list that does not begin with a record asks for nothing. -/
theorem not_asksIn_cons {v : Value} (hv : ∀ r : Record, v ≠ r.toValue) (key asked : PlanKey)
    (rest : List Value) : ¬ AsksIn S tier (.nestedList key) (.list (v :: rest)) asked := by
  rw [asksIn_nestedList]
  rintro ⟨before, after, r, hitems, hbefore, -⟩
  rw [Value.list.injEq] at hitems
  cases before with
  | nil => exact hv r (List.cons.inj hitems).1
  | cons first before =>
    obtain ⟨b, hb, -⟩ := hbefore first List.mem_cons_self
    exact hv b ((List.cons.inj hitems).1.trans hb)

/-- The trail of a list lists what the records in it ask for, up to the first that fails. -/
theorem mem_trailItems_iff {items : List Value}
    (h : ∀ r : Record, r.toValue ∈ items → ListsAsked S tier r) {key asked : PlanKey} :
    asked ∈ tier.trailItems S key items ↔ AsksIn S tier (.nestedList key) (.list items) asked := by
  induction items with
  | nil => exact iff_of_false List.not_mem_nil (not_asksIn_nil key asked)
  | cons v rest ih =>
    have hrest := ih fun r hr => h r (List.mem_cons_of_mem _ hr)
    by_cases hv : ∃ r : Record, v = r.toValue
    · obtain ⟨r, rfl⟩ := hv
      rw [trailItems_cons, List.mem_append, h r List.mem_cons_self, asksIn_cons, ← hrest]
      cases (tier.outcome S key r (.initial S key.target)).result <;> simp
    · have hnot : ∀ r : Record, v ≠ r.toValue := fun r hr => hv ⟨r, hr⟩
      rw [trailItems_of_not_record hnot]
      exact iff_of_false List.not_mem_nil (not_asksIn_cons hnot key asked rest)

/-- The copier of a link looks at the value, unless the link hands it over. -/
theorem looks_or_handOver (tier : Tier) (l : Link) : (tier.copier l).Looks l ∨
    (tier.copier l = .handOver l ∧ l.transfer.isDirect = true) := by
  cases tier with
  | naive => exact .inl .byName
  | cached => exact .inl .byName
  | compiled =>
    rw [copier, Copier.compile]
    split
    · next h => exact .inr ⟨rfl, h⟩
    · exact .inl .byPosition

/-- There are no records to come to in a value that is neither a record nor a list. -/
theorem not_asksIn_flat {v : Value} (hv : v.IsFlat) (t : Transfer) (asked : PlanKey) :
    ¬ AsksIn S tier t v asked := by
  rintro ⟨key, inner, hmeets, -⟩
  cases hmeets with
  | record => exact hv.2 _ _ rfl
  | item => exact hv.1 _ rfl

/-- The trail of a value under a link lists what the records in it ask for. -/
theorem mem_trailIn_iff {v : Value} (h : ∀ inner : Record, v.Holds inner → ListsAsked S tier inner)
    (l : Link) {asked : PlanKey} :
    asked ∈ tier.trailIn S v (tier.copier l) ↔ AsksIn S tier l.transfer v asked := by
  rcases looks_or_handOver tier l with hc | ⟨hc, hdirect⟩
  · induction v using Value.induction with
    | flat v hv =>
      rw [trailIn_flat hv]
      exact iff_of_false List.not_mem_nil (not_asksIn_flat hv _ _)
    | list items =>
      rw [trailIn_list items hc]
      cases l.transfer with
      | nestedList key => exact mem_trailItems_iff fun r hr => h r (Value.holds_item hr)
      | nested key => simp [asksIn_nested, Record.toValue]
      | _ => simp [not_asksIn]
    | record type cells =>
      change asked ∈ tier.trailIn S (Record.toValue ⟨type, cells⟩) _ ↔
        AsksIn S tier _ (Record.toValue ⟨type, cells⟩) asked
      rw [trailIn_record _ hc]
      cases l.transfer with
      | nested key =>
        refine (h ⟨type, cells⟩ (Value.holds_self ⟨_, _⟩) key asked).trans ?_
        rw [asksIn_nested]
        constructor
        · exact fun hasks => ⟨_, rfl, hasks⟩
        · rintro ⟨r, hr, hasks⟩
          rwa [Record.toValue_injective hr]
      | nestedList key => simp [asksIn_nestedList, Record.toValue]
      | _ => simp [not_asksIn]
  · -- nothing that is handed over is looked into
    obtain ⟨hnested, hnestedList⟩ := Transfer.not_nested_of_isDirect hdirect
    rw [hc, trailIn_handOver]
    exact iff_of_false List.not_mem_nil (not_asksIn hnested hnestedList v _)

/-! ### Whole records -/

/-- Carrying out the links, in order and up to the first that fails, asks for the key. -/
def AsksFrom (S : Schema) (tier : Tier) (r : Record) (target : TypeId) (links : List Link)
    (asked : PlanKey) : Prop :=
  ∃ done l rest v, links = done ++ l :: rest ∧
    (∀ m ∈ done, ∃ p, tier.effect S r target (tier.copier m) = .ok p) ∧
    (tier.copier l).read? S r = some v ∧ AsksIn S tier l.transfer v asked

theorem asksFrom_cons {r : Record} {target : TypeId} {l : Link} {rest : List Link}
    {asked : PlanKey} : AsksFrom S tier r target (l :: rest) asked ↔
      (∃ v, (tier.copier l).read? S r = some v ∧ AsksIn S tier l.transfer v asked) ∨
      ((∃ p, tier.effect S r target (tier.copier l) = .ok p) ∧
        AsksFrom S tier r target rest asked) := by
  constructor
  · rintro ⟨done, m, later, v, hlinks, hdone, hv, hasks⟩
    cases done with
    | nil =>
      obtain ⟨rfl, -⟩ := List.cons.inj hlinks
      exact .inl ⟨v, hv, hasks⟩
    | cons first done =>
      obtain ⟨rfl, rfl⟩ := List.cons.inj hlinks
      exact .inr ⟨hdone l List.mem_cons_self, done, m, later, v, rfl,
        fun m' hm' => hdone m' (List.mem_cons_of_mem _ hm'), hv, hasks⟩
  · rintro (⟨v, hv, hasks⟩ | ⟨hl, done, m, later, v, rfl, hdone, hv, hasks⟩)
    · exact ⟨[], l, rest, v, rfl, by simp, hv, hasks⟩
    · exact ⟨l :: done, m, later, v, rfl, List.forall_mem_cons.mpr ⟨hl, hdone⟩, hv, hasks⟩

/-- A conversion asks for its own plan, and if there is one, for what its links ask for. -/
theorem asks_iff {key : PlanKey} {r : Record} {asked : PlanKey} :
    Asks S tier key r asked ↔ asked = key ∨
      ∃ plan, Plan.resolve S key = .ok plan ∧
        AsksFrom S tier r key.target plan.links asked := by
  constructor
  · intro h
    cases h with
    | here => exact .inl rfl
    | inside hplan hlinks hdone hv hmeets h =>
      exact .inr ⟨_, hplan, _, _, _, _, hlinks, hdone, hv, _, _, hmeets, h⟩
  · rintro (rfl | ⟨plan, hplan, done, l, rest, v, hlinks, hdone, hv, key', inner, hmeets, h⟩)
    · exact .here asked r
    · exact .inside hplan hlinks hdone hv hmeets h

/-- The trail of links lists what they ask for. -/
theorem mem_trailFrom_iff {src : Record}
    (h : ∀ v ∈ src.cells, ∀ inner : Record, v.Holds inner → ListsAsked S tier inner)
    (target : TypeId) (links : List Link) {asked : PlanKey} :
    asked ∈ tier.trailFrom S src target (links.map tier.copier) ↔
      AsksFrom S tier src target links asked := by
  induction links with
  | nil =>
    refine iff_of_false List.not_mem_nil ?_
    rintro ⟨done, l, rest, v, hlinks, -⟩
    cases done <;> cases hlinks
  | cons l rest ih =>
    have hhere : asked ∈ ((tier.copier l).read? S src).elim [] (tier.trailIn S · (tier.copier l)) ↔
        ∃ v, (tier.copier l).read? S src = some v ∧ AsksIn S tier l.transfer v asked := by
      cases hv : (tier.copier l).read? S src with
      | none => simp
      | some v =>
        obtain ⟨index, -, hindex⟩ := Option.bind_eq_some_iff.mp hv
        simpa using mem_trailIn_iff (h v (List.mem_of_getElem? hindex)) l
    rw [List.map_cons, trailFrom_cons, List.mem_append, hhere, asksFrom_cons, ← ih]
    cases tier.effect S src target (tier.copier l) <;> simp

/-- **The trail of a conversion lists the keys that the conversion asks for.** By induction on the
nesting of the source. -/
theorem mem_trail_iff {key : PlanKey} {r : Record} {asked : PlanKey} :
    asked ∈ tier.trail S key r ↔ Asks S tier key r asked := by
  suffices h : ListsAsked S tier r from h key asked
  induction r using Record.nestedInduction with
  | step r ih =>
    intro key asked
    rw [trail_eq, program, asks_iff]
    cases Plan.resolve S key with
    | error cause => simp
    | ok plan => simp [mem_trailFrom_iff ih]

end Tier

end Crosswalk
