import Delivery.Inputs
import Delivery.Proofs.Json.Members
import Delivery.Proofs.Json.Schemas

/-!
The values that the schemas of the input files accept, and what such a value is read as.
-/

namespace Delivery

variable {origin inner : Origin} {ms rs : List (String × Json)} {j : Json}

def Json.IsCount (bound : Nat) (j : Json) : Prop := ∃ n < bound, j = .ofNat n

lemma exists_member {key : String} {good : Json → Prop} :
    ((∀ v, Entries.get? key ms = some v → good v) ∧ key ∈ ms.map (·.1)) ↔
      ∃ v, Entries.get? key ms = some v ∧ good v := by
  cases hv : Entries.get? key ms with
  | none => exact iff_of_false (fun h => Entries.get?_eq_none.mp hv h.2) fun ⟨_, h, _⟩ => nomatch h
  | some v =>
    have hmem : key ∈ ms.map (·.1) := by
      by_contra hnone
      cases hv.symm.trans (Entries.get?_eq_none.mpr hnone)
    simp [hmem]

lemma canonical_member (h : (Json.object ms).Canonical) {key : String} {v : Json} (hv : Entries.get? key ms = some v) :
    v.Canonical :=
  Json.canonicalMembers_iff.mp h.2 _ (Entries.mem_of_get? hv)

lemma exists_payload (h : (Json.object ms).Canonical) {key : String}
    (hobject : ∀ v, Entries.get? key ms = some v → ∃ cs, v = .object cs) :
    ∃ p : Payload, (Entries.get? key ms = none ∧ p = {}) ∨ Entries.get? key ms = some p.toJson := by
  cases hv : Entries.get? key ms with
  | none => exact ⟨{}, Or.inl ⟨rfl, rfl⟩⟩
  | some v =>
    obtain ⟨cs, rfl⟩ := hobject v hv
    exact ⟨⟨cs, (canonical_member h hv).1⟩, Or.inr rfl⟩

/-! ### Retry policies -/

namespace RetryPolicy

structure HeldBy (members : List (String × Json)) (p : RetryPolicy) : Prop where
  timeoutSecs : Entries.get? "timeoutSecs" members = p.timeoutSecs.map fun n => .ofNat n.toNat
  errorThreshold : Entries.get? "errorThreshold" members = p.errorThreshold.map fun n => .ofNat n.toNat

structure CountsFit (members : List (String × Json)) : Prop where
  timeoutSecs : ∀ v, Entries.get? "timeoutSecs" members = some v → v.IsCount (twoPower 64)
  errorThreshold : ∀ v, Entries.get? "errorThreshold" members = some v → v.IsCount (twoPower 32)

lemma exists_heldBy : (∃ p, HeldBy rs p) ↔ CountsFit rs := by
  constructor
  · rintro ⟨p, htimeout, hthreshold⟩
    constructor
    · intro v hv
      obtain ⟨n, _, rfl⟩ := Option.map_eq_some_iff.mp (htimeout.symm.trans hv)
      exact ⟨n.toNat, n.toNat_lt, rfl⟩
    · intro v hv
      obtain ⟨n, _, rfl⟩ := Option.map_eq_some_iff.mp (hthreshold.symm.trans hv)
      exact ⟨n.toNat, n.toNat_lt, rfl⟩
  · rintro ⟨htimeout, hthreshold⟩
    have hword64 : ∃ t : Option UInt64, Entries.get? "timeoutSecs" rs = t.map fun n => .ofNat n.toNat := by
      cases hv : Entries.get? "timeoutSecs" rs with
      | none => exact ⟨none, rfl⟩
      | some v =>
        obtain ⟨n, hn, rfl⟩ := htimeout v hv
        exact ⟨some (.ofNat n), congrArg (some ∘ Json.ofNat) (UInt64.toNat_ofNat_of_lt' hn).symm⟩
    have hword32 : ∃ e : Option UInt32, Entries.get? "errorThreshold" rs = e.map fun n => .ofNat n.toNat := by
      cases hv : Entries.get? "errorThreshold" rs with
      | none => exact ⟨none, rfl⟩
      | some v =>
        obtain ⟨n, hn, rfl⟩ := hthreshold v hv
        exact ⟨some (.ofNat n), congrArg (some ∘ Json.ofNat) (UInt32.toNat_ofNat_of_lt' hn).symm⟩
    obtain ⟨t, ht⟩ := hword64
    obtain ⟨e, he⟩ := hword32
    exact ⟨⟨t, e⟩, ht, he⟩

lemma read_object {p : RetryPolicy} (hkeys : (rs.map (·.1)).Nodup)
    (htimeout : Entries.get? "timeoutSecs" rs ≠ some .null)
    (hthreshold : Entries.get? "errorThreshold" rs ≠ some .null) :
    codec.read .value (.ofJson (.object rs)) = .ok p ↔ p.HeldBy rs := by
  refine (Codec.read_record_object (by decide) hkeys).trans ?_
  simp only [Origin.enter, Except.ok.injEq, exists_eq_left', Fields.Holds, Prod.exists, and_true,
    Field.holds_optional_exact (fun _ _ => Codec.exact_word64) htimeout,
    Field.holds_optional_exact (fun _ _ => Codec.exact_word32) hthreshold]
  constructor
  · rintro ⟨t, e, _, ⟨ht, he⟩, rfl⟩
    exact ⟨ht, he⟩
  · rintro ⟨ht, he⟩
    exact ⟨p.timeoutSecs, p.errorThreshold, (), ⟨ht, he⟩, rfl⟩

/-- An object that the schema of a retry policy accepts: its numbers are whole and not negative, in either form and
of any size. -/
structure Formed (members : List (String × Json)) : Prop where
  names : ∀ name ∈ members.map (·.1), name ∈ ["errorThreshold", "timeoutSecs"]
  timeoutSecs : ∀ v, Entries.get? "timeoutSecs" members = some v → Schema.count.Accepts v
  errorThreshold : ∀ v, Entries.get? "errorThreshold" members = some v → Schema.count.Accepts v

lemma accepts_schema : Inputs.retrySchema.Accepts j ↔ ∃ rs, j = .object rs ∧ Formed rs := by
  refine Schema.accepts_record.trans (exists_congr fun rs => and_congr_right' ?_)
  simp only [List.forall_mem_cons]
  exact ⟨fun ⟨⟨hthreshold, htimeout, _⟩, hnames, _⟩ => ⟨hnames, htimeout, hthreshold⟩,
    fun h => ⟨⟨h.errorThreshold, h.timeoutSecs, List.forall_mem_nil _⟩, h.names, List.forall_mem_nil _⟩⟩

lemma Formed.ne_null (h : Formed rs) :
    Entries.get? "timeoutSecs" rs ≠ some .null ∧ Entries.get? "errorThreshold" rs ≠ some .null :=
  ⟨fun hnull => absurd (h.timeoutSecs _ hnull) (by decide), fun hnull => absurd (h.errorThreshold _ hnull) (by decide)⟩

end RetryPolicy

/-! ### Steps -/

namespace Step

/-- The members of an object hold what the step says; what is missing stands for its default. -/
structure HeldBy (members : List (String × Json)) (s : Step) : Prop where
  kind : Entries.get? "kind" members = some (.string s.kind)
  givenAlias : Entries.get? "alias" members = s.givenAlias.map .string
  config : (Entries.get? "config" members = none ∧ s.config = {}) ∨
    Entries.get? "config" members = some s.config.toJson
  retry : (Entries.get? "retry" members = none ∧ s.retry = none) ∨
    ∃ rs p, Entries.get? "retry" members = some (.object rs) ∧ s.retry = some p ∧ p.HeldBy rs

structure Formed (members : List (String × Json)) : Prop where
  names : ∀ name ∈ members.map (·.1), name ∈ ["alias", "config", "kind", "retry"]
  kind : ∃ kind, Entries.get? "kind" members = some (.string kind) ∧ kind ≠ ""
  givenAlias : ∀ v, Entries.get? "alias" members = some v → ∃ a, v = .string a ∧ Inputs.isAlias a.toList = true
  config : ∀ v, Entries.get? "config" members = some v → ∃ cs, v = .object cs
  retry : ∀ v, Entries.get? "retry" members = some v → ∃ rs, v = .object rs ∧ RetryPolicy.Formed rs

lemma accepts_schema : Inputs.stepsSchema.Accepts j ↔
    ∃ items, j = .array items ∧ ∀ item ∈ items, ∃ ms, item = .object ms ∧ Formed ms := by
  refine Schema.accepts_list.trans (exists_congr fun items => and_congr_right' (forall₂_congr fun item _ => ?_))
  refine Schema.accepts_record.trans (exists_congr fun ms => and_congr_right' ?_)
  simp only [List.forall_mem_cons, Schema.accepts_pattern, Schema.accepts_notEmpty, Schema.accepts_anyObject,
    RetryPolicy.accepts_schema]
  constructor
  · rintro ⟨⟨halias, hconfig, hkind, hretry, _⟩, hnames, hthere, _⟩
    obtain ⟨_, hv, kind, rfl, hne⟩ := exists_member.mp ⟨hkind, hthere⟩
    exact ⟨hnames, ⟨kind, hv, hne⟩, halias, hconfig, hretry⟩
  · rintro ⟨hnames, ⟨kind, hv, hne⟩, halias, hconfig, hretry⟩
    have hmember : ∃ v, Entries.get? "kind" ms = some v ∧ ∃ s, v = .string s ∧ s ≠ "" := ⟨_, hv, kind, rfl, hne⟩
    obtain ⟨hkind, hthere⟩ := exists_member.mpr hmember
    exact ⟨⟨halias, hconfig, hkind, hretry, List.forall_mem_nil _⟩, hnames, hthere, List.forall_mem_nil _⟩

lemma read_object {s : Step} (hcanonical : (Json.object ms).Canonical) (hformed : Formed ms) :
    codec.read .value (.ofJson (.object ms)) = .ok s ↔ s.HeldBy ms := by
  have halias : Entries.get? "alias" ms ≠ some .null := fun hnull => by
    obtain ⟨_, hv, _⟩ := hformed.givenAlias _ hnull
    cases hv
  have hretry : Entries.get? "retry" ms ≠ some .null := fun hnull => by
    obtain ⟨_, hv, _⟩ := hformed.retry _ hnull
    cases hv
  have hconfig : ∀ v, Entries.get? "config" ms = some v → Codec.payload.Exact .value v := fun v hv =>
    Codec.exact_payload (by trivial) (canonical_member hcanonical hv)
  have hpolicy : ∀ v p, Entries.get? "retry" ms = some v → (RetryPolicy.codec.read .value (.ofJson v) = .ok p ↔
      ∃ rs, v = .object rs ∧ p.HeldBy rs) := by
    intro v p hv
    obtain ⟨rs, rfl, hrs⟩ := hformed.retry v hv
    have hkeys := Keyed.nodup_keys ⟨rs, (canonical_member hcanonical hv).1⟩
    rw [RetryPolicy.read_object hkeys hrs.ne_null.1 hrs.ne_null.2]
    simp only [Json.object.injEq, exists_eq_left']
  refine (Codec.read_record_object (by decide) (Keyed.nodup_keys ⟨ms, hcanonical.1⟩)).trans ?_
  simp only [Origin.enter, Except.ok.injEq, exists_eq_left', Fields.Holds, Prod.exists, and_true,
    Field.holds_required (fun _ _ => Codec.exact_text), Field.holds_optional_exact (fun _ _ => Codec.exact_text) halias,
    Field.holds_defaulted hconfig, Field.holds_optional hretry]
  constructor
  · rintro ⟨kind, givenAlias, config, retry, _, ⟨hkind, halias, hconfig, hretry⟩, rfl⟩
    refine ⟨hkind, halias, hconfig, hretry.imp_right ?_⟩
    rintro ⟨v, p, hv, hp, hread⟩
    obtain ⟨rs, rfl, hrs⟩ := (hpolicy v p hv).mp hread
    exact ⟨rs, p, hv, hp, hrs⟩
  · rintro ⟨hkind, halias, hconfig, hretry⟩
    refine ⟨s.kind, s.givenAlias, s.config, s.retry, (), ⟨hkind, halias, hconfig, hretry.imp_right ?_⟩, rfl⟩
    rintro ⟨rs, p, hv, hp, hrs⟩
    exact ⟨.object rs, p, hv, hp, (hpolicy _ p hv).mpr ⟨rs, rfl, hrs⟩⟩

lemma HeldBy.countsFit {s : Step} (hs : s.HeldBy ms) (hrs : Entries.get? "retry" ms = some (.object rs)) :
    RetryPolicy.CountsFit rs := by
  obtain ⟨hnone, _⟩ | ⟨_, p, hv, _, hp⟩ := hs.retry
  · cases hnone.symm.trans hrs
  · cases hv.symm.trans hrs
    exact RetryPolicy.exists_heldBy.mp ⟨p, hp⟩

lemma exists_heldBy (hcanonical : (Json.object ms).Canonical) (hformed : Formed ms) :
    (∃ s, HeldBy ms s) ↔ ∀ rs, Entries.get? "retry" ms = some (.object rs) → RetryPolicy.CountsFit rs := by
  constructor
  · rintro ⟨s, hs⟩ rs hrs
    exact hs.countsFit hrs
  · intro hfit
    obtain ⟨kind, hkind, _⟩ := hformed.kind
    have halias : ∃ a : Option String, Entries.get? "alias" ms = a.map .string := by
      cases hv : Entries.get? "alias" ms with
      | none => exact ⟨none, rfl⟩
      | some v =>
        obtain ⟨a, rfl, _⟩ := hformed.givenAlias v hv
        exact ⟨some a, rfl⟩
    have hretry : ∃ r : Option RetryPolicy, (Entries.get? "retry" ms = none ∧ r = none) ∨
        ∃ rs p, Entries.get? "retry" ms = some (.object rs) ∧ r = some p ∧ p.HeldBy rs := by
      cases hv : Entries.get? "retry" ms with
      | none => exact ⟨none, Or.inl ⟨rfl, rfl⟩⟩
      | some v =>
        obtain ⟨rs, rfl, _⟩ := hformed.retry v hv
        obtain ⟨p, hp⟩ := RetryPolicy.exists_heldBy.mpr (hfit rs hv)
        exact ⟨some p, Or.inr ⟨rs, p, rfl, rfl, hp⟩⟩
    obtain ⟨a, ha⟩ := halias
    obtain ⟨c, hc⟩ := exists_payload hcanonical hformed.config
    obtain ⟨r, hr⟩ := hretry
    exact ⟨⟨kind, a, c, r⟩, hkind, ha, hc, hr⟩

end Step

/-! ### Criteria -/

namespace Criterion

structure HeldBy (members : List (String × Json)) (c : Criterion) : Prop where
  kind : Entries.get? "kind" members = some (.string c.kind)
  config : (Entries.get? "config" members = none ∧ c.config = {}) ∨
    Entries.get? "config" members = some c.config.toJson
  bare : c.project = "" ∧ c.stage = ""

structure Formed (members : List (String × Json)) : Prop where
  names : ∀ name ∈ members.map (·.1), name ∈ ["config", "kind"]
  kind : ∃ kind, Entries.get? "kind" members = some (.string kind) ∧ kind ≠ ""
  config : ∀ v, Entries.get? "config" members = some v → ∃ cs, v = .object cs

lemma accepts_schema : Inputs.criteriaSchema.Accepts j ↔
    ∃ items, j = .array items ∧ ∀ item ∈ items, ∃ ms, item = .object ms ∧ Formed ms := by
  refine Schema.accepts_list.trans (exists_congr fun items => and_congr_right' (forall₂_congr fun item _ => ?_))
  refine Schema.accepts_record.trans (exists_congr fun ms => and_congr_right' ?_)
  simp only [List.forall_mem_cons, Schema.accepts_notEmpty, Schema.accepts_anyObject]
  constructor
  · rintro ⟨⟨hconfig, hkind, _⟩, hnames, hthere, _⟩
    obtain ⟨_, hv, kind, rfl, hne⟩ := exists_member.mp ⟨hkind, hthere⟩
    exact ⟨hnames, ⟨kind, hv, hne⟩, hconfig⟩
  · rintro ⟨hnames, ⟨kind, hv, hne⟩, hconfig⟩
    have hmember : ∃ v, Entries.get? "kind" ms = some v ∧ ∃ s, v = .string s ∧ s ≠ "" := ⟨_, hv, kind, rfl, hne⟩
    obtain ⟨hkind, hthere⟩ := exists_member.mpr hmember
    exact ⟨⟨hconfig, hkind, List.forall_mem_nil _⟩, hnames, hthere, List.forall_mem_nil _⟩

lemma read_object {c : Criterion} (hcanonical : (Json.object ms).Canonical) :
    codec.read .value (.ofJson (.object ms)) = .ok c ↔ c.HeldBy ms := by
  have hconfig : ∀ v, Entries.get? "config" ms = some v → Codec.payload.Exact .value v := fun v hv =>
    Codec.exact_payload (by trivial) (canonical_member hcanonical hv)
  refine (Codec.read_record_object (by decide) (Keyed.nodup_keys ⟨ms, hcanonical.1⟩)).trans ?_
  simp only [Origin.enter, Except.ok.injEq, exists_eq_left', Fields.Holds, Prod.exists, and_true,
    Field.holds_required (fun _ _ => Codec.exact_text), Field.holds_defaulted hconfig]
  constructor
  · rintro ⟨kind, config, _, ⟨hkind, hconfig⟩, rfl⟩
    exact ⟨hkind, hconfig, rfl, rfl⟩
  · rintro ⟨hkind, hconfig, hproject, hstage⟩
    refine ⟨c.kind, c.config, (), ⟨hkind, hconfig⟩, ?_⟩
    obtain ⟨_, _, _, _⟩ := c
    subst hproject hstage
    rfl

lemma exists_heldBy (hcanonical : (Json.object ms).Canonical) (hformed : Formed ms) : ∃ c, HeldBy ms c := by
  obtain ⟨kind, hkind, _⟩ := hformed.kind
  obtain ⟨config, hconfig⟩ := exists_payload hcanonical hformed.config
  exact ⟨{ kind, config }, hkind, hconfig, rfl, rfl⟩

end Criterion
end Delivery
