import Delivery.Credentials
import Delivery.Proofs.Json.Records
import Delivery.Proofs.Time.Rendering
import Delivery.Settings.Basic

/-!
The types that have a form on the wire. What is written for a value is read as that value, as a text and
by way of an opaque object.
-/

namespace Delivery

variable {n : Nat}

/-! ### The codec of each type -/

lemma Instant.lawful_codec : Instant.codec.Lawful n where
  survives {origin d t} _ _ hread := by
    refine .of_fixed rfl ?_ (List.forall_mem_nil _)
    simp only [codec] at hread
    split at hread
    · split at hread
      · next htext =>
        cases hread
        simp only [codec, Draft.ofJson, ofText_render htext]
      · cases hread
    · exact absurd hread (Codec.wrongType_ne_ok _ _)
  null _ h := by cases h

lemma Status.lawful_codec : Status.codec.Lawful n :=
  Codec.lawful_variant fun s => by cases s <;> rfl

lemma HealthState.lawful_codec : HealthState.codec.Lawful n :=
  Codec.lawful_variant fun s => by cases s <;> rfl

lemma CredentialKind.lawful_codec : CredentialKind.codec.Lawful n :=
  Codec.lawful_variant fun k => by cases k <;> rfl

lemma Codec.reads_emptyPayload {origin : Origin} (h : origin.Room (n + 1)) :
    ∃ d : Draft, d.InRange ∧ payload.read origin d = .ok {} := by
  obtain ⟨inner, henter⟩ := h.exists_enter
  exact ⟨.object [] .closed, by decide, read_payload.mpr ⟨inner, [], henter, rfl, rfl, rfl⟩⟩

lemma Codec.reads_nil {α : Type} {c : Codec α} {origin : Origin} (h : origin.Room (n + 1)) :
    ∃ d : Draft, d.InRange ∧ c.list.read origin d = .ok [] := by
  obtain ⟨inner, henter⟩ := h.exists_enter
  exact ⟨.array [] .closed, by decide, read_list.mpr ⟨inner, henter, rfl, rfl⟩⟩

lemma RetryPolicy.lawful_codec : RetryPolicy.codec.Lawful (n + 1) :=
  Codec.lawful_record
    ⟨Field.lawful_optional Codec.lawful_word64 _, Field.lawful_optional Codec.lawful_word32 _, trivial⟩
    (by decide) fun _ => rfl

lemma Step.lawful_codec : Step.codec.Lawful (n + 2) :=
  Codec.lawful_record
    ⟨Field.lawful_required (Codec.lawful_string _) _, Field.lawful_optional (Codec.lawful_string _) _,
      Field.lawful_defaulted Codec.lawful_payload _ Codec.reads_emptyPayload,
      Field.lawful_optional RetryPolicy.lawful_codec _, trivial⟩
    (by decide) fun _ => rfl

lemma Criterion.lawful_codec : Criterion.codec.Lawful (n + 2) :=
  Codec.lawful_record
    ⟨Field.lawful_required (Codec.lawful_string _) _,
      Field.lawful_defaulted Codec.lawful_payload _ Codec.reads_emptyPayload, trivial⟩
    (by decide) fun _ => rfl

lemma CheckResult.lawful_codec : CheckResult.codec.Lawful (n + 2) :=
  Codec.lawful_record
    ⟨Field.lawful_required HealthState.lawful_codec _, Field.lawful_optional Codec.lawful_payload _,
      Field.lawful_listed (Codec.lawful_string _) _, trivial⟩
    (by decide) fun _ => rfl

lemma HealthVerdict.lawful_codec : HealthVerdict.codec.Lawful (n + 2) :=
  Codec.lawful_record
    ⟨Field.lawful_required HealthState.lawful_codec _, Field.lawful_listed (Codec.lawful_string _) _,
      Field.lawful_optional Codec.lawful_json _, trivial⟩
    (by decide) fun _ => rfl

lemma StepResult.lawful_codec : StepResult.codec.Lawful (n + 3) :=
  Codec.lawful_record
    ⟨Field.lawful_required Status.lawful_codec _, Field.lawful_optional (Codec.lawful_string _) _,
      Field.lawful_defaulted Codec.lawful_payload _ Codec.reads_emptyPayload,
      Field.lawful_optional Criterion.lawful_codec _, trivial⟩
    (by decide) fun _ => rfl

lemma StepRecord.lawful_codec : StepRecord.codec.Lawful (n + 1) :=
  Codec.lawful_record
    ⟨Field.lawful_required (Codec.lawful_string _) _, Field.lawful_optional Instant.lawful_codec _,
      Field.lawful_optional Instant.lawful_codec _,
      Field.lawful_defaulted Codec.lawful_word32 _ fun _ => ⟨.number (some (.integer 0)), by decide, rfl⟩,
      Field.lawful_optional Status.lawful_codec _, Field.lawful_optional (Codec.lawful_string _) _, trivial⟩
    (by decide) fun _ => rfl

lemma PromotionResult.lawful_codec : PromotionResult.codec.Lawful (n + 4) :=
  Codec.lawful_record
    ⟨Field.lawful_required Status.lawful_codec _, Field.lawful_optional (Codec.lawful_string _) _,
      Field.lawful_required Codec.lawful_position _, Field.lawful_required Codec.lawful_payload _,
      Field.lawful_required StepRecord.lawful_codec.list _, Field.lawful_listed Criterion.lawful_codec _, trivial⟩
    (by decide) fun _ => rfl

lemma PromotionRequest.lawful_codec : PromotionRequest.codec.Lawful (n + 3) :=
  Codec.lawful_record
    ⟨Field.lawful_required (Codec.lawful_string _) _, Field.lawful_required (Codec.lawful_string _) _,
      Field.lawful_required (Codec.lawful_string _) _, Field.lawful_optional (Codec.lawful_string _) _,
      Field.lawful_defaulted Codec.lawful_payload _ Codec.reads_emptyPayload,
      Field.lawful_defaulted Codec.lawful_position _ fun _ => ⟨.number (some (.integer 0)), by decide, rfl⟩,
      Field.lawful_defaulted StepRecord.lawful_codec.list _ Codec.reads_nil,
      Field.lawful_defaulted Codec.lawful_payload.list _ Codec.reads_nil, trivial⟩
    (by decide) fun _ => rfl

lemma Credential.lawful_codec : Credential.codec.Lawful (n + 1) :=
  Codec.lawful_record
    ⟨Field.lawful_required (Codec.lawful_string _) _, Field.lawful_required (Codec.lawful_string _) _, trivial⟩
    (by decide) fun _ => rfl

lemma PromotionDefaults.lawful_codec : PromotionDefaults.codec.Lawful (n + 1) :=
  Codec.lawful_record
    ⟨Field.lawful_defaulted Codec.lawful_word32 _ fun _ => ⟨.number (some (.integer 1)), by decide, rfl⟩,
      Field.lawful_defaulted Codec.lawful_word64 _ fun _ => ⟨.number (some (.integer 0)), by decide, rfl⟩, trivial⟩
    (by decide) fun _ => rfl

lemma PromotionDefaults.reads_default {origin : Origin} (h : origin.Room (n + 1)) :
    ∃ d : Draft, d.InRange ∧ codec.read origin d = .ok {} := by
  obtain ⟨inner, henter⟩ := h.exists_enter
  exact ⟨.object [] .closed, by decide, map_eq_ok.mpr ⟨_, bind_eq_ok.mpr ⟨inner, henter, rfl⟩, rfl⟩⟩

lemma Settings.lawful_codec : Settings.codec.Lawful (n + 2) :=
  Codec.lawful_record
    ⟨Field.lawful_defaulted (Codec.lawful_string _) _ fun _ => ⟨.string (some ""), by decide, rfl⟩,
      Field.lawful_optional (Codec.lawful_string _) _,
      Field.lawful_defaulted PromotionDefaults.lawful_codec _ PromotionDefaults.reads_default, trivial⟩
    (by decide) fun _ => rfl

/-! ### Every type -/

inductive WireType where
  | step
  | criterion
  | retryPolicy
  | healthState
  | checkResult
  | healthVerdict
  | status
  | stepResult
  | stepRecord
  | request
  | result
  | config
  | state
  | credential
  | credentialKind
  | settings
  | promotionDefaults
deriving DecidableEq, Repr

namespace WireType

abbrev Value : WireType → Type
  | step => Step
  | criterion => Criterion
  | retryPolicy => RetryPolicy
  | healthState => HealthState
  | checkResult => CheckResult
  | healthVerdict => HealthVerdict
  | status => Status
  | stepResult => StepResult
  | stepRecord => StepRecord
  | request => PromotionRequest
  | result => PromotionResult
  | config => Payload
  | state => Payload
  | credential => Credential
  | credentialKind => CredentialKind
  | settings => Settings
  | promotionDefaults => PromotionDefaults

def codec : (t : WireType) → Codec t.Value
  | step => Step.codec
  | criterion => Criterion.codec
  | retryPolicy => RetryPolicy.codec
  | healthState => HealthState.codec
  | checkResult => CheckResult.codec
  | healthVerdict => HealthVerdict.codec
  | status => Status.codec
  | stepResult => StepResult.codec
  | stepRecord => StepRecord.codec
  | request => PromotionRequest.codec
  | result => PromotionResult.codec
  | config => Codec.payload
  | state => Codec.payload
  | credential => Credential.codec
  | credentialKind => CredentialKind.codec
  | settings => Settings.codec
  | promotionDefaults => PromotionDefaults.codec

lemma lawful_codec : (t : WireType) → t.codec.Lawful 4
  | step => Step.lawful_codec
  | criterion => Criterion.lawful_codec
  | retryPolicy => RetryPolicy.lawful_codec
  | healthState => HealthState.lawful_codec
  | checkResult => CheckResult.lawful_codec
  | healthVerdict => HealthVerdict.lawful_codec
  | status => Status.lawful_codec
  | stepResult => StepResult.lawful_codec
  | stepRecord => StepRecord.lawful_codec
  | request => PromotionRequest.lawful_codec
  | result => PromotionResult.lawful_codec
  | config => Codec.lawful_payload
  | state => Codec.lawful_payload
  | credential => Credential.lawful_codec
  | credentialKind => CredentialKind.lawful_codec
  | settings => Settings.lawful_codec
  | promotionDefaults => PromotionDefaults.lawful_codec

end WireType

/-! ### Texts -/

lemma Number.readsBack_of_inRange {ns : List Number} (hrange : ∀ m ∈ ns, m.InRange)
    (hreal : ∀ x, .real x ∈ ns → (Number.real x).ReadsBack) : ∀ m ∈ ns, m.ReadsBack
  | .integer _, hm => readsBack_integer (hrange _ hm)
  | .real x, hm => hreal x hm

namespace Codec

variable {α : Type} {c : Codec α}

lemma ofText_compact {j : Json} {a : α} (hnumbers : ∀ m ∈ j.numbers, m.ReadsBack)
    (h : c.read .start (.ofJson j) = .ok a) : c.ofText j.compact = .ok a := by
  rw [ofText, Document.ofText_compact hnumbers]
  exact bind_eq_ok.mpr ⟨a, h, rfl⟩

lemma read_of_ofText {text : String} {a : α} (h : c.ofText text = .ok a) :
    c.read .start (Document.ofText text).root = .ok a := by
  obtain ⟨b, hread, h⟩ := bind_eq_ok.mp h
  split at h
  · obtain rfl := pure_eq_ok.mp h
    exact hread
  · cases h

end Codec

theorem WireType.ofText_write (t : WireType) {text : String} {v : t.Value} (hread : t.codec.ofText text = .ok v)
    (hreal : ∀ x, .real x ∈ (t.codec.write v).numbers → (Number.real x).ReadsBack) :
    t.codec.ofText (t.codec.write v).compact = .ok v ∧
      ∀ members, t.codec.write v = .object members →
        ∃ p, Codec.payload.ofText (t.codec.write v).compact = .ok p ∧ t.codec.ofPayload p = .ok v := by
  have hroom : Origin.start.Room 4 := by simp [Origin.start, Origin.Room]
  obtain ⟨hagain, ⟨k, hk, hheld⟩, hrange⟩ :=
    t.lawful_codec.survives hroom (Document.inRange_root text) (Codec.read_of_ofText hread)
  have hnumbers := Number.readsBack_of_inRange hrange hreal
  refine ⟨Codec.ofText_compact hnumbers hagain, fun members hmembers => ?_⟩
  have hsame := Draft.numbers_toJson _ _ hk
  rw [Draft.numbers_ofJson] at hsame
  rw [hmembers] at hk
  obtain ⟨inner, ms, henter, hms, hclose, rfl⟩ := Draft.toJson_object.mp hk
  refine ⟨Keyed.ofList ms, Codec.ofText_compact hnumbers ?_, ?_⟩
  · rw [hmembers]
    exact Codec.read_payload.mpr ⟨inner, ms, henter, hms, hclose, rfl⟩
  · exact Codec.ofText_compact (fun m hm => hnumbers m (hsame hm)) hheld

theorem WireType.ofText_write_array :
    ∃ v : Step, step.codec.ofText "[\"k\",null,\x7b\"b\":0.5,\"a\":[true,1]\x7d]" = .ok v ∧
      (∀ x, .real x ∈ (step.codec.write v).numbers → (Number.real x).ReadsBack) ∧
      (step.codec.write v).compact = "\x7b\"kind\":\"k\",\"config\":\x7b\"a\":[true,1],\"b\":0.5\x7d\x7d" ∧
      step.codec.ofText (step.codec.write v).compact = .ok v ∧
      ∃ p, Codec.payload.ofText (step.codec.write v).compact = .ok p ∧ step.codec.ofPayload p = .ok v := by
  have hsome : (step.codec.ofText "[\"k\",null,\x7b\"b\":0.5,\"a\":[true,1]\x7d]").toOption.isSome := by
    decide +kernel
  have hall : ∀ v ∈ (step.codec.ofText "[\"k\",null,\x7b\"b\":0.5,\"a\":[true,1]\x7d]").toOption,
      (∀ n ∈ (step.codec.write v).numbers, n.ReadsBack) ∧
        (step.codec.write v).compact = "\x7b\"kind\":\"k\",\"config\":\x7b\"a\":[true,1],\"b\":0.5\x7d\x7d" := by
    decide +kernel
  cases hread : step.codec.ofText "[\"k\",null,\x7b\"b\":0.5,\"a\":[true,1]\x7d]" with
  | error fault =>
    rw [hread] at hsome
    cases hsome
  | ok v =>
    obtain ⟨hnumbers, hcompact⟩ := hall v (by rw [hread]; rfl)
    have hreal : ∀ x, .real x ∈ (step.codec.write v).numbers → (Number.real x).ReadsBack :=
      fun x hx => hnumbers _ hx
    obtain ⟨hagain, hobject⟩ := ofText_write step hread hreal
    exact ⟨v, rfl, hreal, hcompact, hagain, hobject _ rfl⟩

end Delivery
