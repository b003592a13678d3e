import Delivery.Proofs.Inputs.Loading
import Delivery.Proofs.Inputs.Shapes

/-!
What a schema accepts, and what is read as values of the type. The schema of criteria leaves nothing to refuse.
That of steps says how large a count is from below only, and not how it is held.
-/

namespace Delivery
namespace Inputs

variable {j : Json}

/-- Every number in the retry policies of steps is held as an integer of its type. -/
def CountsFit (j : Json) : Prop :=
  ∀ items, j = .array items → ∀ ms, .object ms ∈ items → ∀ rs, Entries.get? "retry" ms = some (.object rs) →
    RetryPolicy.CountsFit rs

lemma read_criteria (hcanonical : j.Canonical) (haccepts : criteriaSchema.Accepts j) :
    ∃ criteria, (Codec.list Criterion.codec).ofJson j = .ok criteria := by
  obtain ⟨items, rfl, hitems⟩ := Criterion.accepts_schema.mp haccepts
  have hread : ∀ item ∈ items, ∃ c, Criterion.codec.read .value (.ofJson item) = .ok c := by
    intro item hitem
    obtain ⟨ms, rfl, hms⟩ := hitems item hitem
    have hobject := Json.canonicalItems_iff.mp hcanonical _ hitem
    obtain ⟨c, hc⟩ := Criterion.exists_heldBy hobject hms
    exact ⟨c, (Criterion.read_object hobject).mpr hc⟩
  obtain ⟨criteria, hcriteria⟩ := Codec.exists_readAll_ofItems.mpr hread
  exact ⟨criteria, Codec.read_list.mpr ⟨.value, rfl, hcriteria, rfl⟩⟩

lemma read_steps_iff (hcanonical : j.Canonical) (haccepts : stepsSchema.Accepts j) :
    (∃ steps, (Codec.list Step.codec).ofJson j = .ok steps) ↔ CountsFit j := by
  obtain ⟨items, rfl, hitems⟩ := Step.accepts_schema.mp haccepts
  have hlist : (∃ steps, (Codec.list Step.codec).ofJson (.array items) = .ok steps) ↔
      ∃ steps, Step.codec.readAll .value (Draft.ofItems items) = .ok steps := by
    refine exists_congr fun steps => Codec.read_list.trans ⟨?_, fun h => ⟨.value, rfl, h, rfl⟩⟩
    rintro ⟨_, henter, h, _⟩
    cases henter
    exact h
  have hread : ∀ ms, .object ms ∈ items → ((∃ s, Step.codec.read .value (.ofJson (.object ms)) = .ok s) ↔
      ∀ rs, Entries.get? "retry" ms = some (.object rs) → RetryPolicy.CountsFit rs) := by
    intro ms hms
    obtain ⟨_, heq, hformed⟩ := hitems _ hms
    cases heq
    have hobject := Json.canonicalItems_iff.mp hcanonical _ hms
    rw [← Step.exists_heldBy hobject hformed]
    exact exists_congr fun s => Step.read_object hobject hformed
  rw [hlist, Codec.exists_readAll_ofItems]
  constructor
  · intro h _ heq ms hms
    cases heq
    exact (hread ms hms).mp (h _ hms)
  · intro h item hitem
    obtain ⟨ms, rfl, _⟩ := hitems item hitem
    exact (hread ms hitem).mpr (h items rfl ms hitem)

theorem schema_accepts_read :
    (∀ j : Json, j.Canonical → criteriaSchema.Accepts j →
      ∃ criteria, (Codec.list Criterion.codec).ofJson j = .ok criteria) ∧
    (∀ j : Json, j.Canonical → stepsSchema.Accepts j →
      ((∃ steps, (Codec.list Step.codec).ofJson j = .ok steps) ↔ CountsFit j)) ∧
    ∀ (t : FileTree) (path : FilePath),
      (∀ fault, loadCriteria t path ≠ .error (.fault ("deserialize health checks " ++ path.text) fault)) ∧
      ((∃ fault, loadSteps t path = .error (.fault ("deserialize promotion steps " ++ path.text) fault)) ↔
        ∃ text j, t.readText path = .ok text ∧ Codec.json.ofText text = .ok j ∧ stepsSchema.Accepts j ∧
          ¬ CountsFit j) := by
  refine ⟨fun j => read_criteria, fun j => read_steps_iff, fun t path => ⟨fun fault h => ?_, ?_⟩⟩
  · obtain ⟨text, j, _, hj, haccepts, hfault⟩ := loadChecked_deserialize.mp h
    have hcanonical := Draft.canonical_of_toJson _ (Codec.ofText_eq_ok.mp hj).1
    obtain ⟨criteria, hread⟩ := read_criteria hcanonical haccepts
    cases hread.symm.trans hfault
  · constructor
    · rintro ⟨fault, h⟩
      obtain ⟨text, j, htext, hj, haccepts, hfault⟩ := loadChecked_deserialize.mp (loadSteps_fault.mp h)
      have hcanonical := Draft.canonical_of_toJson _ (Codec.ofText_eq_ok.mp hj).1
      refine ⟨text, j, htext, hj, haccepts, fun hfit => ?_⟩
      obtain ⟨steps, hread⟩ := (read_steps_iff hcanonical haccepts).mpr hfit
      cases hread.symm.trans hfault
    · rintro ⟨text, j, htext, hj, haccepts, hmisfit⟩
      have hcanonical := Draft.canonical_of_toJson _ (Codec.ofText_eq_ok.mp hj).1
      cases hread : (Codec.list Step.codec).ofJson j with
      | ok steps => exact absurd ((read_steps_iff hcanonical haccepts).mp ⟨steps, hread⟩) hmisfit
      | error fault =>
        exact ⟨fault, loadSteps_fault.mpr (loadChecked_deserialize.mpr ⟨text, j, htext, hj, haccepts, hread⟩)⟩

theorem schema_accepts_read_integer :
    (∃ j : Json, Codec.json.ofText "[\x7b\"kind\":\"c\",\"config\":\x7b\x7d\x7d]" = .ok j ∧ criteriaSchema.Accepts j ∧
      ∃ criteria, (Codec.list Criterion.codec).ofJson j = .ok criteria) ∧
    ∃ j : Json, Codec.json.ofText "[\x7b\"kind\":\"a\",\"retry\":\x7b\"timeoutSecs\":1\x7d\x7d]" = .ok j ∧
      stepsSchema.Accepts j ∧ CountsFit j := by
  constructor
  · obtain ⟨j, hj, hcanonical, haccepts⟩ : ∃ j : Json,
        Codec.json.ofText "[\x7b\"kind\":\"c\",\"config\":\x7b\x7d\x7d]" = .ok j ∧ j.Canonical ∧
          criteriaSchema.Accepts j :=
      exists_ok_of_any (by decide +kernel)
    exact ⟨j, hj, haccepts, schema_accepts_read.1 j hcanonical haccepts⟩
  · obtain ⟨j, hj, hcanonical, haccepts, hsteps⟩ : ∃ j : Json,
        Codec.json.ofText "[\x7b\"kind\":\"a\",\"retry\":\x7b\"timeoutSecs\":1\x7d\x7d]" = .ok j ∧ j.Canonical ∧
          stepsSchema.Accepts j ∧ ((Codec.list Step.codec).ofJson j).isOk :=
      exists_ok_of_any (by decide +kernel)
    refine ⟨j, hj, haccepts, (schema_accepts_read.2.1 j hcanonical haccepts).mp ?_⟩
    cases hread : (Codec.list Step.codec).ofJson j with
    | ok steps => exact ⟨steps, rfl⟩
    | error fault =>
      rw [hread] at hsteps
      cases hsteps

theorem schema_accepts_unread : ∃ j : Json,
    Codec.json.ofText "[\x7b\"kind\":\"a\",\"retry\":\x7b\"timeoutSecs\":1.0\x7d\x7d]" = .ok j ∧ j.Canonical ∧
      stepsSchema.Accepts j ∧ ¬ ∃ steps, (Codec.list Step.codec).ofJson j = .ok steps := by
  obtain ⟨j, hj, hcanonical, haccepts, hsteps⟩ : ∃ j : Json,
      Codec.json.ofText "[\x7b\"kind\":\"a\",\"retry\":\x7b\"timeoutSecs\":1.0\x7d\x7d]" = .ok j ∧ j.Canonical ∧
        stepsSchema.Accepts j ∧ ((Codec.list Step.codec).ofJson j).isOk = false :=
    exists_ok_of_any (by decide +kernel)
  refine ⟨j, hj, hcanonical, haccepts, fun ⟨steps, hread⟩ => ?_⟩
  rw [hread] at hsteps
  cases hsteps

end Inputs
end Delivery
