import Delivery.ComposeOutput
import Delivery.Proofs.Promotion.Checked
import Delivery.Proofs.Promotion.Refusal
import Delivery.Proofs.Promotion.Threshold

/-! What a call keeps of the records that it is given, whatever they are. The records of its result are those of the
steps, one for each, and each is what the call makes of the one at its place. -/

namespace Delivery

variable {σ : Type}

namespace StepRecord

structure Carried (previous : Option StepRecord) (stepAlias : String) (r : StepRecord) : Prop where
  kept : ∀ p, previous = some p → (r = p ↔ p.stepAlias = stepAlias)
  fresh : (∀ p, previous = some p → p.stepAlias ≠ stepAlias) → r = { stepAlias }

lemma carried_carry (previous : Option StepRecord) (stepAlias : String) :
    Carried previous stepAlias (carry previous stepAlias) where
  kept := by
    rintro p rfl
    refine ⟨?_, carry_of_stepAlias⟩
    intro h
    rw [← h, carry_stepAlias]
  fresh h := by
    cases previous with
    | none => rfl
    | some p => simp [carry, Option.filter, h p rfl]

end StepRecord

def Move.record : Move → StepRecord
  | .advance record _ => record
  | .stop _ _ record => record

namespace Engine

/-- What a call makes of the record that the step at an index starts from. -/
inductive Alters (e : Engine σ) (request : PromotionRequest) (steps : List Step) (w : World σ) (i : Invocation σ)
    (j : Nat) (r : StepRecord) : StepRecord → Prop
  | untouched (ha : i.attempts.filter (·.index = j) = []) : Alters e request steps w i j r r
  | attempted {t : Attempt σ} {move : Move} (ha : i.attempts.filter (·.index = j) = [t]) (hf : t.Follows r move) :
      Alters e request steps w i j r move.record
  | marked {step : Step} (ha : i.attempts = []) (hu : e.FirstUnresolved steps request.startFromStep j)
      (hstep : steps[j]? = some step) :
      Alters e request steps w i j r
        { r with
          status := some .errored
          message := some (Setback.unknownKind (step.aliasAt j) step.kind).message
          finishedAt := some w.now.1 }

variable {e : Engine σ} {request : PromotionRequest} {steps : List Step} {w w' : World σ} {i : Invocation σ} {j : Nat}
  {r : StepRecord}

lemma stepAlias_of_promote (h : e.promote request steps w = some (i, w')) {step : Step}
    (hstep : steps[j]? = some step) (hr : i.result.records[j]? = some r) : r.stepAlias = step.aliasAt j := by
  have haliases := congrArg (·[j]?) (promote_records_aliases h)
  simpa [Step.aliases_getElem?, hstep, hr] using haliases

theorem alters_of_promote (h : e.promote request steps w = some (i, w')) {step : Step} (hstep : steps[j]? = some step)
    (hrecord : (request.recordsFor steps)[j]? = some r) :
    ∃ r', i.result.records[j]? = some r' ∧ e.Alters request steps w i j r r' := by
  cases promote_concludes h with
  | refused hrefused =>
    cases hrefused with
    | @unassigned u _ _ hu =>
      obtain ⟨hfirst, step', hstep', hsetback⟩ := unassigned_of_assign hu
      simp only [Invocation.errored_records]
      by_cases hj : u.index = j
      · subst hj
        rw [List.getElem?_modify_eq, hrecord]
        refine ⟨_, rfl, ?_⟩
        rw [Unassigned.mark, hsetback]
        exact .marked rfl hfirst hstep'
      · rw [List.getElem?_modify_ne _ _ hj]
        exact ⟨r, hrecord, .untouched rfl⟩
    | _ => exact ⟨r, hrecord, .untouched rfl⟩
  | @walked left dir w₀ _ done q last ha hp he =>
    have hw : Call.Walked (⟨request, w, _, w', h⟩ : Call e steps) left dir w₀ done q last := ⟨ha, hp, he, rfl⟩
    cases hw.handles (List.getElem?_eq_some_iff.mp hstep).1 hrecord with
    | spared ha hr => exact ⟨r, hr, .untouched ha⟩
    | @passed t ha hs hr =>
      have hclosed : { t.closed with stepAlias := r.stepAlias } = t.closed := by
        rw [StepRecord.normalize_getElem?, hstep, Option.map_some, Option.some.injEq] at hrecord
        rw [← hrecord, StepRecord.carry_stepAlias, ← stepAlias_of_promote h hstep hr]
      have hf := Attempt.Follows.succeeded (r := r) ((Attempt.succeeded_iff t).mp hs)
      rw [hclosed] at hf
      exact ⟨_, hr, .attempted ha hf⟩
    | halted ha _ _ hf hr => exact ⟨_, hr, .attempted ha hf⟩

theorem promote_never_crashes (e : Engine σ) (request : PromotionRequest) (steps : List Step) (w : World σ) :
    e.promoteChecked request steps w = .ok (e.promote request steps w) ∧
    ∀ i w', e.promote request steps w = some (i, w') →
      i.result.records.length = steps.length ∧
      (∀ j step, steps[j]? = some step →
        ∃ r r', StepRecord.Carried request.records[j]? (step.aliasAt j) r ∧
          i.result.records[j]? = some r' ∧ r'.stepAlias = step.aliasAt j ∧ e.Alters request steps w i j r r') ∧
      StepRecord.normalize i.result.records steps = i.result.records := by
  refine ⟨e.promoteChecked_eq request steps w, ?_⟩
  intro i w' h
  have haliases := promote_records_aliases h
  refine ⟨?_, ?_, StepRecord.normalize_of_aliases haliases⟩
  · have hlength := congrArg List.length (StepRecord.normalize_of_aliases haliases)
    rw [StepRecord.normalize_length] at hlength
    exact hlength.symm
  · intro j step hstep
    have hrecord : (request.recordsFor steps)[j]? = some (.carry request.records[j]? (step.aliasAt j)) := by
      rw [StepRecord.normalize_getElem?, hstep, Option.map_some]
    obtain ⟨r', hr', halters⟩ := alters_of_promote h hstep hrecord
    exact ⟨_, r', StepRecord.carried_carry .., hr', stepAlias_of_promote h hstep hr', halters⟩

end Engine

/-! ### Records that have been tampered with -/

namespace Tampered

def steps : List Step :=
  [{ kind := composeOutputKind }, { kind := composeOutputKind, givenAlias := some "image" }]

def engine : Engine Unit where
  registry := .withBuiltins
  workDirRoot := ⟨"/tmp"⟩

def request : PromotionRequest where
  project := "payments"
  stage := "prod"
  promotion := "prod.01"
  workDir := some "/work"
  records :=
    [{ stepAlias := "step-0", startedAt := some ⟨4102444800, 0⟩, errorCount := 4294967295 },
      { stepAlias := "source", errorCount := 3 }, { stepAlias := "image" }]

def world : World Unit := ⟨0, .idle, (), default, fun _ => ⟨0, 0⟩, 0⟩

end Tampered

namespace Engine
open Tampered

theorem promote_never_crashes_tampered :
    ∃ i w', engine.promote request steps world = some (i, w') ∧
      engine.promoteChecked request steps world = .ok (some (i, w')) ∧ i.result.records.length = 2 ∧
      StepRecord.normalize i.result.records steps = i.result.records := by
  obtain ⟨hchecked, hkept⟩ := promote_never_crashes engine request steps world
  obtain ⟨i, w', hi⟩ : ∃ i w', engine.promote request steps world = some (i, w') := ⟨_, _, rfl⟩
  obtain ⟨hlength, _, hnormal⟩ := hkept i w' hi
  exact ⟨i, w', hi, hchecked.trans (congrArg Except.ok hi), hlength, hnormal⟩

end Engine
end Delivery
