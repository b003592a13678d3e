import Delivery.Proofs.Promotion.Aliases
import Delivery.Proofs.Promotion.Calls

/-! The records in a result: one for each step, of that step's alias. A call that resumes over the same steps
therefore starts from the very records that the earlier one left. -/

namespace Delivery

variable {σ : Type}

lemma StepRecord.normalize_of_aliases {records : List StepRecord} {steps : List Step}
    (h : records.map (·.stepAlias) = Step.aliases steps) : normalize records steps = records := by
  apply List.ext_getElem?
  intro j
  have hj := congrArg (·[j]?) h
  simp only [List.getElem?_map, Step.aliases_getElem?] at hj
  rw [normalize_getElem?]
  cases hr : records[j]? with
  | none =>
    rw [hr, Option.map_none, eq_comm, Option.map_eq_none_iff] at hj
    rw [hj, Option.map_none]
  | some r =>
    rw [hr, Option.map_some, eq_comm, Option.map_eq_some_iff] at hj
    obtain ⟨step, hs, ha⟩ := hj
    rw [hs, Option.map_some, carry_of_stepAlias ha.symm]

namespace PromotionRequest

variable {request : PromotionRequest} {steps : List Step}

lemma recordsFor_aliases (request : PromotionRequest) (steps : List Step) :
    (request.recordsFor steps).map (·.stepAlias) = Step.aliases steps := by
  apply List.ext_getElem?
  intro j
  rw [List.getElem?_map, StepRecord.normalize_getElem?, Step.aliases_getElem?, Option.map_map]
  congr 1
  funext step
  exact StepRecord.carry_stepAlias _ _

lemma recordsFor_eq_self (h : request.records.map (·.stepAlias) = Step.aliases steps) :
    request.recordsFor steps = request.records :=
  StepRecord.normalize_of_aliases h

lemma remaining_snd (request : PromotionRequest) (steps : List Step) :
    (request.remaining steps).map (·.2) =
      (request.recordsFor steps).drop request.startFromStep := by
  rw [List.map_drop]
  congr 1
  exact List.map_snd_zip (by simp)

end PromotionRequest

namespace Engine

variable {e : Engine σ} {request : PromotionRequest} {steps : List Step} {dir : String}
  {w w' : World σ} {p q : Place σ} {done : List (Attempt σ)} {i last : Invocation σ}

lemma Ends.records_aliases (h : e.Ends request dir p i w) :
    i.result.records.map (·.stepAlias) = p.left.map (·.record.stepAlias) := by
  cases h with
  | completed hleft => rw [hleft]; rfl
  | canceled => exact List.map_map
  | halted hleft _ _ hstop =>
    rw [hleft]
    simp [Invocation.stopped, Attempt.stepAlias_of_follow hstop]

lemma Passes.records_aliases (h : e.Passes request dir p done q)
    (hq : last.result.records.map (·.stepAlias) = q.left.map (·.record.stepAlias)) :
    (done.map Attempt.closed ++ last.result.records).map (·.stepAlias) =
      p.left.map (·.record.stepAlias) := by
  induction h with
  | here => exact hq
  | pass hleft _ hmade _ _ ih =>
    rw [hleft, List.map_cons, List.cons_append, List.map_cons, List.map_cons, ih hq]
    congr 1
    exact hmade.stepAlias

theorem promote_records_aliases (h : e.promote request steps w = some (i, w')) :
    i.result.records.map (·.stepAlias) = Step.aliases steps := by
  cases promote_concludes h with
  | @walked left dir w₀ _ done q last ha hp he =>
    have hw := hp.records_aliases he.records_aliases
    have hs := congrArg (List.map (·.2)) (assign_ok ha.assigned).1
    rw [request.remaining_snd, List.map_map] at hs
    have hl : left.map (·.record.stepAlias) =
        ((request.recordsFor steps).drop request.startFromStep).map (·.stepAlias) := by
      rw [← hs, List.map_map]
      rfl
    rw [Invocation.records_after_behind, List.map_append, hw, hl, ← List.map_append,
      List.take_append_drop, request.recordsFor_aliases]
  | refused hr =>
    cases hr with
    | invalid => exact request.recordsFor_aliases steps
    | outOfRange => exact request.recordsFor_aliases steps
    | noWorkDir => exact request.recordsFor_aliases steps
    | @unassigned u =>
      rw [← request.recordsFor_aliases steps]
      apply List.ext_getElem?
      intro j
      simp only [Invocation.errored_records, List.getElem?_map, List.getElem?_modify]
      split <;> cases (request.recordsFor steps)[j]? <;> rfl

/-! ### The records of a call that is not refused -/

variable {j : Nat}

lemma records_before (hs : request.startFromStep ≤ steps.length) (hj : j < request.startFromStep) :
    ((last.after done).behind
      ((request.recordsFor steps).take request.startFromStep)).result.records[j]? =
      (request.recordsFor steps)[j]? := by
  rw [Invocation.records_after_behind, List.getElem?_append_left, List.getElem?_take_of_lt hj]
  rw [List.length_take, StepRecord.normalize_length]
  omega

lemma records_from (hs : request.startFromStep ≤ steps.length) :
    ((last.after done).behind ((request.recordsFor steps).take
      request.startFromStep)).result.records[request.startFromStep + j]? =
      (done.map Attempt.closed ++ last.result.records)[j]? := by
  have hl : ((request.recordsFor steps).take request.startFromStep).length =
      request.startFromStep := by
    rw [List.length_take, StepRecord.normalize_length]
    omega
  rw [Invocation.records_after_behind, List.getElem?_append_right (by omega), hl,
    Nat.add_sub_cancel_left]

lemma records_passed (hs : request.startFromStep ≤ steps.length) {t : Attempt σ}
    (ht : done[j]? = some t) :
    ((last.after done).behind ((request.recordsFor steps).take
      request.startFromStep)).result.records[request.startFromStep + j]? = some t.closed := by
  have hj := (List.getElem?_eq_some_iff.mp ht).1
  rw [records_from hs, List.getElem?_append_left (by simpa using hj), List.getElem?_map, ht]
  rfl

lemma records_rest (hs : request.startFromStep ≤ steps.length) :
    ((last.after done).behind ((request.recordsFor steps).take
      request.startFromStep)).result.records[request.startFromStep + done.length + j]? =
      last.result.records[j]? := by
  rw [Nat.add_assoc, records_from hs, List.getElem?_append_right (by simp)]
  simp

end Engine
end Delivery
