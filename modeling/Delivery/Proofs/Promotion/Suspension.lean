import Delivery.Proofs.Promotion.Chain
import Delivery.Proofs.Promotion.Course

/-! The records of a promotion that is suspended: those of the steps before the current one are closed, that of the
current step waits for another attempt, and those of the steps behind it are as they were made. -/

namespace Delivery

variable {σ : Type}

namespace StepRecord

/-- The record of a step that is to be tried again: it has suspended, or it has failed less often than its threshold
allows, and then its next attempt has the full time. -/
def Waits (r : StepRecord) (threshold : UInt32) : Prop :=
  (r.status = some .running ∧ r.errorCount = 0 ∧ r.startedAt.isSome = true) ∨
    ((r.status = some .failed ∨ r.status = some .errored) ∧ 1 ≤ r.errorCount ∧
      r.errorCount < threshold ∧ r.startedAt = none)

end StepRecord

lemma Retry.one_le_increment (n : UInt32) : 1 ≤ increment n := by
  rw [UInt32.le_iff_toNat_le, toNat_increment]
  show 1 ≤ min (n.toNat + 1) 4294967295
  omega

lemma Attempt.Follows.waits {t : Attempt σ} {r r' : StepRecord} {message : Option String}
    (h : t.Follows r (.stop .running message r')) :
    r'.Waits t.threshold ∧ r'.finishedAt = r.finishedAt := by
  generalize hm : Move.stop .running message r' = move at h
  cases h with
  | succeeded => cases hm
  | canceled => cases hm
  | suspended =>
    cases hm
    exact ⟨.inl ⟨rfl, rfl, rfl⟩, rfl⟩
  | retried hs _ hlt =>
    cases hm
    refine ⟨.inr ⟨?_, Retry.one_le_increment _, hlt, rfl⟩, rfl⟩
    cases hstatus : t.result.status with
    | failed => exact .inl rfl
    | errored => exact .inr rfl
    | _ => simp [hstatus, Status.isFailure] at hs
  | aborted hs =>
    injection hm with hstatus
    simp [← hstatus, Status.isFailure] at hs

lemma Engine.record_of_assign {e : Engine σ} {request : PromotionRequest} {steps : List Step}
    {left : List (Assignment σ)}
    (h : e.assign request.startFromStep (request.remaining steps) = .ok left) (k : Nat) :
    left[k]?.map (·.record) = (request.recordsFor steps)[request.startFromStep + k]? := by
  have hs := congrArg (List.map (·.2)) (assign_ok h).1
  rw [request.remaining_snd, List.map_map] at hs
  rw [← List.getElem?_drop, ← hs, List.getElem?_map]
  rfl

section

variable {e : Engine σ} {steps : List Step}

namespace Call

variable {c : Call e steps}

lemma halts_of_running (h : c.result.status = .running) :
    ∃ (a : Assignment σ) (t : Attempt σ) (message : Option String) (r : StepRecord),
      e.Assigned c.request steps c.result.currentStep a ∧
      c.request.startFromStep ≤ c.result.currentStep ∧
      e.Resolves steps c.request.startFromStep ∧ t.threshold = a.threshold e.defaults ∧
      t.Follows a.record (.stop .running message r) ∧
      c.result.records[c.result.currentStep]? = some r ∧
      ∀ j, c.result.currentStep < j → c.result.records[j]? = (c.request.recordsFor steps)[j]? := by
  obtain ⟨request, w, i, w', hreturned⟩ := c
  cases Engine.promote_concludes hreturned with
  | refused => cases h
  | @walked left dir w₀ _ done q last ha hp he =>
    cases he with
    | completed => cases h
    | canceled => cases h
    | @halted a rest t w₁ status message r hleft hidle hmade hstop =>
      obtain rfl : status = .running := h
      have hcurrent : q.index = request.startFromStep + done.length := hp.index_eq
      have hdrop : q.left = left.drop done.length := hp.left_eq
      have hstarts : e.Starts request steps w dir done q a :=
        ⟨⟨left, w₀, ha, hp⟩, ⟨rest, hleft⟩, hidle⟩
      obtain ⟨i, hi, _, _, _, _, _, _, _, hr⟩ := hstarts.promote_of_stop hmade hstop
      obtain ⟨rfl, _⟩ := Prod.mk.inj (Option.some.inj (hi.symm.trans hreturned))
      refine ⟨a, t, message, r, hstarts.assigned, ?_, Engine.resolves_of_assign ha.assigned,
        hmade.threshold_eq, hstop ▸ t.follows a.record, hr, ?_⟩
      · show request.startFromStep ≤ q.index
        omega
      · intro j hj
        obtain ⟨k, rfl⟩ : ∃ k, j = request.startFromStep + done.length + (k + 1) :=
          ⟨j - q.index - 1, by have hj : q.index < j := hj; omega⟩
        have hbehind : q.left[k + 1]?.map (·.record) =
            (request.recordsFor steps)[request.startFromStep + done.length + (k + 1)]? := by
          rw [hdrop, List.getElem?_drop, Nat.add_assoc]
          exact Engine.record_of_assign ha.assigned _
        rw [hleft] at hbehind
        refine (Engine.records_rest ha.inRange).trans (Eq.trans ?_ hbehind)
        exact List.getElem?_map

end Call

namespace Chain

variable {initial : Payload} {past : List (Call e steps)} {last : Call e steps}

lemma records_open (h : Chain initial past last) (hrunning : ∀ c ∈ past, c.result.status = .running)
    (hs : last.result.status = .running) :
    (∃ r, last.result.records[last.result.currentStep]? = some r ∧ r.finishedAt = none) ∧
      ∀ j step, last.result.currentStep < j → steps[j]? = some step →
        last.result.records[j]? = some { stepAlias := step.aliasAt j } := by
  induction h with
  | @fresh c hstart hrecords =>
    have hmade (j : Nat) (step : Step) (hstep : steps[j]? = some step) :
        (c.request.recordsFor steps)[j]? = some { stepAlias := step.aliasAt j } := by
      rw [StepRecord.normalize_getElem?, hrecords, hstep]
      rfl
    obtain ⟨a, t, message, r, ha, _, _, _, hf, hr, hbehind⟩ := Call.halts_of_running hs
    have hrecord := ha.recordsFor_getElem?.symm.trans (hmade _ _ ha.step_eq)
    refine ⟨⟨r, hr, ?_⟩, fun j step hj hstep => (hbehind j hj).trans (hmade j step hstep)⟩
    rw [hf.waits.2, Option.some.inj hrecord]
  | @resumed past previous c base _ hresumed ih =>
    obtain ⟨⟨r₀, hr₀, hopen⟩, huntouched⟩ :=
      ih (fun p hp => hrunning p (List.mem_append_left _ hp)) (hrunning previous (by simp))
    have hkept := Call.recordsFor_of_resumed hresumed
    have hstart : c.request.startFromStep = previous.result.currentStep := by rw [hresumed]; rfl
    obtain ⟨a, t, message, r, ha, hle, _, _, hf, hr, hbehind⟩ := Call.halts_of_running hs
    have hrecord := ha.recordsFor_getElem?
    rw [hkept] at hrecord hbehind
    refine ⟨⟨r, hr, ?_⟩, ?_⟩
    · rw [hf.waits.2]
      rcases Nat.eq_or_lt_of_le (hstart ▸ hle) with heq | hlt
      · rw [← heq, hr₀, Option.some.injEq] at hrecord
        rw [← hrecord, hopen]
      · rw [huntouched _ _ hlt ha.step_eq, Option.some.injEq] at hrecord
        rw [← hrecord]
    · intro j step hj hstep
      rw [hbehind j hj]
      exact huntouched j step (by omega) hstep

theorem suspended_records (h : Chain initial past last)
    (hrunning : ∀ c ∈ past, c.result.status = .running) (hs : last.result.status = .running) :
    (∃ step runner permissions r, steps[last.result.currentStep]? = some step ∧
      e.registry.stepRunner step.kind = some (runner, permissions) ∧
      last.result.records[last.result.currentStep]? = some r ∧ r.finishedAt = none ∧
      r.Waits (Retry.effectiveThreshold step.retry runner.defaultThreshold
        e.defaults.errorThreshold)) ∧
    last.result.records.map (·.stepAlias) = Step.aliases steps ∧
    (∀ j < last.result.currentStep, ∃ r, last.result.records[j]? = some r ∧
      r.status = some .succeeded ∧ r.errorCount = 0 ∧ r.startedAt.isSome = true ∧
      r.finishedAt.isSome = true) ∧
    ∀ j step, last.result.currentStep < j → steps[j]? = some step →
      last.result.records[j]? = some { stepAlias := step.aliasAt j } := by
  obtain ⟨⟨r₀, hr₀, hopen⟩, huntouched⟩ := h.records_open hrunning hs
  obtain ⟨a, t, message, r, ha, hle, hres, hthreshold, hf, hr, _⟩ := Call.halts_of_running hs
  obtain rfl := Option.some.inj (hr.symm.trans hr₀)
  have hset := h.settled fun j step hj hstep => hres j step (Nat.le_trans hle hj) hstep
  refine ⟨⟨a.step, a.runner, a.permissions, r, ha.step_eq, ha.runner_eq, hr, hopen, ?_⟩,
    Engine.promote_records_aliases last.returned, ?_, huntouched⟩
  · have hw := hf.waits.1
    rwa [hthreshold] at hw
  · intro j hj
    obtain ⟨t, ht⟩ := hset.passed j hj
    exact ⟨t.closed, ht, rfl, rfl, rfl, rfl⟩

end Chain

end

namespace Chain
open Scripted

theorem suspended_records_scripted :
    ∃ first second : Call engine steps, Chain {} [first] second ∧
      first.result.status = .running ∧ second.result.status = .running ∧
      ∃ r, second.result.records[second.result.currentStep]? = some r ∧
        r.status = some .failed ∧ r.finishedAt = none ∧ r.Waits 2 := by
  let first : Call engine steps := .make request (world [.running, .failed]) rfl
  let second : Call engine steps := .make (request.resumeFrom first.result) first.after rfl
  have hfresh : Chain {} [] first := .fresh rfl rfl rfl
  have hchain : Chain {} [first] second := .resumed request hfresh rfl
  have hfirst : ∀ c ∈ [first], c.result.status = .running := by
    intro c hc
    rw [List.mem_singleton.mp hc]
    rfl
  obtain ⟨⟨step, runner, permissions, r, hstep, hrunner, hr, hopen, hwaits⟩, _⟩ :=
    suspended_records hchain hfirst rfl
  obtain rfl := Option.some.inj hstep
  obtain ⟨rfl, rfl⟩ := Prod.mk.inj (Option.some.inj hrunner)
  have hfailed : (second.result.records[second.result.currentStep]?).map (·.status) =
      some (some .failed) := rfl
  rw [hr, Option.map_some, Option.some.injEq] at hfailed
  exact ⟨first, second, hchain, rfl, rfl, r, hr, hfailed, hopen, hwaits⟩

end Chain
end Delivery
