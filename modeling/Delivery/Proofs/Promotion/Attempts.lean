import Delivery.Promotion.Attempt
import Mathlib.Data.List.DropRight
import Mathlib.Tactic.Common

/-! One attempt of a step: what it is made from, what it leaves behind when it succeeds, and all the ways in
which a promotion goes on after it. -/

namespace Delivery

variable {σ : Type}

namespace Status

/-- The number of failures that statuses end in; those before the first one count only if nothing came between. -/
def failuresInARow (before : Nat) (statuses : List Status) : Nat :=
  (statuses.rtakeWhile isFailure).length + if statuses.all isFailure then before else 0

@[simp] lemma failuresInARow_nil (before : Nat) : failuresInARow before [] = before := Nat.zero_add _

lemma failuresInARow_concat (before : Nat) (statuses : List Status) (status : Status) :
    failuresInARow before (statuses ++ [status]) =
      if status.isFailure then failuresInARow before statuses + 1 else 0 := by
  cases h : status.isFailure with
  | true =>
    rw [failuresInARow, List.rtakeWhile_concat_pos isFailure _ _ h, List.length_append, List.all_append]
    simp [failuresInARow, h]
    omega
  | false =>
    rw [failuresInARow, List.rtakeWhile_concat_neg isFailure _ _ (by simp [h]), List.all_append]
    simp [h]

end Status

lemma Retry.toNat_increment (n : UInt32) :
    (increment n).toNat = min (n.toNat + 1) 4294967295 := by
  have hlt := n.toNat_lt
  rw [increment]
  split
  · next hn => subst hn; rfl
  · next hn =>
    have hne : n.toNat ≠ 4294967295 := fun h => hn (UInt32.toNat_inj.mp h)
    rw [UInt32.toNat_add]
    show (n.toNat + 1) % 2 ^ 32 = _
    omega

lemma Retry.enter_of_isFailure (r : StepRecord) {status : Status} (hs : status.isFailure = true)
    (threshold : UInt32) : enter r status threshold =
      (if threshold ≤ increment r.errorCount then .abort status (increment r.errorCount) threshold
        else .retry (increment r.errorCount) threshold,
      { r with errorCount := increment r.errorCount, status := some status }) := by
  cases status <;> simp [Status.isFailure] at hs <;> rfl

namespace Attempt

def publish (t : Attempt σ) (state : Payload) : Payload :=
  state.insert t.context.stepAlias (Payload.toJson t.result.output)

def closed (t : Attempt σ) : StepRecord where
  stepAlias := t.context.stepAlias
  startedAt := some t.windowStart
  finishedAt := some t.ended
  errorCount := 0
  status := some .succeeded
  message := t.result.message

lemma succeeded_iff (t : Attempt σ) : t.succeeded = true ↔ t.result.status = .succeeded := by
  simp [succeeded]

/-- The ways on from an attempt of a step with a record. A promotion that is cancelled in the course of the
attempt leaves the count of failures as it was. -/
inductive Follows (t : Attempt σ) (r : StepRecord) : Move → Prop
  | succeeded (hs : t.result.status = .succeeded) :
      Follows t r (.advance { t.closed with stepAlias := r.stepAlias } t.result)
  | canceled (hs : t.result.status ≠ .succeeded) {cause : Cause} (hc : t.cause = some cause) :
      Follows t r (.stop .errored (some (Setback.canceled cause).message)
        { r with
          startedAt := some t.windowStart
          finishedAt := some t.ended
          status := some .errored
          message := some (Setback.canceled cause).message })
  | suspended (hs : t.result.status = .running) (hc : t.cause = none) :
      Follows t r (.stop .running t.result.message
        { r with
          startedAt := some t.windowStart
          errorCount := 0
          status := some .running
          message := t.result.message })
  | retried (hs : t.result.status.isFailure = true) (hc : t.cause = none)
      (hlt : Retry.increment r.errorCount < t.threshold) :
      Follows t r (.stop .running
        (some (retryMessage r.stepAlias t.result (Retry.increment r.errorCount) t.threshold))
        { r with
          startedAt := none
          errorCount := Retry.increment r.errorCount
          status := some t.result.status
          message := t.result.message })
  | aborted (hs : t.result.status.isFailure = true) (hc : t.cause = none)
      (hle : t.threshold ≤ Retry.increment r.errorCount) :
      Follows t r (.stop t.result.status t.result.message
        { r with
          startedAt := some t.windowStart
          finishedAt := some t.ended
          errorCount := Retry.increment r.errorCount
          status := some t.result.status
          message := t.result.message })

lemma follows_enter (t : Attempt σ) (r : StepRecord) (hs : t.result.status.isFailure = true)
    (hc : t.cause = none) :
    t.Follows r (t.enter { r with startedAt := some t.windowStart }) := by
  have he := Retry.enter_of_isFailure { r with startedAt := some t.windowStart } hs t.threshold
  simp only [enter, he]
  split
  · next heq =>
    split at heq <;> cases heq
  · next heq =>
    split at heq <;> cases heq
  · next heq =>
    split at heq
    · cases heq
    · next hlt =>
      cases heq
      exact .retried hs hc (UInt32.not_le.mp hlt)
  · next heq =>
    split at heq
    · next hle =>
      cases heq
      exact .aborted hs hc hle
    · cases heq

theorem follows (t : Attempt σ) (r : StepRecord) : t.Follows r (t.follow r) := by
  by_cases hs : t.result.status = .succeeded
  · have hd : t.succeeded = true := (succeeded_iff t).mpr hs
    have hf : t.follow r = .advance { t.closed with stepAlias := r.stepAlias } t.result := by
      simp only [follow, hd, enter, hs]
      rfl
    rw [hf]
    exact .succeeded hs
  · have hd : t.succeeded = false := by simpa [succeeded] using hs
    cases hc : t.cause with
    | some cause =>
      simp only [follow, hd, hc]
      exact .canceled hs hc
    | none =>
      have hf : t.follow r = t.enter { r with startedAt := some t.windowStart } := by
        simp only [follow, hd, hc]
      rw [hf]
      cases hr : t.result.status with
      | succeeded => exact absurd hr hs
      | running =>
        simp only [enter, hr]
        exact .suspended hr hc
      | failed => exact follows_enter t r (by rw [hr]; rfl) hc
      | errored => exact follows_enter t r (by rw [hr]; rfl) hc

lemma follow_of_succeeded {t : Attempt σ} {r : StepRecord} (hs : t.succeeded = true)
    (ha : t.context.stepAlias = r.stepAlias) : t.follow r = .advance t.closed t.result := by
  have hf := t.follows r
  have hs' := (succeeded_iff t).mp hs
  generalize t.follow r = move at hf
  cases hf with
  | succeeded => rw [← ha]; rfl
  | canceled hn => exact absurd hs' hn
  | suspended hr => simp [hs'] at hr
  | retried hr => simp [hs', Status.isFailure] at hr
  | aborted hr => simp [hs', Status.isFailure] at hr

lemma succeeded_of_follow {t : Attempt σ} {r r' : StepRecord} {result : StepResult}
    (h : t.follow r = .advance r' result) : t.succeeded = true := by
  have hf := t.follows r
  rw [h] at hf
  cases hf with
  | succeeded hs => exact (succeeded_iff t).mpr hs

lemma not_succeeded_of_isFailure {t : Attempt σ} (hs : t.result.status.isFailure = true) :
    t.succeeded = false := by
  cases h : t.result.status <;> simp_all [succeeded, Status.isFailure]

lemma not_succeeded_of_follow {t : Attempt σ} {r r' : StepRecord} {status : Status}
    {message : Option String} (h : t.follow r = .stop status message r') : t.succeeded = false := by
  have hf := t.follows r
  rw [h] at hf
  cases hf with
  | canceled hn => simpa [succeeded] using hn
  | suspended hr => simp [succeeded, hr]
  | retried hr => exact not_succeeded_of_isFailure hr
  | aborted hr => exact not_succeeded_of_isFailure hr

lemma status_ne_of_follow {t : Attempt σ} {r r' : StepRecord} {status : Status}
    {message : Option String} (h : t.follow r = .stop status message r') : status ≠ .succeeded := by
  have hf := t.follows r
  rw [h] at hf
  cases hf with
  | canceled => simp
  | suspended => simp
  | retried => simp
  | aborted hr => intro hs; simp [hs, Status.isFailure] at hr

lemma stepAlias_of_follow {t : Attempt σ} {r r' : StepRecord} {status : Status}
    {message : Option String} (h : t.follow r = .stop status message r') :
    r'.stepAlias = r.stepAlias := by
  have hf := t.follows r
  rw [h] at hf
  cases hf <;> rfl

lemma stepAlias_of_advance {t : Attempt σ} {r r' : StepRecord} {result : StepResult}
    (h : t.follow r = .advance r' result) : r'.stepAlias = r.stepAlias := by
  have hf := t.follows r
  rw [h] at hf
  cases hf
  rfl

lemma cause_of_follow {t : Attempt σ} {r r' : StepRecord} {status : Status}
    {message : Option String} (h : t.follow r = .stop status message r') (hs : status ≠ .errored) :
    t.cause = none := by
  have hf := t.follows r
  rw [h] at hf
  cases hf with
  | canceled => exact absurd rfl hs
  | suspended _ hc => exact hc
  | retried _ hc => exact hc
  | aborted _ hc => exact hc

end Attempt

namespace Attempt.Follows

variable {t : Attempt σ} {r r' : StepRecord} {move : Move} {message : Option String}

lemma of_canceled {status : Status} {cause : Cause} (h : t.Follows r (.stop status message r'))
    (hc : t.cause = some cause) : status = .errored ∧
      message = some (Setback.canceled cause).message ∧ r'.errorCount = r.errorCount := by
  cases h with
  | canceled _ hcause =>
    obtain rfl := Option.some.inj (hcause.symm.trans hc)
    exact ⟨rfl, rfl, rfl⟩
  | suspended _ hn => simp [hn] at hc
  | retried _ hn => simp [hn] at hc
  | aborted _ hn => simp [hn] at hc

lemma startedAt_of_running (h : t.Follows r move) (hs : t.result.status = .running) :
    ∃ status message r', move = .stop status message r' ∧ r'.startedAt = some t.windowStart := by
  cases h with
  | succeeded hn => simp [hs] at hn
  | canceled => exact ⟨_, _, _, rfl, rfl⟩
  | suspended => exact ⟨_, _, _, rfl, rfl⟩
  | retried hn => simp [hs, Status.isFailure] at hn
  | aborted hn => simp [hs, Status.isFailure] at hn

lemma startedAt_of_retried (h : t.Follows r (.stop .running message r'))
    (hs : t.result.status.isFailure = true) : r'.startedAt = none := by
  generalize hm : Move.stop .running message r' = move at h
  cases h with
  | succeeded => cases hm
  | canceled => cases hm
  | suspended hn => simp [hn, Status.isFailure] at hs
  | retried =>
    cases hm
    rfl
  | aborted hn =>
    injection hm with hstatus
    simp [← hstatus, Status.isFailure] at hn

end Attempt.Follows

namespace StepRunner

/-- The ways in which a call of a runner is concluded: it is not made, it is answered in time, it is cut off, or
it has no limit and is answered. -/
inductive Concludes (runner : StepRunner σ) (context : StepContext σ) (timeout : Option Span)
    (elapsed : Span) (w : World σ) : Bool → Conclusion → World σ → Prop
  | exhausted {limit : Span} (ht : timeout = some limit)
      (hle : limit.nanoseconds ≤ elapsed.nanoseconds) :
      Concludes runner context timeout elapsed w false (.timedOut limit) w
  | answered {limit : Span} {answer : Except RunnerError StepResult} {w' : World σ}
      (ht : timeout = some limit) (hlt : elapsed.nanoseconds < limit.nanoseconds)
      (hrun : (runner.run context).run
        (some (w.time + (limit.nanoseconds - elapsed.nanoseconds))) w = (.answered answer, w')) :
      Concludes runner context timeout elapsed w true (.ofAnswer answer) w'
  | cutOff {limit : Span} {w' : World σ} (ht : timeout = some limit)
      (hlt : elapsed.nanoseconds < limit.nanoseconds)
      (hrun : (runner.run context).run
        (some (w.time + (limit.nanoseconds - elapsed.nanoseconds))) w = (.cutOff, w')) :
      Concludes runner context timeout elapsed w true (.timedOut limit) w'
  | unlimited {answer : Except RunnerError StepResult} {w' : World σ} (ht : timeout = none)
      (hrun : (runner.run context).run none w = (.answered answer, w')) :
      Concludes runner context timeout elapsed w true (.ofAnswer answer) w'

variable {runner : StepRunner σ} {context : StepContext σ} {timeout : Option Span} {elapsed : Span}
  {w w' : World σ} {conclusion : Conclusion}

theorem concludes_of_invoke {invoked : Bool}
    (h : runner.invoke context timeout elapsed w = some (invoked, conclusion, w')) :
    runner.Concludes context timeout elapsed w invoked conclusion w' := by
  cases timeout with
  | none =>
    simp only [invoke] at h
    split at h
    · next answer w₁ hrun =>
      cases h
      exact .unlimited rfl hrun
    · cases h
    · cases h
  | some limit =>
    simp only [invoke, Retry.remainingBudget, Span.remainder?] at h
    by_cases hlt : elapsed.nanoseconds < limit.nanoseconds
    · simp only [if_pos hlt] at h
      split at h
      · next answer w₁ hrun =>
        cases h
        exact .answered rfl hlt hrun
      · next w₁ hrun =>
        cases h
        exact .cutOff rfl hlt hrun
      · cases h
    · simp only [if_neg hlt] at h
      cases h
      exact .exhausted rfl (Nat.not_lt.mp hlt)

end StepRunner

namespace Engine

structure Makes (e : Engine σ) (request : PromotionRequest) (dir : String) (index : Nat)
    (state : Payload) (a : Assignment σ) (w : World σ) (t : Attempt σ) (w' : World σ) : Prop where
  index_eq : t.index = index
  context_eq : t.context = (ContextBuilder.mk e.collaborators e.uiBaseUrl).step a.permissions request
    dir a.step a.record.stepAlias state
  began_eq : t.began = w.clock w.readings
  windowStart_eq : t.windowStart = a.record.startedAt.getD t.began
  timeout_eq : t.timeout = a.timeout e.defaults
  threshold_eq : t.threshold = a.threshold e.defaults
  answer : ∃ w₁, a.runner.invoke t.context t.timeout (t.began.since t.windowStart) w.now.2 =
    some (t.invoked, t.conclusion, w₁) ∧ t.cause = w₁.signal.cause ∧ t.ended = w₁.now.1 ∧
      w' = w₁.now.2

theorem makes_of_attempt {e : Engine σ} {request : PromotionRequest} {dir : String} {index : Nat}
    {state : Payload} {a : Assignment σ} {w w' : World σ} {t : Attempt σ}
    (h : e.attempt request dir index state a w = some (t, w')) :
    e.Makes request dir index state a w t w' := by
  simp only [attempt, Option.bind_eq_bind, Option.bind_eq_some_iff] at h
  obtain ⟨⟨invoked, conclusion, w₁⟩, hi, ht⟩ := h
  cases ht
  exact ⟨rfl, rfl, rfl, rfl, rfl, rfl, w₁, hi, rfl, rfl, rfl⟩

lemma invoke_of_attempt_eq_none {e : Engine σ} {request : PromotionRequest} {dir : String}
    {index : Nat} {state : Payload} {a : Assignment σ} {w : World σ}
    (h : e.attempt request dir index state a w = none) :
    a.runner.invoke ((ContextBuilder.mk e.collaborators e.uiBaseUrl).step a.permissions request dir
      a.step a.record.stepAlias state) (a.timeout e.defaults)
      (w.now.1.since (a.record.startedAt.getD w.now.1)) w.now.2 = none := by
  by_contra hn
  obtain ⟨answer, ha⟩ := Option.ne_none_iff_exists'.mp hn
  simp [attempt, ha] at h

namespace Makes

variable {e : Engine σ} {request : PromotionRequest} {dir : String} {index : Nat} {state : Payload}
  {a : Assignment σ} {w w' : World σ} {t : Attempt σ}

theorem attempt_eq (h : e.Makes request dir index state a w t w') :
    e.attempt request dir index state a w = some (t, w') := by
  obtain ⟨hindex, hcontext, hbegan, hstart, htimeout, hthreshold, w₁, hinvoke, hcause, hended, rfl⟩ := h
  cases t
  dsimp only at hindex hcontext hbegan hstart htimeout hthreshold hinvoke hcause hended
  subst hindex hcontext hbegan hstart htimeout hthreshold hcause hended
  exact Option.bind_eq_some_iff.mpr ⟨_, hinvoke, rfl⟩

lemma stepAlias (h : e.Makes request dir index state a w t w') :
    t.context.stepAlias = a.record.stepAlias := by rw [h.context_eq]; rfl

lemma sharedState (h : e.Makes request dir index state a w t w') :
    t.context.sharedState = state := by rw [h.context_eq]; rfl

lemma cause (h : e.Makes request dir index state a w t w') : t.cause = w'.signal.cause := by
  obtain ⟨w₁, _, hc, _, rfl⟩ := h.answer
  exact hc

lemma invoked_of_succeeded (h : e.Makes request dir index state a w t w')
    (hs : t.succeeded = true) : t.invoked = true := by
  obtain ⟨w₁, hi, _⟩ := h.answer
  have hconcludes := StepRunner.concludes_of_invoke hi
  generalize hv : t.invoked = invoked, hc : t.conclusion = conclusion at hconcludes
  cases hconcludes with
  | exhausted => simp [Attempt.succeeded, Attempt.result, Conclusion.result, hc] at hs
  | _ => rfl

end Makes
end Engine
end Delivery
