import Delivery.ComposeOutput
import Delivery.Health.Run
import Delivery.Proofs.Promotion.Calls
import Delivery.Proofs.Promotion.Refusal

/-!
An engine with what comes with it and nothing else. Each of its calls is answered, and a step that is run either puts
out its configuration or is too late.
-/

namespace Delivery

variable {σ : Type}

namespace Registry

lemma stepRunner_withBuiltins (kind : String) : (withBuiltins : Registry σ).stepRunner kind =
    if kind = composeOutputKind then some (composeOutput, .none) else none := by
  rw [stepRunner, withBuiltins, lookup_register]
  by_cases h : kind = composeOutputKind
  · rw [if_pos h, if_pos h]
    rfl
  · rw [if_neg h, if_neg h]
    rfl

lemma healthChecker_withBuiltins (kind : String) : (withBuiltins : Registry σ).healthChecker kind = none := by
  rw [healthChecker, withBuiltins, lookup_register]
  by_cases h : kind = composeOutputKind
  · rw [if_pos h]
    rfl
  · rw [if_neg h]
    rfl

end Registry

lemma invoke_composeOutput (context : StepContext σ) (timeout : Option Span) (elapsed : Span) (w : World σ) :
    composeOutput.invoke context timeout elapsed w =
        some (true, .reported { status := .succeeded, output := context.config }, w) ∨
      ∃ limit, composeOutput.invoke context timeout elapsed w = some (false, .timedOut limit, w) := by
  cases timeout with
  | none => exact Or.inl rfl
  | some limit =>
    rw [StepRunner.invoke]
    cases Retry.remainingBudget limit elapsed with
    | none => exact Or.inr ⟨limit, rfl⟩
    | some left => exact Or.inl rfl

/-! ### Messages -/

namespace Setback

/-- The words with which the message of a call begins, unless its steps are invalid. -/
def openings : List String := ["start step ", "step ", "promotion canceled: ", "prepare working directory: "]

def Opens (message : String) : Prop := ∃ word ∈ openings, ∃ rest, message = word ++ rest

lemma opens_append {word : String} (h : word ∈ openings) (rest : String) : Opens (word ++ rest) := ⟨word, h, rest, rfl⟩

lemma opens_startOutOfRange (start steps : Nat) : Opens (startOutOfRange start steps).message := by
  have hmessage : (startOutOfRange start steps).message =
      "start step " ++ toString start ++ " is out of range for " ++ toString steps ++ " steps" := rfl
  simp only [hmessage, String.append_assoc]
  exact opens_append (by decide) _

lemma opens_unknownKind (stepAlias kind : String) : Opens (unknownKind stepAlias kind).message := by
  have hmessage : (unknownKind stepAlias kind).message = "step " ++ Text.quoted stepAlias ++
      ": no promotion step runner registered for step kind " ++ Text.quoted kind := rfl
  simp only [hmessage, String.append_assoc]
  exact opens_append (by decide) _

lemma opens_timedOut (stepAlias : String) (timeout : Span) : Opens (timedOut stepAlias timeout).message := by
  have hmessage : (timedOut stepAlias timeout).message =
      "step " ++ Text.quoted stepAlias ++ " timed out after " ++ timeout.render := rfl
  simp only [hmessage, String.append_assoc]
  exact opens_append (by decide) _

lemma opens_canceled (cause : Cause) : Opens (canceled cause).message :=
  opens_append (by decide) _

lemma opens_noWorkDir (dir : FilePath) (error : FileError) : Opens (noWorkDir dir error).message :=
  opens_append (by decide) _

lemma opens_retryMessage (stepAlias : String) (result : StepResult) (errorCount threshold : UInt32) :
    Opens (Attempt.retryMessage stepAlias result errorCount threshold) := by
  simp only [Attempt.retryMessage, String.append_assoc]
  exact opens_append (by decide) _

end Setback

lemma Attempt.mem_publishAll {steps : List Step} {done : List (Attempt σ)} {state : Payload} {x : String × Json}
    (hdone : ∀ t ∈ done, ∃ step ∈ steps, t.result.output = step.config) (hx : x ∈ (publishAll done state).entries) :
    x ∈ state.entries ∨ ∃ step ∈ steps, x.2 = step.config.toJson := by
  induction done generalizing state with
  | nil => exact Or.inl hx
  | cons t done ih =>
    obtain ⟨ht, hdone⟩ := List.forall_mem_cons.mp hdone
    obtain hmem | hstep := ih hdone hx
    · obtain rfl | hold := Entries.mem_insert hmem
      · obtain ⟨step, hstep, houtput⟩ := ht
        exact Or.inr ⟨step, hstep, by rw [houtput]⟩
      · exact Or.inl hold
    · exact Or.inr hstep

namespace Engine

variable {e : Engine σ} {request : PromotionRequest} {steps : List Step} {w w' : World σ} {i : Invocation σ}
  {dir : String} {index : Nat} {state : Payload} {a : Assignment σ} {t : Attempt σ}

lemma Makes.conclusion_builtin (ha : a.runner = composeOutput) (h : e.Makes request dir index state a w t w') :
    t.conclusion = .reported { status := .succeeded, output := a.step.config } ∨
      ∃ limit, t.conclusion = .timedOut limit := by
  obtain ⟨w₁, hinvoke, _⟩ := h.answer
  rw [ha] at hinvoke
  obtain hrun | ⟨limit, hrun⟩ := invoke_composeOutput t.context t.timeout (t.began.since t.windowStart) w.now.2
  · rw [hrun] at hinvoke
    have hconclusion := (Prod.mk.inj (Prod.mk.inj (Option.some.inj hinvoke)).2).1
    rw [h.context_eq] at hconclusion
    exact Or.inl hconclusion.symm
  · rw [hrun] at hinvoke
    exact Or.inr ⟨limit, (Prod.mk.inj (Prod.mk.inj (Option.some.inj hinvoke)).2).1.symm⟩

lemma Makes.opens_builtin (ha : a.runner = composeOutput) (h : e.Makes request dir index state a w t w')
    {record r : StepRecord} {status : Status} {message : String}
    (hstop : t.follow record = .stop status (some message) r) : Setback.Opens message := by
  have hresult : ∀ m, t.result.message = some m → Setback.Opens m := by
    intro m hm
    obtain hreported | ⟨limit, hlate⟩ := h.conclusion_builtin ha
    · rw [Attempt.result, hreported] at hm
      cases hm
    · rw [Attempt.result, hlate] at hm
      obtain rfl := Option.some.inj hm
      exact Setback.opens_timedOut _ _
  have hfollows := t.follows record
  rw [hstop] at hfollows
  -- the move is an index of what follows, so it is a variable before the cases
  generalize hmove : Move.stop status (some message) r = move at hfollows
  cases hfollows with
  | succeeded => cases hmove
  | canceled =>
    obtain rfl := Option.some.inj (Move.stop.inj hmove).2.1
    exact Setback.opens_canceled _
  | suspended => exact hresult message (Move.stop.inj hmove).2.1.symm
  | retried =>
    obtain rfl := Option.some.inj (Move.stop.inj hmove).2.1
    exact Setback.opens_retryMessage _ _ _ _
  | aborted => exact hresult message (Move.stop.inj hmove).2.1.symm

section

variable (hb : e.registry = .withBuiltins)

include hb

lemma Assigned.runner_builtin (h : e.Assigned request steps index a) : a.runner = composeOutput := by
  have hrunner := h.runner_eq
  rw [hb, Registry.stepRunner_withBuiltins] at hrunner
  split at hrunner
  · exact (Prod.mk.inj (Option.some.inj hrunner)).1.symm
  · cases hrunner

theorem promote_ne_none : e.promote request steps w ≠ none := by
  intro h
  -- a call without a result would wait for a step that never ends, and no built-in one does
  obtain ⟨left, dir, w₀, done, q, ha, hp, a, rest, hleft, _, hn⟩ := promote_waits h
  have hassigned : e.Assigned request steps (request.startFromStep + done.length) a := by
    apply assigned_of_assign ha.assigned
    rw [← List.head?_drop, ← hp.left_eq, hleft]
    rfl
  have hinvoke := invoke_of_attempt_eq_none hn
  rw [hassigned.runner_builtin hb] at hinvoke
  obtain hrun | ⟨_, hrun⟩ := invoke_composeOutput _ _ _ _
  · cases hrun.symm.trans hinvoke
  · cases hrun.symm.trans hinvoke

lemma Admits.done_builtin {left : List (Assignment σ)} {w₀ : World σ} {done : List (Attempt σ)} {q : Place σ}
    (ha : e.Admits request steps w left dir w₀)
    (hp : e.Passes request dir ⟨request.startFromStep, request.state, left, w₀⟩ done q) (ht : t ∈ done) :
    ∃ step ∈ steps, t.result = { status := .succeeded, output := step.config } := by
  obtain ⟨j, hj⟩ := List.getElem?_of_mem ht
  obtain ⟨a, w, w', hleft, hmade⟩ := hp.made hj
  have hassigned := assigned_of_assign ha.assigned hleft
  refine ⟨a.step, List.mem_of_getElem? hassigned.step_eq, ?_⟩
  obtain hreported | ⟨limit, hlate⟩ := hmade.conclusion_builtin (hassigned.runner_builtin hb)
  · rw [Attempt.result, hreported, Conclusion.result]
  · have hs := hp.succeeded t ht
    rw [Attempt.succeeded, Attempt.result, hlate] at hs
    cases hs

theorem healthChecks_builtin (h : e.promote request steps w = some (i, w')) : i.result.healthChecks = [] := by
  cases promote_concludes h with
  | refused => rfl
  | @walked left dir w₀ _ done q last ha hp he =>
    have hdone : done.filterMap (·.result.healthCheck) = [] := by
      refine List.filterMap_eq_nil_iff.mpr fun t ht => ?_
      obtain ⟨step, _, hresult⟩ := ha.done_builtin hb hp ht
      rw [hresult]
    calc
      _ = done.filterMap (·.result.healthCheck) ++ last.result.healthChecks := rfl
      _ = [] := by rw [hdone, he.healthChecks_eq, List.nil_append]

theorem state_builtin (h : e.promote request steps w = some (i, w')) {x : String × Json}
    (hx : x ∈ i.result.state.entries) : x ∈ request.state.entries ∨ ∃ step ∈ steps, x.2 = step.config.toJson := by
  cases promote_concludes h with
  | refused => exact Or.inl hx
  | @walked left dir w₀ _ done q last ha hp he =>
    have hstate : ((last.after done).behind ((request.recordsFor steps).take request.startFromStep)).result.state =
        Attempt.publishAll done request.state := he.state_eq.trans hp.state_eq
    rw [hstate] at hx
    have hdone : ∀ t ∈ done, ∃ step ∈ steps, t.result.output = step.config := by
      intro t ht
      obtain ⟨step, hstep, hresult⟩ := ha.done_builtin hb hp ht
      exact ⟨step, hstep, by rw [hresult]⟩
    exact Attempt.mem_publishAll hdone hx

theorem message_builtin (hv : StepProblem.ofSteps steps = []) (h : e.promote request steps w = some (i, w'))
    {message : String} (hm : i.result.message = some message) : Setback.Opens message := by
  cases promote_concludes h with
  | refused hr =>
    obtain rfl := Option.some.inj hm
    cases hr with
    | invalid hinvalid => exact absurd hv hinvalid
    | outOfRange => exact Setback.opens_startOutOfRange _ _
    | unassigned => exact Setback.opens_unknownKind _ _
    | noWorkDir _ _ _ hd =>
      obtain ⟨error, rfl⟩ := workDir_error (congrArg Prod.fst hd)
      exact Setback.opens_noWorkDir _ _
  | @walked left dir w₀ _ done q last ha hp he =>
    have hlast : last.result.message = some message := hm
    cases he with
    | completed => cases hlast
    | canceled =>
      obtain rfl := Option.some.inj hlast
      exact Setback.opens_canceled _
    | @halted a rest t w status halt r hleft hidle hmade hstop =>
      obtain rfl : halt = some message := hlast
      have hassigned : e.Assigned request steps (request.startFromStep + done.length) a := by
        apply assigned_of_assign ha.assigned
        rw [← List.head?_drop, ← hp.left_eq, hleft]
        rfl
      exact hmade.opens_builtin (hassigned.runner_builtin hb) hstop

lemma runChecks_builtin (project stage : String) (criteria : List Criterion) (w : World σ) :
    ∃ run, e.runChecks project stage criteria w = some (run, w) ∧ ∀ r ∈ run.results, r.output = none := by
  induction criteria with
  | nil => exact ⟨_, rfl, List.forall_mem_nil _⟩
  | cons criterion rest ih =>
    rw [runChecks]
    cases w.signal.cause with
    | some cause => exact ⟨_, rfl, List.forall_mem_singleton.mpr rfl⟩
    | none =>
      obtain ⟨later, hlater, houtputs⟩ := ih
      simp only [hb, Registry.healthChecker_withBuiltins, hlater]
      exact ⟨_, rfl, List.forall_mem_cons.mpr ⟨rfl, houtputs⟩⟩

theorem checkHealth_builtin (project stage : String) (criteria : List Criterion) (w : World σ) :
    ∃ verdict, e.checkHealth project stage criteria w = some (verdict, w) ∧ verdict.output = none := by
  obtain ⟨run, hrun, houtputs⟩ := runChecks_builtin hb project stage criteria w
  refine ⟨.ofResults run.results, by rw [checkHealth, hrun]; rfl, ?_⟩
  have hnone : run.results.filterMap (·.output) = [] := List.filterMap_eq_nil_iff.mpr houtputs
  simp [HealthVerdict.ofResults, hnone]

end

end Engine
end Delivery
