import Delivery.Proofs.Promotion.Aliases
import Delivery.Proofs.Promotion.Calls

/-! The effect of one call. The attempts that succeed are those of the first steps, in order; at most one more
is made; and the outputs and health checks of those that succeed are all that the call leaves. -/

namespace Delivery

variable {σ : Type}

namespace Attempt

lemma publishAll_append (done later : List (Attempt σ)) (state : Payload) :
    publishAll (done ++ later) state = publishAll later (publishAll done state) := by
  simp [publishAll]

lemma get?_publish (t : Attempt σ) (state : Payload) (key : String) :
    (t.publish state).get? key =
      if key = t.context.stepAlias then some (Payload.toJson t.result.output) else state.get? key :=
  Keyed.get?_insert _ _ _ _

lemma get?_publishAll_of_notMem {done : List (Attempt σ)} {key : String}
    (h : key ∉ done.map (·.context.stepAlias)) (state : Payload) :
    (publishAll done state).get? key = state.get? key := by
  induction done generalizing state with
  | nil => rfl
  | cons t done ih =>
    rw [List.map_cons, List.mem_cons, not_or] at h
    exact (ih h.2 (t.publish state)).trans (by rw [get?_publish, if_neg h.1])

lemma get?_publishAll_of_mem {done : List (Attempt σ)}
    (h : (done.map (·.context.stepAlias)).Nodup) {t : Attempt σ} (ht : t ∈ done) (state : Payload) :
    (publishAll done state).get? t.context.stepAlias = some (Payload.toJson t.result.output) := by
  induction done generalizing state with
  | nil => cases ht
  | cons head done ih =>
    rw [List.map_cons, List.nodup_cons] at h
    rcases List.mem_cons.mp ht with rfl | ht
    · exact (get?_publishAll_of_notMem h.1 _).trans (by rw [get?_publish, if_pos rfl])
    · exact ih h.2 ht (head.publish state)

lemma stepAliases_nodup {steps : List Step} {done : List (Attempt σ)}
    (hv : StepProblem.ofSteps steps = []) (hi : (done.map (·.index)).Nodup)
    (ha : ∀ t ∈ done, steps[t.index]?.map (·.aliasAt t.index) = some t.context.stepAlias) :
    (done.map (·.context.stepAlias)).Nodup := by
  rw [List.nodup_iff_pairwise_ne, List.pairwise_map] at hi ⊢
  refine hi.imp_of_mem ?_
  intro t u ht hu hne heq
  have hat := ha t ht
  have hau := ha u hu
  rw [← Step.aliases_getElem?] at hat hau
  have hlt := (List.getElem?_eq_some_iff.mp hat).1
  exact hne ((List.getElem?_inj hlt (Step.aliases_nodup hv)).mp (by rw [hat, hau, heq]))

end Attempt

def Invocation.successes (i : Invocation σ) : List (Attempt σ) := i.attempts.filter Attempt.succeeded

namespace Engine

/-- What the runner of the step at an index is told in a call in which attempts have succeeded: the step's
alias and configuration, and the state with the outputs of the steps before it. -/
structure Told (request : PromotionRequest) (steps : List Step) (done : List (Attempt σ))
    (index : Nat) (c : StepContext σ) : Prop where
  alias_eq : steps[index]?.map (·.aliasAt index) = some c.stepAlias
  config_eq : steps[index]?.map (·.config) = some c.config
  sharedState_eq : c.sharedState =
    Attempt.publishAll (done.take (index - request.startFromStep)) request.state

def Tried (e : Engine σ) (request : PromotionRequest) (steps : List Step) (t : Attempt σ) : Prop :=
  ∃ a dir w w', e.Assigned request steps t.index a ∧
    e.Makes request dir t.index t.context.sharedState a w t w'

variable {e : Engine σ} {request : PromotionRequest} {steps : List Step} {left : List (Assignment σ)}
  {dir : String} {w w₀ w' : World σ} {done : List (Attempt σ)} {q : Place σ} {last : Invocation σ}

lemma Assigned.told {index : Nat} {a : Assignment σ} (h : e.Assigned request steps index a)
    {state : Payload} (hstate : state =
      Attempt.publishAll (done.take (index - request.startFromStep)) request.state) :
    Told request steps done index ((ContextBuilder.mk e.collaborators e.uiBaseUrl).step
      a.permissions request dir a.step a.record.stepAlias state) where
  alias_eq := by rw [h.step_eq, h.record_eq, StepRecord.carry_stepAlias]; rfl
  config_eq := by rw [h.step_eq]; rfl
  sharedState_eq := hstate

lemma Makes.tried_told {index : Nat} {a : Assignment σ} {state : Payload} {t : Attempt σ}
    (hm : e.Makes request dir index state a w t w') (ha : e.Assigned request steps index a)
    (hstate : state =
      Attempt.publishAll (done.take (index - request.startFromStep)) request.state) :
    e.Tried request steps t ∧ Told request steps done t.index t.context := by
  have hs := hm.sharedState
  obtain rfl := hm.index_eq
  refine ⟨⟨a, dir, w, w', ha, hs ▸ hm⟩, ?_⟩
  rw [hm.context_eq]
  exact ha.told hstate

namespace Admits

lemma done_tried_told (ha : e.Admits request steps w left dir w₀)
    (hp : e.Passes request dir ⟨request.startFromStep, request.state, left, w₀⟩ done q) :
    ∀ t ∈ done, e.Tried request steps t ∧ Told request steps done t.index t.context := by
  intro t ht
  obtain ⟨j, hj⟩ := List.getElem?_of_mem ht
  obtain ⟨a, w, w', hleft, hm⟩ := hp.made hj
  exact hm.tried_told (assigned_of_assign ha.assigned hleft) (by simp)

lemma last_tried_told (ha : e.Admits request steps w left dir w₀)
    (hp : e.Passes request dir ⟨request.startFromStep, request.state, left, w₀⟩ done q)
    (he : e.Ends request dir q last w') :
    last.attempts = [] ∨ ∃ t, last.attempts = [t] ∧ t.succeeded = false ∧
      t.index = request.startFromStep + done.length ∧ e.Tried request steps t ∧
      Told request steps done t.index t.context := by
  obtain h | ⟨t, a, h, hs, hleft, hm⟩ := he.attempts_cases
  · exact .inl h
  · rw [hp.left_eq, List.head?_drop] at hleft
    rw [hp.index_eq] at hm
    refine .inr ⟨t, h, hs, hm.index_eq, hm.tried_told (assigned_of_assign ha.assigned hleft) ?_⟩
    simp [hp.state_eq]

end Admits

lemma Ends.successes_after (he : e.Ends request dir q last w') (hs : ∀ t ∈ done, t.succeeded = true)
    (earlier : List StepRecord) : ((last.after done).behind earlier).successes = done := by
  have hlast : last.attempts.filter Attempt.succeeded = [] := by
    obtain h | ⟨t, _, h, ht, _⟩ := he.attempts_cases
    · rw [h, List.filter_nil]
    · simp [h, ht]
  have hdone : done.filter Attempt.succeeded = done := List.filter_eq_self.mpr hs
  exact (List.filter_append done last.attempts).trans (by rw [hdone, hlast, List.append_nil])

/-- A call in which attempts succeed, in order, and the runner of the next step then waits for ever. -/
def Stalls (e : Engine σ) (request : PromotionRequest) (steps : List Step) (w : World σ)
    (done : List (Attempt σ)) : Prop :=
  ∃ left dir w₀ q a c timeout elapsed, e.Admits request steps w left dir w₀ ∧
    e.Passes request dir ⟨request.startFromStep, request.state, left, w₀⟩ done q ∧
    e.Assigned request steps (request.startFromStep + done.length) a ∧
    Told request steps done (request.startFromStep + done.length) c ∧
    a.runner.invoke c timeout elapsed q.world.now.2 = none

theorem promote_effect (e : Engine σ) (request : PromotionRequest) (steps : List Step)
    (w : World σ) :
    match e.promote request steps w with
    | some (i, _) =>
      i.successes.map (·.index) = List.range' request.startFromStep i.successes.length ∧
      (∀ t ∈ i.successes, t.invoked = true) ∧
      (∃ rest, i.attempts = i.successes ++ rest ∧ rest.length ≤ 1 ∧
        ∀ t ∈ rest, t.index = request.startFromStep + i.successes.length) ∧
      (∀ t ∈ i.attempts, e.Tried request steps t ∧
        Told request steps i.successes t.index t.context) ∧
      i.result.state = Attempt.publishAll i.successes request.state ∧
      i.result.healthChecks = i.successes.filterMap (·.result.healthCheck)
    | none =>
      ∃ done, e.Stalls request steps w done ∧
        done.map (·.index) = List.range' request.startFromStep done.length ∧
        ∀ t ∈ done, t.succeeded = true ∧ t.invoked = true ∧ e.Tried request steps t ∧
          Told request steps done t.index t.context := by
  split
  · next i w' h =>
    cases promote_concludes h with
    | refused => simp [Invocation.successes, Attempt.publishAll]
    | @walked left dir w₀ _ done q last ha hp he =>
      rw [he.successes_after hp.succeeded]
      have hdone := ha.done_tried_told hp
      have hlast := ha.last_tried_told hp he
      refine ⟨hp.indices, hp.invoked, ?_, ?_, ?_, ?_⟩
      · refine ⟨last.attempts, rfl, ?_⟩
        obtain h | ⟨t, h, _, hi, _⟩ := hlast
        · simp [h]
        · simpa [h] using hi
      · intro t ht
        rcases List.mem_append.mp ht with ht | ht
        · exact hdone t ht
        · obtain h | ⟨t', h, _, _, ht'⟩ := hlast
          · simp [h] at ht
          · obtain rfl : t = t' := by simpa [h] using ht
            exact ht'
      · exact he.state_eq.trans hp.state_eq
      · exact (congrArg (_ ++ ·) he.healthChecks_eq).trans (List.append_nil _)
  · next h =>
    obtain ⟨left, dir, w₀, done, q, ha, hp, a, rest, hleft, _, hn⟩ := promote_waits h
    have hassigned : e.Assigned request steps (request.startFromStep + done.length) a := by
      apply assigned_of_assign ha.assigned
      rw [← List.head?_drop, ← hp.left_eq, hleft]
      rfl
    refine ⟨done, ?_, hp.indices, ?_⟩
    · refine ⟨left, dir, w₀, q, a, _, _, _, ha, hp, hassigned, ?_, invoke_of_attempt_eq_none hn⟩
      exact hassigned.told (by simp [hp.state_eq])
    · exact fun t ht => ⟨hp.succeeded t ht, hp.invoked t ht, ha.done_tried_told hp t ht⟩

end Engine
end Delivery
