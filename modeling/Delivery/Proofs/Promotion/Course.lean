import Delivery.Proofs.Behaviours
import Delivery.Proofs.Promotion.Effect
import Delivery.Proofs.Promotion.Records

/-! The course of a call: the attempts that it starts, the limits under which runners are called in them, and how
the call ends when an attempt keeps it from going on. -/

namespace Delivery

variable {σ : Type}

namespace Assignment

def windowStart (a : Assignment σ) (now : Instant) : Instant := a.record.startedAt.getD now

def elapsed (a : Assignment σ) (now : Instant) : Span := now.since (a.windowStart now)

def limit? (a : Assignment σ) (defaults : PromotionDefaults) (w : World σ) : Option (Option Nat) :=
  match a.timeout defaults with
  | none => some none
  | some timeout =>
    (Retry.remainingBudget timeout (a.elapsed w.now.1)).map fun left => some (w.time + left.nanoseconds)

def contextAt (a : Assignment σ) (e : Engine σ) (request : PromotionRequest) (dir : String)
    (p : Place σ) : StepContext σ :=
  (ContextBuilder.mk e.collaborators e.uiBaseUrl).step a.permissions request dir a.step
    a.record.stepAlias p.state

variable {a : Assignment σ} {defaults : PromotionDefaults} {w : World σ}

lemma invoke_of_limit? {limit : Option Nat} (h : a.limit? defaults w = some limit)
    (context : StepContext σ) :
    a.runner.invoke context (a.timeout defaults) (a.elapsed w.now.1) w.now.2 =
      match (a.runner.run context).run limit w.now.2 with
      | (.answered answer, w') => some (true, .ofAnswer answer, w')
      | (.cutOff, w') => (a.timeout defaults).map fun timeout => (true, .timedOut timeout, w')
      | (.stuck, _) => none := by
  rw [limit?] at h
  cases ht : a.timeout defaults with
  | none =>
    simp only [ht, Option.some.injEq] at h
    subst h
    simp only [StepRunner.invoke]
    obtain ⟨ending, w'⟩ := (a.runner.run context).run none w.now.2
    cases ending <;> rfl
  | some timeout =>
    simp only [ht, Option.map_eq_some_iff] at h
    obtain ⟨left, hb, rfl⟩ := h
    simp only [StepRunner.invoke, hb]
    rfl

lemma invoke_of_exhausted (h : a.limit? defaults w = none) :
    ∃ timeout, ∀ context : StepContext σ, a.runner.invoke context (a.timeout defaults)
      (a.elapsed w.now.1) w.now.2 = some (false, .timedOut timeout, w.now.2) := by
  rw [limit?] at h
  cases ht : a.timeout defaults with
  | none => simp [ht] at h
  | some timeout =>
    simp only [ht, Option.map_eq_none_iff] at h
    exact ⟨timeout, fun context => by simp only [StepRunner.invoke, h]⟩

lemma limit?_unlimited (h : a.timeout defaults = none) : a.limit? defaults w = some none := by
  rw [limit?, h]

lemma timeout_of_limit? {limit : Option Nat} (h : a.limit? defaults w = some limit)
    (hs : limit.isSome = true) : ∃ timeout, a.timeout defaults = some timeout := by
  cases ht : a.timeout defaults with
  | none =>
    rw [limit?_unlimited ht, Option.some.injEq] at h
    simp [← h] at hs
  | some timeout => exact ⟨timeout, rfl⟩

end Assignment

namespace Engine

lemma makes_of_invoke {e : Engine σ} {request : PromotionRequest} {dir : String} {p : Place σ}
    {a : Assignment σ} {invoked : Bool} {conclusion : Conclusion} {w : World σ}
    (h : a.runner.invoke (a.contextAt e request dir p) (a.timeout e.defaults)
      (a.elapsed p.world.now.1) p.world.now.2 = some (invoked, conclusion, w)) :
    ∃ t, e.Makes request dir p.index p.state a p.world t w.now.2 ∧ t.invoked = invoked ∧
      t.conclusion = conclusion ∧ t.cause = w.signal.cause :=
  ⟨⟨p.index, a.contextAt e request dir p, p.world.now.1, a.windowStart p.world.now.1,
      a.timeout e.defaults, a.threshold e.defaults, invoked, conclusion, w.signal.cause, w.now.1⟩,
    ⟨rfl, rfl, rfl, rfl, rfl, rfl, w, h, rfl, rfl, rfl⟩, rfl, rfl, rfl⟩

/-- A call starts an attempt of a step at a place: it has passed the steps before it and is not cancelled. -/
structure Starts (e : Engine σ) (request : PromotionRequest) (steps : List Step) (w : World σ)
    (dir : String) (done : List (Attempt σ)) (p : Place σ) (a : Assignment σ) : Prop where
  passed : ∃ left w₀, e.Admits request steps w left dir w₀ ∧
    e.Passes request dir ⟨request.startFromStep, request.state, left, w₀⟩ done p
  next : ∃ rest, p.left = a :: rest
  idle : p.world.signal.cause = none

theorem exists_starts {e : Engine σ} {request : PromotionRequest} {steps : List Step} {w w' : World σ}
    {i : Invocation σ} {t : Attempt σ} (h : e.promote request steps w = some (i, w'))
    (ht : t ∈ i.attempts) :
    ∃ dir done p a w₁, e.Starts request steps w dir done p a ∧
      e.Makes request dir p.index p.state a p.world t w₁ := by
  cases promote_concludes h with
  | refused => cases ht
  | @walked left dir w₀ _ done q last ha hp he =>
    rcases List.mem_append.mp ht with ht | ht
    · obtain ⟨earlier, m, a, rest, w₁, hm, hleft, hidle, hmade⟩ := hp.exists_place ht
      exact ⟨dir, earlier, m, a, w₁, ⟨⟨left, w₀, ha, hm⟩, ⟨rest, hleft⟩, hidle⟩, hmade⟩
    · cases he with
      | completed => cases ht
      | canceled => cases ht
      | @halted a rest t' w₁ _ _ _ hleft hidle hmade =>
        obtain rfl : t = t' := by simpa using ht
        exact ⟨dir, done, q, a, _, ⟨⟨left, w₀, ha, hp⟩, ⟨rest, hleft⟩, hidle⟩, hmade⟩

namespace Starts

variable {e : Engine σ} {request : PromotionRequest} {steps : List Step} {w w' : World σ}
  {dir : String} {done : List (Attempt σ)} {p : Place σ} {a : Assignment σ} {t : Attempt σ}

lemma index_eq (h : e.Starts request steps w dir done p a) :
    p.index = request.startFromStep + done.length := by
  obtain ⟨left, w₀, _, hp⟩ := h.passed
  exact hp.index_eq

lemma assigned (h : e.Starts request steps w dir done p a) :
    e.Assigned request steps p.index a := by
  obtain ⟨left, w₀, ha, hp⟩ := h.passed
  obtain ⟨rest, hleft⟩ := h.next
  rw [hp.left_eq] at hleft
  rw [h.index_eq]
  apply assigned_of_assign ha.assigned
  rw [← List.head?_drop, hleft]
  rfl

theorem promote_of_stop (h : e.Starts request steps w dir done p a)
    (hm : e.Makes request dir p.index p.state a p.world t w') {status : Status}
    {message : Option String} {r : StepRecord} (hs : t.follow a.record = .stop status message r) :
    ∃ i, e.promote request steps w = some (i, w') ∧ i.attempts = done ++ [t] ∧
      i.successes = done ∧ i.result.status = status ∧ i.result.message = message ∧
      i.result.currentStep = p.index ∧ i.result.state = Attempt.publishAll done request.state ∧
      i.result.healthChecks = done.filterMap (·.result.healthCheck) ∧
      i.result.records[p.index]? = some r := by
  have hindex := h.index_eq
  obtain ⟨⟨left, w₀, ha, hp⟩, ⟨rest, hleft⟩, hidle⟩ := h
  have he : e.Ends request dir p _ w' := .halted hleft hidle hm hs
  refine ⟨_, promote_of_ends ha hp he, rfl, he.successes_after hp.succeeded _, rfl, rfl, rfl,
    hp.state_eq, List.append_nil _, ?_⟩
  rw [hindex]
  exact records_rest (j := 0) ha.inRange

end Starts

lemma start_le_index {e : Engine σ} {request : PromotionRequest} {steps : List Step} {w w' : World σ}
    {i : Invocation σ} {t : Attempt σ} (h : e.promote request steps w = some (i, w')) (ht : t ∈ i.attempts) :
    request.startFromStep ≤ t.index := by
  obtain ⟨dir, done, p, a, w₁, hstarts, hmade⟩ := exists_starts h ht
  rw [hmade.index_eq, hstarts.index_eq]
  exact Nat.le_add_right _ _

end Engine
end Delivery
