import Delivery.ComposeOutput
import Delivery.Proofs.Promotion.Effect
import Delivery.Proofs.Promotion.Records

/-! Chains of calls over the same steps. Each call after the first resumes the result of the one before it,
however that ended. A chain that ends in success has delivered every step once and in order. -/

namespace Delivery

section

variable {σ : Type} {e : Engine σ} {steps : List Step}

structure Call (e : Engine σ) (steps : List Step) where
  request : PromotionRequest
  before : World σ
  invocation : Invocation σ
  after : World σ
  returned : e.promote request steps before = some (invocation, after)

def Call.make (request : PromotionRequest) (w : World σ)
    (h : (e.promote request steps w).isSome = true) : Call e steps where
  request := request
  before := w
  invocation := ((e.promote request steps w).get h).1
  after := ((e.promote request steps w).get h).2
  returned := (Option.some_get h).symm

namespace Call

variable (c : Call e steps)

def result : PromotionResult := c.invocation.result

def successes : List (Attempt σ) := c.invocation.successes

structure Advances : Prop where
  resolves : e.Resolves steps c.request.startFromStep
  start_le : c.request.startFromStep ≤ c.result.currentStep
  bounded : c.request.startFromStep ≤ steps.length → c.result.currentStep ≤ steps.length
  indices : c.successes.map (·.index) =
    List.range' c.request.startFromStep (c.result.currentStep - c.request.startFromStep)
  aliases : ∀ t ∈ c.successes, steps[t.index]?.map (·.aliasAt t.index) = some t.context.stepAlias
  state : c.result.state = Attempt.publishAll c.successes c.request.state
  healthChecks : c.result.healthChecks = c.successes.filterMap (·.result.healthCheck)
  before : ∀ j < c.request.startFromStep, c.result.records[j]? = (c.request.recordsFor steps)[j]?
  passed : ∀ j, c.request.startFromStep ≤ j → j < c.result.currentStep →
    ∃ t : Attempt σ, c.result.records[j]? = some t.closed

variable {c}

lemma advances_of_stays {setback : Setback}
    (hc : c.invocation = .errored setback c.request.startFromStep c.request.state
      (c.request.recordsFor steps)) (hr : e.Resolves steps c.request.startFromStep) :
    c.Advances where
  resolves := hr
  start_le := by simp [result, hc]
  bounded := by simp [result, hc]
  indices := by simp [result, successes, Invocation.successes, hc]
  aliases := by simp [successes, Invocation.successes, hc]
  state := by simp [result, successes, Invocation.successes, hc, Attempt.publishAll]
  healthChecks := by simp [result, successes, Invocation.successes, hc]
  before := by simp [result, hc]
  passed j hj hlt := by simp [result, hc] at hlt; omega

theorem advances (hr : e.Resolves steps c.result.currentStep) : c.Advances := by
  obtain ⟨request, w, i, w', h⟩ := c
  cases Engine.promote_concludes h with
  | @refused setback index records _ hrefused =>
    cases hrefused with
    | invalid => exact advances_of_stays rfl hr
    | outOfRange => exact advances_of_stays rfl hr
    | noWorkDir => exact advances_of_stays rfl hr
    | unassigned _ _ hu =>
      exact absurd hr ((Engine.firstUnresolved_of_assign hu).not_resolves (Nat.le_refl _))
  | @walked left dir w₀ _ done q last ha hp he =>
    have hs : successes ⟨request, w, _, w', h⟩ = done := he.successes_after hp.succeeded _
    have hc : (result ⟨request, w, _, w', h⟩).currentStep = request.startFromStep + done.length :=
      he.currentStep_eq.trans hp.index_eq
    have hl := hp.length_le
    rw [Engine.length_of_assign ha.assigned] at hl
    constructor
    case resolves => exact Engine.resolves_of_assign ha.assigned
    case start_le => rw [hc]; exact Nat.le_add_right _ _
    case bounded => intro hle; rw [hc]; dsimp only at hle; omega
    case indices => rw [hs, hc, Nat.add_sub_cancel_left]; exact hp.indices
    case aliases => rw [hs]; exact fun t ht => (ha.done_tried_told hp t ht).2.alias_eq
    case state => rw [hs]; exact he.state_eq.trans hp.state_eq
    case healthChecks =>
      rw [hs]
      exact (congrArg (_ ++ ·) he.healthChecks_eq).trans (List.append_nil _)
    case before => exact fun j hj => Engine.records_before ha.inRange hj
    case passed =>
      intro j hj hlt
      obtain ⟨k, rfl⟩ := Nat.exists_eq_add_of_le hj
      have hk : k < done.length := by rw [hc] at hlt; dsimp only at hlt; omega
      exact ⟨_, Engine.records_passed ha.inRange (List.getElem?_eq_getElem hk)⟩

lemma complete_of_succeeded (hs : c.result.status = .succeeded) :
    StepProblem.ofSteps steps = [] ∧ steps.length ≤ c.result.currentStep := by
  obtain ⟨request, w, i, w', h⟩ := c
  cases Engine.promote_concludes h with
  | refused => cases hs
  | @walked left dir w₀ _ done q last ha hp he =>
    refine ⟨ha.valid, ?_⟩
    have hleft := he.left_of_succeeded hs
    rw [hp.left_eq, List.drop_eq_nil_iff] at hleft
    have hl := Engine.length_of_assign ha.assigned
    have hc : last.result.currentStep = request.startFromStep + done.length :=
      he.currentStep_eq.trans hp.index_eq
    dsimp only at hleft
    show steps.length ≤ last.result.currentStep
    omega

lemma record_stepAlias {j : Nat} {r : StepRecord} (hr : c.result.records[j]? = some r) :
    steps[j]?.map (·.aliasAt j) = some r.stepAlias := by
  have ha : c.result.records.map (·.stepAlias) = Step.aliases steps :=
    Engine.promote_records_aliases c.returned
  rw [← Step.aliases_getElem?, ← ha, List.getElem?_map, hr]
  rfl

lemma recordsFor_of_resumed {e' : Engine σ} {previous : Call e' steps} {base : PromotionRequest}
    (hr : c.request = base.resumeFrom previous.result) :
    c.request.recordsFor steps = previous.result.records := by
  have ha : c.request.records.map (·.stepAlias) = Step.aliases steps := by
    rw [hr]
    exact Engine.promote_records_aliases previous.returned
  rw [PromotionRequest.recordsFor_eq_self ha, hr]
  rfl

end Call

/-- Calls in order and the last of them. The first starts afresh, and each later one resumes the result of the
one before it. -/
inductive Chain (initial : Payload) : List (Call e steps) → Call e steps → Prop
  | fresh {c : Call e steps} (hstart : c.request.startFromStep = 0) (hrecords : c.request.records = [])
      (hstate : c.request.state = initial) : Chain initial [] c
  | resumed {past : List (Call e steps)} {previous c : Call e steps} (base : PromotionRequest)
      (h : Chain initial past previous) (hr : c.request = base.resumeFrom previous.result) :
      Chain initial (past ++ [previous]) c

structure Settled (initial : Payload) (calls : List (Call e steps)) (r : PromotionResult) : Prop where
  bounded : r.currentStep ≤ steps.length
  indices : (calls.flatMap Call.successes).map (·.index) = List.range r.currentStep
  aliases : ∀ t ∈ calls.flatMap Call.successes,
    steps[t.index]?.map (·.aliasAt t.index) = some t.context.stepAlias
  state : r.state = Attempt.publishAll (calls.flatMap Call.successes) initial
  healthChecks : calls.flatMap (·.result.healthChecks) =
    (calls.flatMap Call.successes).filterMap (·.result.healthCheck)
  passed : ∀ j < r.currentStep, ∃ t : Attempt σ, r.records[j]? = some t.closed

variable {initial : Payload} {past : List (Call e steps)} {previous last : Call e steps}

lemma Settled.step {calls : List (Call e steps)} (h : Settled initial calls previous.result)
    {base : PromotionRequest} (hr : last.request = base.resumeFrom previous.result)
    (ha : last.Advances) : Settled initial (calls ++ [last]) last.result := by
  have hstart : last.request.startFromStep = previous.result.currentStep := by rw [hr]; rfl
  have hle := ha.start_le
  rw [hstart] at hle
  have hsuccesses : (calls ++ [last]).flatMap Call.successes =
      calls.flatMap Call.successes ++ last.successes := by simp
  constructor
  case bounded => exact ha.bounded (hstart ▸ h.bounded)
  case indices =>
    rw [hsuccesses, List.map_append, h.indices, ha.indices, hstart, List.range_eq_range',
      List.range_eq_range']
    have hadd : List.range' 0 previous.result.currentStep ++
        List.range' (0 + previous.result.currentStep)
          (last.result.currentStep - previous.result.currentStep) = _ := List.range'_append_1
    rw [Nat.zero_add] at hadd
    rw [hadd, Nat.add_sub_cancel' hle]
  case aliases =>
    rw [hsuccesses]
    intro t ht
    rcases List.mem_append.mp ht with ht | ht
    · exact h.aliases t ht
    · exact ha.aliases t ht
  case state =>
    have hstate : last.request.state = previous.result.state := by rw [hr]; rfl
    rw [hsuccesses, Attempt.publishAll_append, ← h.state, ← hstate]
    exact ha.state
  case healthChecks =>
    rw [hsuccesses, List.filterMap_append, ← h.healthChecks, ← ha.healthChecks]
    simp
  case passed =>
    intro j hj
    by_cases hbefore : j < previous.result.currentStep
    · rw [ha.before j (hstart ▸ hbefore), Call.recordsFor_of_resumed hr]
      exact h.passed j hbefore
    · exact ha.passed j (by omega) hj

namespace Chain

theorem settled (h : Chain initial past last) (hr : e.Resolves steps last.result.currentStep) :
    Settled initial (past ++ [last]) last.result := by
  induction h with
  | @fresh c hstart hrecords hstate =>
    have ha := c.advances hr
    constructor
    case bounded => exact ha.bounded (by omega)
    case indices => simpa [hstart, List.range_eq_range'] using ha.indices
    case aliases => simpa using ha.aliases
    case state => simpa [hstate] using ha.state
    case healthChecks => simpa using ha.healthChecks
    case passed => exact fun j hj => ha.passed j (by omega) hj
  | @resumed past previous c base _ hresumed ih =>
    have ha := c.advances hr
    have hres := ha.resolves
    rw [hresumed] at hres
    exact (ih hres).step hresumed ha

theorem delivers_every_step (h : Chain initial past last) (hs : last.result.status = .succeeded) :
    ((past ++ [last]).flatMap Call.successes).map (·.index) = List.range steps.length ∧
    (∀ (i : Nat) (step : Step), steps[i]? = some step →
      ∃ t : Attempt σ, ((past ++ [last]).flatMap Call.successes)[i]? = some t ∧
        last.result.state.get? (step.aliasAt i) = some (Payload.toJson t.result.output)) ∧
    (∀ key ∉ Step.aliases steps, last.result.state.get? key = initial.get? key) ∧
    (past ++ [last]).flatMap (·.result.healthChecks) =
      ((past ++ [last]).flatMap Call.successes).filterMap (·.result.healthCheck) ∧
    last.result.records.map (·.stepAlias) = Step.aliases steps ∧
    ∀ r ∈ last.result.records, r.status = some .succeeded ∧ r.errorCount = 0 := by
  obtain ⟨hvalid, hend⟩ := Call.complete_of_succeeded hs
  have hres : e.Resolves steps last.result.currentStep := by
    intro j step hj hstep
    have hlt := (List.getElem?_eq_some_iff.mp hstep).1
    omega
  have hset := h.settled hres
  have hn : last.result.currentStep = steps.length := Nat.le_antisymm hset.bounded hend
  have hindices := hset.indices
  rw [hn] at hindices
  refine ⟨hindices, ?_, ?_, hset.healthChecks, Engine.promote_records_aliases last.returned, ?_⟩
  · intro i step hstep
    have hi := (List.getElem?_eq_some_iff.mp hstep).1
    have hd := congrArg (·[i]?) hindices
    simp only [List.getElem?_map, List.getElem?_range hi, Option.map_eq_some_iff] at hd
    obtain ⟨t, ht, hti⟩ := hd
    have hm := List.mem_of_getElem? ht
    have halias := hset.aliases t hm
    rw [hti, hstep, Option.map_some, Option.some.injEq] at halias
    refine ⟨t, ht, ?_⟩
    rw [halias, hset.state]
    exact Attempt.get?_publishAll_of_mem
      (Attempt.stepAliases_nodup hvalid (hindices ▸ List.nodup_range) hset.aliases) hm initial
  · intro key hkey
    rw [hset.state]
    apply Attempt.get?_publishAll_of_notMem
    intro hm
    obtain ⟨t, ht, rfl⟩ := List.mem_map.mp hm
    have halias := hset.aliases t ht
    rw [← Step.aliases_getElem?] at halias
    exact hkey (List.mem_of_getElem? halias)
  · intro r hm
    obtain ⟨j, hj⟩ := List.getElem?_of_mem hm
    obtain ⟨step, hstep, _⟩ := Option.map_eq_some_iff.mp (Call.record_stepAlias hj)
    have hlt := (List.getElem?_eq_some_iff.mp hstep).1
    obtain ⟨t, ht⟩ := hset.passed j (by omega)
    obtain rfl := Option.some.inj (hj.symm.trans ht)
    exact ⟨rfl, rfl⟩

end Chain

end

/-! ### A promotion whose second step suspends, fails and then succeeds -/

namespace Scripted

def runner : StepRunner (List Status) where
  run _ := .fetch fun
    | [] => .answer (.ok { status := .succeeded })
    | status :: rest => .store rest (.answer (.ok { status }))

def engine : Engine (List Status) where
  registry := Registry.withBuiltins.register "merge" { runner := { step := some runner } }
  workDirRoot := ⟨"/tmp"⟩

def steps : List Step :=
  [{ kind := composeOutputKind, givenAlias := some "vars" },
    { kind := "merge", retry := some { errorThreshold := some 2 } }]

def request : PromotionRequest where
  project := "payments"
  stage := "prod"
  promotion := "prod.01"
  workDir := some "/work"

def world (statuses : List Status) : World (List Status) :=
  ⟨0, .idle, statuses, default, fun _ => ⟨0, 0⟩, 0⟩

end Scripted

namespace Chain
open Scripted

theorem delivers_every_step_scripted :
    ∃ first second last : Call engine steps,
      first.result.status = .running ∧ second.result.status = .running ∧
      last.result.status = .succeeded ∧ last.request.startFromStep = 1 ∧
      (([first, second] ++ [last]).flatMap Call.successes).map (·.index) = [0, 1] := by
  let first : Call engine steps := .make request (world [.running, .failed]) rfl
  let second : Call engine steps := .make (request.resumeFrom first.result) first.after rfl
  let last : Call engine steps := .make (request.resumeFrom second.result) second.after rfl
  have hlast : last.result.status = .succeeded := rfl
  have h₁ : Chain {} [] first := .fresh rfl rfl rfl
  have h₂ : Chain {} [first] second := .resumed request h₁ rfl
  have h₃ : Chain {} [first, second] last := .resumed request h₂ rfl
  exact ⟨first, second, last, rfl, rfl, hlast, rfl, (delivers_every_step h₃ hlast).1⟩

end Chain
end Delivery
