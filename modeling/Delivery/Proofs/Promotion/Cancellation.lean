import Delivery.ComposeOutput
import Delivery.Proofs.Promotion.Course

/-! Cancellation of a promotion. Once the signal is cancelled no further step is tried, and the step in progress is
the last: what it puts out counts if it succeeds, and it is not charged with a failure if it does not. -/

namespace Delivery

variable {σ : Type}

structure Invocation.Interrupted (i : Invocation σ) (request : PromotionRequest) (steps : List Step)
    (cause : Cause) : Prop where
  indices : i.successes.map (·.index) = List.range' request.startFromStep i.successes.length
  currentStep : i.result.currentStep = request.startFromStep + i.successes.length
  state : i.result.state = Attempt.publishAll i.successes request.state
  merged : ∀ t ∈ i.successes,
    i.result.state.get? t.context.stepAlias = some (Payload.toJson t.result.output)
  bounded : i.result.currentStep ≤ steps.length
  completed : i.result.currentStep = steps.length →
    i.result.status = .succeeded ∧ i.result.message = none
  canceled : i.result.currentStep < steps.length →
    i.result.status = .errored ∧
      i.result.message = some ("promotion canceled: " ++ cause.message)
  uncharged : i.result.currentStep < steps.length → ∃ r r' : StepRecord,
    (request.recordsFor steps)[i.result.currentStep]? = some r ∧
      i.result.records[i.result.currentStep]? = some r' ∧ r'.errorCount = r.errorCount

namespace Engine

/-- The moments of a call, each with the number of attempts that have been started by then: before the first
attempt, in the course of a runner's behaviour, and after an attempt. -/
inductive Moment (e : Engine σ) (request : PromotionRequest) (steps : List Step) (w : World σ) :
    Nat → World σ → Prop
  | before : Moment e request steps w 0 w
  | during {dir : String} {done : List (Attempt σ)} {p : Place σ} {a : Assignment σ}
      {limit : Option Nat} {b : Behaviour σ (Except RunnerError StepResult)} {m : World σ}
      (hs : e.Starts request steps w dir done p a)
      (hl : a.limit? e.defaults p.world = some limit)
      (hm : Behaviour.Reaches limit (a.runner.run (a.contextAt e request dir p), p.world.now.2)
        (b, m)) :
      Moment e request steps w (done.length + 1) m
  | after {dir : String} {done : List (Attempt σ)} {p : Place σ} {a : Assignment σ} {t : Attempt σ}
      {m : World σ} (hs : e.Starts request steps w dir done p a)
      (hm : e.Makes request dir p.index p.state a p.world t m) :
      Moment e request steps w (done.length + 1) m

variable {e : Engine σ} {request : PromotionRequest} {steps : List Step} {w w₀ w' m : World σ}
  {left : List (Assignment σ)} {dir : String} {done : List (Attempt σ)} {p q : Place σ}
  {a : Assignment σ} {t : Attempt σ} {last : Invocation σ} {cause : Cause} {started : Nat}

/-! ### The end of a cancelled call -/

lemma Ends.of_canceled (h : e.Ends request dir p last w') (hc : w'.signal.cause = some cause) :
    (p.left = [] ∧ last.result.status = .succeeded ∧ last.result.message = none) ∨
      ∃ a r, p.left.head? = some a ∧ last.result.status = .errored ∧
        last.result.message = some (Setback.canceled cause).message ∧
        last.result.records[0]? = some r ∧ r.errorCount = a.record.errorCount := by
  cases h with
  | completed hleft => exact .inl ⟨hleft, rfl, rfl⟩
  | canceled hleft hcause =>
    obtain rfl := Option.some.inj (hcause.symm.trans hc)
    exact .inr ⟨_, _, by rw [hleft]; rfl, rfl, rfl, by rw [hleft]; rfl, rfl⟩
  | @halted a rest t _ status message r hleft _ hmade hstop =>
    have hf : t.Follows a.record (.stop status message r) := hstop ▸ t.follows a.record
    obtain ⟨hstatus, hmessage, hcount⟩ := hf.of_canceled (hmade.cause.trans hc)
    exact .inr ⟨a, r, by rw [hleft]; rfl, hstatus, hmessage, rfl, hcount⟩

lemma Admits.interrupted (ha : e.Admits request steps w left dir w₀)
    (hp : e.Passes request dir ⟨request.startFromStep, request.state, left, w₀⟩ done q)
    (he : e.Ends request dir q last w') (hc : w'.signal.cause = some cause) :
    ((last.after done).behind
      ((request.recordsFor steps).take request.startFromStep)).Interrupted request steps cause := by
  have hs := he.successes_after hp.succeeded ((request.recordsFor steps).take request.startFromStep)
  have hcurrent : last.result.currentStep = request.startFromStep + done.length :=
    he.currentStep_eq.trans hp.index_eq
  have hstate : last.result.state = Attempt.publishAll done request.state :=
    he.state_eq.trans hp.state_eq
  have hnodup : (done.map (·.context.stepAlias)).Nodup :=
    Attempt.stepAliases_nodup ha.valid (hp.indices ▸ List.nodup_range')
      (fun u hu => (ha.done_tried_told hp u hu).2.alias_eq)
  have hlength := length_of_assign ha.assigned
  have hle : done.length ≤ left.length := hp.length_le
  have hleft : q.left = left.drop done.length := hp.left_eq
  have hin := ha.inRange
  constructor
  case indices => rw [hs]; exact hp.indices
  case currentStep => rw [hs]; exact hcurrent
  case state => rw [hs]; exact hstate
  case merged =>
    rw [hs]
    intro t ht
    exact (congrArg (Keyed.get? · _) hstate).trans
      (Attempt.get?_publishAll_of_mem hnodup ht request.state)
  case bounded => show last.result.currentStep ≤ steps.length; omega
  case completed =>
    intro hall
    have hall : last.result.currentStep = steps.length := hall
    have hnone : q.left = [] := by rw [hleft, List.drop_eq_nil_iff]; omega
    obtain ⟨_, hstatus⟩ | ⟨a, _, ha, _⟩ := he.of_canceled hc
    · exact hstatus
    · simp [hnone] at ha
  case canceled =>
    intro hlt
    have hlt : last.result.currentStep < steps.length := hlt
    obtain ⟨hnone, _⟩ | ⟨a, r, _, hstatus, hmessage, _⟩ := he.of_canceled hc
    · rw [hleft, List.drop_eq_nil_iff] at hnone
      omega
    · exact ⟨hstatus, hmessage⟩
  case uncharged =>
    intro hlt
    have hlt : last.result.currentStep < steps.length := hlt
    obtain ⟨b, hb, hassigned⟩ := ha.exists_assigned (hcurrent ▸ hlt)
    obtain ⟨hnone, _⟩ | ⟨a, r, hhead, _, _, hrecord, hcount⟩ := he.of_canceled hc
    · rw [hleft, List.drop_eq_nil_iff] at hnone
      omega
    · rw [hleft, List.head?_drop, hb, Option.some.injEq] at hhead
      refine ⟨b.record, r, ?_, ?_, hhead ▸ hcount⟩
      · show _[last.result.currentStep]? = _
        rw [hcurrent, hassigned.recordsFor_getElem?]
      · show _[last.result.currentStep]? = _
        rw [hcurrent]
        exact (records_rest (j := 0) hin).trans hrecord

/-! ### From a moment to the end -/

lemma Starts.exists_ends (h : e.Starts request steps w dir done p a)
    (hm : e.Makes request dir p.index p.state a p.world t w') (hc : w'.signal.cause = some cause) :
    ∃ left w₀ done' q last, e.Admits request steps w left dir w₀ ∧
      e.Passes request dir ⟨request.startFromStep, request.state, left, w₀⟩ done' q ∧
      e.Ends request dir q last w' ∧ (done' ++ last.attempts).length = done.length + 1 := by
  obtain ⟨⟨left, w₀, ha, hp⟩, ⟨rest, hleft⟩, hidle⟩ := h
  cases hfollow : t.follow a.record with
  | stop status message r =>
    exact ⟨left, w₀, done, p, _, ha, hp, .halted hleft hidle hm hfollow, by simp⟩
  | advance r result =>
    have hs := Attempt.succeeded_of_follow hfollow
    have hpassed := hp.concat hleft hidle hm hs
    cases rest with
    | nil => exact ⟨left, w₀, _, _, _, ha, hpassed, .completed rfl, by simp [Invocation.stopped]⟩
    | cons b rest =>
      exact ⟨left, w₀, _, _, _, ha, hpassed, .canceled rfl hc, by simp⟩

lemma makes_of_reaches {limit : Option Nat} (hl : a.limit? e.defaults p.world = some limit)
    {b : Behaviour σ (Except RunnerError StepResult)}
    (hm : Behaviour.Reaches limit (a.runner.run (a.contextAt e request dir p), p.world.now.2) (b, m))
    (hc : m.signal.cause = some cause) :
    ∃ t w', e.Makes request dir p.index p.state a p.world t w' ∧
      w'.signal.cause = some cause := by
  have hi := Assignment.invoke_of_limit? hl (a.contextAt e request dir p)
  obtain ⟨hcause, hending⟩ := Behaviour.run_of_canceled hm hc
  generalize (a.runner.run (a.contextAt e request dir p)).run limit p.world.now.2 = run
    at hi hcause hending
  obtain ⟨ending, w₁⟩ := run
  dsimp only at hcause hending
  rcases hending with ⟨answer, rfl⟩ | ⟨rfl, hlimited⟩
  · obtain ⟨t, ht, _⟩ := makes_of_invoke hi
    exact ⟨t, _, ht, hcause⟩
  · obtain ⟨timeout, htimeout⟩ := Assignment.timeout_of_limit? hl hlimited
    simp only [htimeout, Option.map_some] at hi
    rw [← htimeout] at hi
    obtain ⟨t, ht, _⟩ := makes_of_invoke hi
    exact ⟨t, _, ht, hcause⟩

lemma Moment.exists_ends (h : e.Moment request steps w started m) (hc : m.signal.cause = some cause)
    (hv : StepProblem.ofSteps steps = []) (hr : e.Resolves steps request.startFromStep)
    (hd : ∃ dir, (e.workDir request w).1 = .ok dir) (hs : request.startFromStep < steps.length) :
    ∃ left dir w₀ done q last w', e.Admits request steps w left dir w₀ ∧
      e.Passes request dir ⟨request.startFromStep, request.state, left, w₀⟩ done q ∧
      e.Ends request dir q last w' ∧ (done ++ last.attempts).length = started ∧
      w'.signal.cause = some cause := by
  cases h with
  | before =>
    obtain ⟨left, dir, w₀, ha⟩ := exists_admits hv (Nat.le_of_lt hs) hr hd
    have hkept : w₀.signal = w.signal := by rw [← workDir_signal e request w, ha.prepared]
    obtain ⟨a, rest, hleft⟩ : ∃ a rest, left = a :: rest := by
      apply List.exists_cons_of_length_pos
      rw [length_of_assign ha.assigned]
      omega
    have hcause : w₀.signal.cause = some cause := by rw [hkept, hc]
    exact ⟨left, dir, w₀, [], _, _, w₀, ha, .here _, .canceled hleft hcause, rfl, hcause⟩
  | during hstarts hl hm =>
    obtain ⟨t, w', ht, hcause⟩ := makes_of_reaches hl hm hc
    obtain ⟨left, w₀, done, q, last, ha, hp, he, hn⟩ := hstarts.exists_ends ht hcause
    exact ⟨left, _, w₀, done, q, last, w', ha, hp, he, hn, hcause⟩
  | after hstarts ht =>
    obtain ⟨left, w₀, done, q, last, ha, hp, he, hn⟩ := hstarts.exists_ends ht hc
    exact ⟨left, _, w₀, done, q, last, m, ha, hp, he, hn, hc⟩

theorem promote_interrupted (hv : StepProblem.ofSteps steps = [])
    (hr : e.Resolves steps request.startFromStep) (hd : ∃ dir, (e.workDir request w).1 = .ok dir)
    (hs : request.startFromStep < steps.length) (hm : e.Moment request steps w started m)
    (hc : m.signal.cause = some cause) :
    ∃ i w', e.promote request steps w = some (i, w') ∧ w'.signal.cause = some cause ∧
      i.attempts.length = started ∧ i.Interrupted request steps cause := by
  obtain ⟨left, dir, w₀, done, q, last, w', ha, hp, he, hn, hcause⟩ := hm.exists_ends hc hv hr hd hs
  exact ⟨_, w', promote_of_ends ha hp he, hcause, hn, ha.interrupted hp he hcause⟩

end Engine

/-! ### A promotion whose deadline passes while its second step waits -/

namespace Deadline

def runner : StepRunner Unit where
  run _ := .awaitCancel fun cause => .answer (.error ⟨[cause.message]⟩)

def engine : Engine Unit where
  registry := Registry.withBuiltins.register "wait" { runner := { step := some runner } }
  workDirRoot := ⟨"/tmp"⟩

def steps : List Step :=
  [{ kind := composeOutputKind, givenAlias := some "vars" },
    { kind := "wait", retry := some { errorThreshold := some 3 } },
    { kind := composeOutputKind }]

def request : PromotionRequest where
  project := "payments"
  stage := "prod"
  promotion := "prod.01"
  workDir := some "/work"

def world : World Unit := ⟨0, Signal.idle.cancelAt 20, (), default, fun _ => ⟨0, 0⟩, 0⟩

end Deadline

namespace Engine
open Deadline

theorem promote_interrupted_waiting :
    ∃ m i w', engine.Moment request steps world 2 m ∧ m.signal.cause = some .deadlineExceeded ∧
      engine.promote request steps world = some (i, w') ∧ i.attempts.length = 2 ∧
      i.Interrupted request steps .deadlineExceeded ∧ i.result.currentStep = 1 := by
  obtain ⟨left, hassign⟩ : ∃ left,
      engine.assign request.startFromStep (request.remaining steps) = .ok left := ⟨_, rfl⟩
  have hadmits : engine.Admits request steps world left "/work" world :=
    ⟨rfl, by decide, hassign, rfl⟩
  cases hassign
  have hstarts : engine.Starts request steps world "/work" _ _ _ :=
    ⟨⟨_, _, hadmits, .pass rfl rfl (makes_of_attempt rfl) rfl (.here _)⟩, ⟨_, rfl⟩, rfl⟩
  have hmoment := Moment.during hstarts rfl (.single (.awaitDeadline rfl rfl (by simp)))
  have hresolves : engine.Resolves steps 0 := by
    intro j step _ hs
    have hm := List.mem_of_getElem? hs
    simp only [steps, List.mem_cons, List.not_mem_nil, or_false] at hm
    rcases hm with rfl | rfl | rfl <;> rfl
  obtain ⟨i, w', hi, _, hn, hinterrupted⟩ :=
    promote_interrupted rfl hresolves ⟨_, rfl⟩ (by decide) hmoment rfl
  have hcurrent : (engine.promote request steps world).map (·.1.result.currentStep) = some 1 := rfl
  rw [hi, Option.map_some, Option.some.injEq] at hcurrent
  exact ⟨_, i, w', hmoment, rfl, hi, hn, hinterrupted, hcurrent⟩

end Engine
end Delivery
