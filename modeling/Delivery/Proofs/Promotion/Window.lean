import Delivery.ComposeOutput
import Delivery.Proofs.Promotion.Course

/-! The time that a step has. An attempt is cut off when the time limit has passed since the start of the window,
which a step that suspends keeps, and which a step that is to be tried again after a failure does not. -/

namespace Delivery

variable {σ : Type}

lemma Instant.since_of_ge {t earlier : Instant} (h : t.total ≤ earlier.total) :
    (t.since earlier).nanoseconds = 0 := by
  simp only [since]
  omega

lemma Assignment.timeout_pos {a : Assignment σ} {defaults : PromotionDefaults} {limit : Span}
    (h : a.timeout defaults = some limit) : 0 < limit.nanoseconds := by
  obtain ⟨span, _, hspan⟩ := Option.bind_eq_some_iff.mp h
  simp only [Span.nonzero?] at hspan
  split at hspan
  · cases hspan
  · next hn =>
    cases hspan
    exact Nat.pos_of_ne_zero hn

structure Trial (σ : Type) where
  engine : Engine σ
  request : PromotionRequest
  steps : List Step
  before : World σ
  dir : String
  done : List (Attempt σ)
  place : Place σ
  assignment : Assignment σ
  starts : engine.Starts request steps before dir done place assignment

namespace Trial

def first {e : Engine σ} {request : PromotionRequest} {steps : List Step} {w w₀ : World σ}
    {dir : String} {a : Assignment σ} {rest : List (Assignment σ)}
    (h : e.Admits request steps w (a :: rest) dir w₀) (hidle : w₀.signal.cause = none) :
    Trial σ where
  engine := e
  request := request
  steps := steps
  before := w
  dir := dir
  done := []
  place := ⟨request.startFromStep, request.state, a :: rest, w₀⟩
  assignment := a
  starts := ⟨⟨_, w₀, h, .here _⟩, ⟨rest, rfl⟩, hidle⟩

variable (x : Trial σ)

def began : Instant := x.place.world.now.1

def timeout : Option Span := x.assignment.timeout x.engine.defaults

def windowStart : Instant := x.assignment.windowStart x.began

def elapsed : Span := x.assignment.elapsed x.began

def left (limit : Span) : Nat := limit.nanoseconds - x.elapsed.nanoseconds

def due (limit : Span) : Nat := x.place.world.time + x.left limit

def play (limit : Option Nat) : Ending (Except RunnerError StepResult) × World σ :=
  (x.assignment.runner.run (x.assignment.contextAt x.engine x.request x.dir x.place)).run limit
    x.place.world.now.2

def Makes (t : Attempt σ) (w : World σ) : Prop :=
  x.engine.Makes x.request x.dir x.place.index x.place.state x.assignment x.place.world t w

def Returns (i : Invocation σ) : Prop :=
  ∃ w, x.engine.promote x.request x.steps x.before = some (i, w)

/-- Another attempt of the step, in a call that resumes the result of this one. -/
structure Resumes (t : Attempt σ) (i : Invocation σ) (y : Trial σ) : Prop where
  made : ∃ w, x.Makes t w
  returned : x.Returns i
  resumed : ∃ base : PromotionRequest, y.request = base.resumeFrom i.result
  index_eq : y.place.index = x.place.index
  alias_eq : y.assignment.record.stepAlias = x.assignment.record.stepAlias

def Suspends (y : Trial σ) : Prop :=
  (∃ t i, x.Resumes t i y ∧ t.result.status = .running) ∧ y.timeout = x.timeout

def Retries (y : Trial σ) : Prop :=
  ∃ t i, x.Resumes t i y ∧ t.result.status.isFailure = true ∧ i.result.status = .running

variable {x} {y : Trial σ} {t : Attempt σ} {w : World σ} {i : Invocation σ} {limit : Span}

/-! ### From one attempt to the next -/

lemma Resumes.record_eq (h : x.Resumes t i y) {status : Status} {message : Option String}
    {r : StepRecord} (hs : t.follow x.assignment.record = .stop status message r) :
    y.assignment.record = r ∧ i.result.status = status := by
  obtain ⟨⟨w, hm⟩, ⟨w', hi⟩, ⟨base, hbase⟩, hindex, halias⟩ := h
  obtain ⟨i', hi', _, _, hstatus, _, _, _, _, hr⟩ := x.starts.promote_of_stop hm hs
  obtain ⟨rfl, _⟩ := Prod.mk.inj (Option.some.inj (hi.symm.trans hi'))
  have hy := y.starts.assigned.record_eq
  have hkept : y.request.records[y.place.index]? = some r := by
    rw [hbase, hindex]
    exact hr
  rw [hkept] at hy
  have hname : r.stepAlias = y.assignment.step.aliasAt y.place.index := by
    rw [Attempt.stepAlias_of_follow hs, ← halias, hy, StepRecord.carry_stepAlias]
  exact ⟨hy.trans (StepRecord.carry_of_stepAlias hname), hstatus⟩

lemma Suspends.windowStart_eq (h : x.Suspends y) : y.windowStart = x.windowStart := by
  obtain ⟨⟨t, i, hr, hs⟩, _⟩ := h
  obtain ⟨status, message, r, hf, hstarted⟩ :=
    (t.follows x.assignment.record).startedAt_of_running hs
  obtain ⟨hrecord, _⟩ := hr.record_eq hf
  obtain ⟨w, hm⟩ := hr.made
  have hstart : t.windowStart = x.windowStart := by
    rw [hm.windowStart_eq, hm.began_eq]
    rfl
  rw [windowStart, Assignment.windowStart, hrecord, hstarted, hstart]
  rfl

lemma Retries.windowStart_eq (h : x.Retries y) : y.windowStart = y.began := by
  obtain ⟨t, i, hr, hs, hi⟩ := h
  have hf := t.follows x.assignment.record
  cases hmove : t.follow x.assignment.record with
  | advance r result =>
    have hd := Attempt.succeeded_of_follow hmove
    simp [Attempt.not_succeeded_of_isFailure hs] at hd
  | stop status message r =>
    obtain ⟨hrecord, hstatus⟩ := hr.record_eq hmove
    rw [hmove, ← hstatus, hi] at hf
    rw [windowStart, Assignment.windowStart, hrecord, hf.startedAt_of_retried hs]
    rfl

/-! ### The end of an attempt -/

end Trial

/-! ### A step with five seconds -/

namespace Export

def runner : StepRunner (List Span) where
  run _ := .fetch fun
    | [] => .answer (.ok { status := .succeeded })
    | length :: rest => .store rest (.sleep length (.answer (.ok { status := .running })))

def engine : Engine (List Span) where
  registry := Registry.withBuiltins.register "export" { runner := { step := some runner } }
  workDirRoot := ⟨"/tmp"⟩

def step : Step where
  kind := "export"
  retry := some { timeoutSecs := some 5, errorThreshold := some 3 }

def request : PromotionRequest where
  project := "payments"
  stage := "prod"
  promotion := "prod.01"
  workDir := some "/work"

def world (lengths : List Span) (signal : Signal) : World (List Span) :=
  ⟨0, signal, lengths, default, fun n => ⟨2 * n, 0⟩, 0⟩

lemma admits (request : PromotionRequest) (hd : request.workDir = some "/work")
    (hs : request.startFromStep = 0) (w : World (List Span)) :
    engine.Admits request [step] w [⟨step, .carry request.records[0]? "step-0", runner, {}⟩]
      "/work" w := by
  obtain ⟨project, stage, promotion, workDir, state, start, records, freight⟩ := request
  obtain rfl : workDir = some "/work" := hd
  obtain rfl : start = 0 := hs
  refine ⟨rfl, Nat.zero_le _, ?_, rfl⟩
  cases records <;> rfl

def start : World (List Span) := world [⟨0⟩, .ofSeconds 6] .idle

lemma returned : (engine.promote request [step] start).isSome = true := rfl

def suspended : Invocation (List Span) × World (List Span) :=
  (engine.promote request [step] start).get returned

def hurried : World (List Span) :=
  world [.ofSeconds 60] (Signal.idle.cancelAt (Span.ofSeconds 2).nanoseconds)

def unhurried : World (List Span) := world [.ofSeconds 60] .idle

end Export
end Delivery
