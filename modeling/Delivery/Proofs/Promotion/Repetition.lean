import Delivery.Proofs.Interruption
import Delivery.Proofs.Promotion.Course
import Delivery.Proofs.Promotion.Window

/-! The same steps run again. Attempts that start from the same memory and have the same budget come to the same,
so a run that is not cancelled can be followed step by step in another world: in one where something cancels it,
up to there, and in one where nothing can cancel it, to its end. -/

namespace Delivery

variable {σ : Type}

/-- The record without its readings of the clock; it still shows which of them were taken. -/
def StepRecord.untimed (r : StepRecord) : StepRecord :=
  { r with startedAt := r.startedAt.map fun _ => ⟨0, 0⟩, finishedAt := r.finishedAt.map fun _ => ⟨0, 0⟩ }

def Move.untimed : Move → Move
  | advance record result => .advance record.untimed result
  | stop status message record => .stop status message record.untimed

namespace Attempt

def untimed (t : Attempt σ) : Attempt σ :=
  { t with began := ⟨0, 0⟩, windowStart := ⟨0, 0⟩, cause := none, ended := ⟨0, 0⟩ }

variable {t t' : Attempt σ}

lemma result_of_untimed (h : t'.untimed = t.untimed) : t'.result = t.result :=
  congrArg (·.result) h

lemma succeeded_of_untimed (h : t'.untimed = t.untimed) : t'.succeeded = t.succeeded :=
  congrArg (·.succeeded) h

lemma publish_of_untimed (h : t'.untimed = t.untimed) : t'.publish = t.publish :=
  congrArg (·.publish) h

lemma map_of_untimed {β : Type} {done done' : List (Attempt σ)} (f : Attempt σ → β)
    (hf : ∀ t : Attempt σ, f t.untimed = f t) (h : done'.map untimed = done.map untimed) :
    done'.map f = done.map f := by
  have hmap : f ∘ untimed = f := funext hf
  rw [← hmap, ← List.map_map, h, List.map_map]

lemma filterMap_of_untimed {β : Type} {done done' : List (Attempt σ)} (f : Attempt σ → Option β)
    (hf : ∀ t : Attempt σ, f t.untimed = f t) (h : done'.map untimed = done.map untimed) :
    done'.filterMap f = done.filterMap f := by
  have hmap : f ∘ untimed = f := funext hf
  rw [← hmap, ← List.filterMap_map, h, List.filterMap_map]

/-- What follows from an attempt that is not cancelled depends on the clock in the timestamps alone. -/
lemma follow_untimed (h : t'.untimed = t.untimed) (hc : t.cause = none) (hc' : t'.cause = none)
    (r : StepRecord) : (t'.follow r).untimed = (t.follow r).untimed := by
  have hresult := result_of_untimed h
  have hthreshold : t'.threshold = t.threshold := congrArg (·.threshold) h
  have henter : (t'.enter { r with startedAt := some t'.windowStart }).untimed =
      (t.enter { r with startedAt := some t.windowStart }).untimed := by
    simp only [enter, hresult, hthreshold]
    cases t.result.status with
    | succeeded => rfl
    | running => rfl
    | failed =>
      by_cases hle : t.threshold ≤ Retry.increment r.errorCount <;> simp only [Retry.enter, hle] <;> rfl
    | errored =>
      by_cases hle : t.threshold ≤ Retry.increment r.errorCount <;> simp only [Retry.enter, hle] <;> rfl
  simp only [follow, hc, hc', succeeded_of_untimed h]
  cases t.succeeded <;> exact henter

lemma follow_of_untimed (h : t'.untimed = t.untimed) (hc : t.cause = none) (hc' : t'.cause = none)
    {r r₁ : StepRecord} {status : Status} {message : Option String}
    (hf : t.follow r = .stop status message r₁) :
    ∃ r₂, t'.follow r = .stop status message r₂ ∧ r₂.untimed = r₁.untimed := by
  have hmoved := follow_untimed h hc hc' r
  rw [hf] at hmoved
  cases hm : t'.follow r with
  | advance => simp [hm, Move.untimed] at hmoved
  | stop status' message' r₂ =>
    simp only [hm, Move.untimed, Move.stop.injEq] at hmoved
    obtain ⟨rfl, rfl, hr⟩ := hmoved
    exact ⟨r₂, rfl, hr⟩

end Attempt

/-- The second runner does what the first does and is cancelled from outside on the way. -/
structure StepRunner.Interrupted (runner runner₁ : StepRunner σ) : Prop where
  defaultTimeout : runner₁.defaultTimeout = runner.defaultTimeout
  defaultThreshold : runner₁.defaultThreshold = runner.defaultThreshold
  run : ∀ context, (runner.run context).Interrupted (runner₁.run context)

namespace Assignment

structure Interrupted (a a₁ : Assignment σ) : Prop where
  step : a₁.step = a.step
  record : a₁.record = a.record
  permissions : a₁.permissions = a.permissions
  runner : a.runner.Interrupted a₁.runner

def Fresh (a : Assignment σ) : Prop := a.record.startedAt = none

def budget (a : Assignment σ) (defaults : PromotionDefaults) : Option Nat :=
  (a.timeout defaults).map (·.nanoseconds)

def conclude? (a : Assignment σ) (defaults : PromotionDefaults) :
    Ending (Except RunnerError StepResult) → Option Conclusion
  | .answered answer => some (.ofAnswer answer)
  | .cutOff => (a.timeout defaults).map .timedOut
  | .stuck => none

def runAfresh (a : Assignment σ) (defaults : PromotionDefaults) (context : StepContext σ) (w : World σ) :
    Ending (Except RunnerError StepResult) × World σ :=
  (a.runner.run context).run ((a.budget defaults).map (w.time + ·)) w.now.2

variable {a : Assignment σ} {defaults : PromotionDefaults}

lemma Fresh.limit?_eq (h : a.Fresh) {w : World σ} :
    a.limit? defaults w = some ((a.budget defaults).map (w.time + ·)) := by
  have hstart : a.elapsed w.now.1 = ⟨0⟩ := by
    have hzero : (w.now.1.since w.now.1).nanoseconds = 0 := Instant.since_of_ge (Int.le_refl _)
    rw [elapsed, windowStart, h, Option.getD_none, ← hzero]
  rw [limit?, budget]
  cases ht : a.timeout defaults with
  | none => rfl
  | some timeout =>
    simp [Retry.remainingBudget, Span.remainder?, hstart, timeout_pos ht]

lemma Fresh.invoke (h : a.Fresh) (defaults : PromotionDefaults) (context : StepContext σ) (w : World σ) :
    a.runner.invoke context (a.timeout defaults) (a.elapsed w.now.1) w.now.2 =
      (a.conclude? defaults (a.runAfresh defaults context w).1).map fun conclusion =>
        (true, conclusion, (a.runAfresh defaults context w).2) := by
  rw [invoke_of_limit? h.limit?_eq, runAfresh]
  obtain ⟨ending, w'⟩ :=
    (a.runner.run context).run ((a.budget defaults).map (w.time + ·)) w.now.2
  cases ending with
  | answered answer => rfl
  | cutOff => cases ht : a.timeout defaults <;> simp [conclude?, ht]
  | stuck => rfl

end Assignment

namespace Engine

/-- Nothing that a step runner of the engine comes to depends on the clock or the signal. -/
def Oblivious (e : Engine σ) : Prop :=
  ∀ kind runner permissions, e.registry.stepRunner kind = some (runner, permissions) →
    ∀ context, (runner.run context).Oblivious

structure Interrupted (e e₁ : Engine σ) : Prop where
  collaborators : e₁.collaborators = e.collaborators
  uiBaseUrl : e₁.uiBaseUrl = e.uiBaseUrl
  workDirRoot : e₁.workDirRoot = e.workDirRoot
  defaults : e₁.defaults = e.defaults
  stepRunner : ∀ kind runner permissions, e.registry.stepRunner kind = some (runner, permissions) →
    ∃ runner₁, e₁.registry.stepRunner kind = some (runner₁, permissions) ∧ runner.Interrupted runner₁

variable {e e₁ : Engine σ} {request : PromotionRequest} {steps : List Step} {dir : String}
  {a a₁ : Assignment σ} {w w₁ w' w₁' : World σ} {t t₁ : Attempt σ}

/-! ### One attempt -/

section

variable {request₁ : PromotionRequest} {index : Nat} {state : Payload}

lemma Makes.afresh (h : e.Makes request dir index state a w t w') (hf : a.Fresh) :
    t.invoked = true ∧
      a.conclude? e.defaults (a.runAfresh e.defaults t.context w).1 = some t.conclusion ∧
      t.cause = (a.runAfresh e.defaults t.context w).2.signal.cause ∧
      w' = (a.runAfresh e.defaults t.context w).2.now.2 := by
  obtain ⟨w₁, hi, hcause, _, rfl⟩ := h.answer
  have hstart : t.began.since t.windowStart = a.elapsed w.now.1 := by
    rw [h.windowStart_eq, h.began_eq]
    rfl
  rw [h.timeout_eq, hstart, hf.invoke] at hi
  obtain ⟨conclusion, hc, hmade⟩ := Option.map_eq_some_iff.mp hi
  obtain ⟨hinvoked, rfl, rfl⟩ : true = t.invoked ∧ conclusion = t.conclusion ∧ _ = w₁ := by
    simpa using hmade
  exact ⟨hinvoked.symm, hc, hcause, rfl⟩

lemma makes_afresh {p : Place σ} (hf : a.Fresh) {conclusion : Conclusion}
    (hc : a.conclude? e.defaults
      (a.runAfresh e.defaults (a.contextAt e request dir p) p.world).1 = some conclusion) :
    ∃ t, e.Makes request dir p.index p.state a p.world t
      (a.runAfresh e.defaults (a.contextAt e request dir p) p.world).2.now.2 := by
  have hi := hf.invoke e.defaults (a.contextAt e request dir p) p.world
  rw [hc, Option.map_some] at hi
  obtain ⟨t, ht, _⟩ := makes_of_invoke hi
  exact ⟨t, ht⟩

lemma Makes.untimed_eq (h : e.Makes request dir index state a w t w')
    (h₁ : e₁.Makes request₁ dir index state a₁ w₁ t₁ w₁') (hf : a.Fresh) (hf₁ : a₁.Fresh)
    (hcontext : t₁.context = t.context) (htimeout : a₁.timeout e₁.defaults = a.timeout e.defaults)
    (hthreshold : a₁.threshold e₁.defaults = a.threshold e.defaults)
    (hagree : Behaviour.Agree (a₁.runAfresh e₁.defaults t.context w₁)
      (a.runAfresh e.defaults t.context w)) :
    t₁.untimed = t.untimed ∧ w₁'.memory = w'.memory := by
  obtain ⟨hinvoked, hconclusion, _, rfl⟩ := h.afresh hf
  obtain ⟨hinvoked₁, hconclusion₁, _, rfl⟩ := h₁.afresh hf₁
  rw [hcontext] at hconclusion₁ ⊢
  refine ⟨?_, hagree.2⟩
  have hsame : t₁.conclusion = t.conclusion := by
    rw [← Option.some.injEq, ← hconclusion, ← hconclusion₁, hagree.1]
    simp only [Assignment.conclude?, htimeout]
  simp only [Attempt.untimed, Attempt.mk.injEq]
  exact ⟨h₁.index_eq.trans h.index_eq.symm, hcontext, trivial, trivial,
    by rw [h₁.timeout_eq, htimeout, h.timeout_eq], by rw [h₁.threshold_eq, hthreshold, h.threshold_eq],
    hinvoked₁.trans hinvoked.symm, hsame, trivial, trivial⟩

end

/-! ### Up to a cancellation -/

/-- Where two runs are in step: at the same index, with the same state and memory. -/
structure InStep (p p₁ : Place σ) : Prop where
  index : p₁.index = p.index
  state : p₁.state = p.state
  memory : p₁.world.memory = p.world.memory

/-- Every assignment that is left is fresh, and in the second run it is cancelled from outside. -/
def LeftInterrupted (p p₁ : Place σ) : Prop :=
  List.Forall₂ (fun a a₁ : Assignment σ => a.Fresh ∧ a.Interrupted a₁) p.left p₁.left

variable {p p₁ q q₁ : Place σ} {done done₁ : List (Attempt σ)}

lemma InStep.next (hp : InStep p p₁) (h : t₁.untimed = t.untimed) (hm : w₁.memory = w.memory)
    {rest rest₁ : List (Assignment σ)} :
    InStep ⟨p.index + 1, t.publish p.state, rest, w⟩
      ⟨p₁.index + 1, t₁.publish p₁.state, rest₁, w₁⟩ where
  index := congrArg (· + 1) hp.index
  state := by rw [Attempt.publish_of_untimed h, hp.state]
  memory := hm

lemma Makes.agree (h : e.Makes request dir p.index p.state a p.world t w')
    (h₁ : e₁.Makes request dir p₁.index p₁.state a₁ p₁.world t₁ w₁') (hp : InStep p p₁)
    (he : e.Interrupted e₁) (hf : a.Fresh) (ha : a.Interrupted a₁)
    (ho : ∀ context, (a.runner.run context).Oblivious) :
    t₁.untimed = t.untimed ∧ w₁'.memory = w'.memory := by
  rw [hp.index, hp.state] at h₁
  have htimeout : a₁.timeout e₁.defaults = a.timeout e.defaults := by
    rw [Assignment.timeout, Assignment.timeout, ha.step, ha.runner.defaultTimeout, he.defaults]
  have hthreshold : a₁.threshold e₁.defaults = a.threshold e.defaults := by
    rw [Assignment.threshold, Assignment.threshold, ha.step, ha.runner.defaultThreshold, he.defaults]
  have hcontext : t₁.context = t.context := by
    rw [h₁.context_eq, h.context_eq, he.collaborators, he.uiBaseUrl, ha.permissions, ha.step,
      ha.record]
  have hf₁ : a₁.Fresh := by
    rw [Assignment.Fresh, ha.record]
    exact hf
  refine h.untimed_eq h₁ hf hf₁ hcontext htimeout hthreshold ?_
  simp only [Assignment.runAfresh, Assignment.budget, htimeout]
  exact ho _ _ (ha.runner.run _) _ p.world.now.2 p₁.world.now.2 hp.memory

lemma Passes.agree (h : e.Passes request dir p done q) (h₁ : e₁.Passes request dir p₁ done₁ q₁)
    (hp : InStep p p₁) (hl : LeftInterrupted p p₁) (he : e.Interrupted e₁)
    (ho : ∀ a ∈ p.left, ∀ context, (a.runner.run context).Oblivious)
    (hlength : done₁.length ≤ done.length) :
    done₁.map Attempt.untimed = (done.take done₁.length).map Attempt.untimed ∧
      ∃ m, e.Passes request dir p (done.take done₁.length) m ∧
        e.Passes request dir m (done.drop done₁.length) q ∧ InStep m q₁ ∧ LeftInterrupted m q₁ := by
  induction h₁ generalizing p done with
  | here => exact ⟨rfl, p, .here p, h, hp, hl⟩
  | @pass p₁ q₁ a₁ rest₁ t₁ w₁ done₁ hleft₁ hidle₁ hmade₁ hs₁ hrest₁ ih =>
    cases h with
    | here => simp at hlength
    | @pass _ _ a rest t w done hleft hidle hmade hs hrest =>
      rw [LeftInterrupted, hleft, hleft₁, List.forall₂_cons] at hl
      obtain ⟨⟨hf, ha⟩, hl⟩ := hl
      rw [hleft] at ho
      obtain ⟨huntimed, hmemory⟩ := hmade.agree hmade₁ hp he hf ha (ho a List.mem_cons_self)
      obtain ⟨hmap, m, hpm, hmq, hm⟩ := ih hrest (hp.next huntimed hmemory) hl
        (fun b hb => ho b (List.mem_cons_of_mem _ hb)) (Nat.le_of_succ_le_succ hlength)
      refine ⟨?_, m, .pass hleft hidle hmade hs hpm, hmq, hm⟩
      rw [List.length_cons, List.take_succ_cons, List.map_cons, List.map_cons, huntimed, hmap]

/-! ### To the end without a cancellation -/

lemma Makes.again (previous : PromotionResult)
    (h : e.Makes request dir p.index p.state a p.world t w') (hf : a.Fresh)
    (hc : w'.signal.cause = none) (hp : InStep p p₁) (hidle : p₁.world.signal = .idle) :
    ∃ t₁ w₁', e.Makes (request.resumeFrom previous) dir p₁.index p₁.state a p₁.world t₁ w₁' ∧
      t₁.untimed = t.untimed ∧ w₁'.memory = w'.memory ∧ w₁'.signal = .idle := by
  obtain ⟨_, hconclusion, _, rfl⟩ := h.afresh hf
  have hcontext : t.context = a.contextAt e (request.resumeFrom previous) dir p₁ := by
    rw [h.context_eq, Assignment.contextAt, hp.state]
    rfl
  obtain ⟨hagree, hend⟩ := Behaviour.run_again (b := a.runner.run t.context)
    (Behaviour.sameBudget_map (a.budget e.defaults) p.world.now.2 p₁.world.now.2) hp.memory hidle hc
  have hagree : Behaviour.Agree (a.runAfresh e.defaults t.context p₁.world)
      (a.runAfresh e.defaults t.context p.world) := hagree
  obtain ⟨t₁, ht₁⟩ : ∃ t₁, e.Makes (request.resumeFrom previous) dir p₁.index p₁.state a p₁.world t₁
      (a.runAfresh e.defaults (a.contextAt e (request.resumeFrom previous) dir p₁) p₁.world).2.now.2 :=
    makes_afresh hf (by rw [← hcontext, hagree.1, hconclusion])
  rw [← hcontext] at ht₁
  have hmade₁ := ht₁
  rw [hp.index, hp.state] at hmade₁
  have hcontext₁ : t₁.context = t.context := by
    rw [hcontext, ht₁.context_eq]
    rfl
  obtain ⟨huntimed, hmemory⟩ := h.untimed_eq hmade₁ hf hf hcontext₁ rfl rfl hagree
  exact ⟨t₁, _, ht₁, huntimed, hmemory, hend⟩

lemma Passes.idle (h : e.Passes request dir p done q) (hc : q.world.signal.cause = none) :
    p.world.signal.cause = none := by
  cases h with
  | here => exact hc
  | pass _ hidle => exact hidle

lemma Passes.again (previous : PromotionResult) (h : e.Passes request dir p done q)
    (hc : q.world.signal.cause = none) (hf : ∀ a ∈ p.left, a.Fresh) (hp : InStep p p₁)
    (hleft : p₁.left = p.left) (hidle : p₁.world.signal = .idle) :
    ∃ done₁ q₁, e.Passes (request.resumeFrom previous) dir p₁ done₁ q₁ ∧
      done₁.map Attempt.untimed = done.map Attempt.untimed ∧ InStep q q₁ ∧ q₁.left = q.left ∧
      q₁.world.signal = .idle := by
  induction h generalizing p₁ with
  | here p => exact ⟨[], p₁, .here p₁, rfl, hp, hleft, hidle⟩
  | @pass p q a rest t w done hl _ hmade hs hrest ih =>
    rw [hl] at hf hleft
    obtain ⟨t₁, w₁, hmade₁, huntimed, hmemory, hend⟩ :=
      hmade.again previous (hf a List.mem_cons_self) (hrest.idle hc) hp hidle
    obtain ⟨done₁, q₁, hpassed, hmap, hq⟩ :=
      ih hc (fun b hb => hf b (List.mem_cons_of_mem _ hb)) (hp.next huntimed hmemory) rfl hend
    have hidle₁ : p₁.world.signal.cause = none := by rw [hidle]; rfl
    have hs₁ : t₁.succeeded = true := by rw [Attempt.succeeded_of_untimed huntimed, hs]
    exact ⟨t₁ :: done₁, q₁, .pass hleft hidle₁ hmade₁ hs₁ hpassed,
      by rw [List.map_cons, List.map_cons, huntimed, hmap], hq⟩

lemma Ends.again (previous : PromotionResult) {last : Invocation σ}
    (h : e.Ends request dir p last w') (hc : w'.signal.cause = none) (hf : ∀ a ∈ p.left, a.Fresh)
    (hp : InStep p p₁) (hleft : p₁.left = p.left) (hidle : p₁.world.signal = .idle) :
    ∃ last₁ w₁', e.Ends (request.resumeFrom previous) dir p₁ last₁ w₁' ∧
      last₁.result.status = last.result.status ∧ last₁.result.message = last.result.message ∧
      last₁.result.records.map StepRecord.untimed = last.result.records.map StepRecord.untimed ∧
      last₁.attempts.map Attempt.untimed = last.attempts.map Attempt.untimed := by
  cases h with
  | completed hl => exact ⟨_, _, .completed (hleft.trans hl), rfl, rfl, rfl, rfl⟩
  | canceled _ hcause => simp [hcause] at hc
  | @halted a rest t w status message r hl _ hmade hstop =>
    rw [hl] at hf hleft
    obtain ⟨t₁, w₁, hmade₁, huntimed, _, hend⟩ :=
      hmade.again previous (hf a List.mem_cons_self) hc hp hidle
    have hcause : t.cause = none := hmade.cause.trans hc
    have hcause₁ : t₁.cause = none := by rw [hmade₁.cause, hend]; rfl
    obtain ⟨r₁, hstop₁, hr₁⟩ := Attempt.follow_of_untimed huntimed hcause hcause₁ hstop
    have hidle₁ : p₁.world.signal.cause = none := by rw [hidle]; rfl
    refine ⟨_, _, .halted hleft hidle₁ hmade₁ hstop₁, rfl, rfl, ?_, ?_⟩
    · simp only [Invocation.stopped, List.map_cons, hr₁]
    · simp only [List.map_cons, List.map_nil, huntimed]

end Engine

end Delivery
