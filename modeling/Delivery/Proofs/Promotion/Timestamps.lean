import Delivery.Proofs.Promotion.Threshold
import Delivery.Proofs.Promotion.Window

/-! The times in the entry of a step. Over calls that resume one another, each by an engine of its own, the start
that an entry shows is that of the last attempt, unless this one failed and is to be made again; and it shows a
finish from the first call on that ended with the step in another way than by leaving it for later. -/

namespace Delivery

variable {σ : Type} {e : Engine σ} {steps : List Step}

namespace Engine.Makes

variable {request : PromotionRequest} {dir : String} {index : Nat} {state : Payload} {a : Assignment σ}
  {w w' : World σ} {t : Attempt σ}

lemma unseen_iff (h : e.Makes request dir index state a w t w') :
    t.invoked = false ↔ ∃ limit, t.timeout = some limit ∧ t.conclusion = .timedOut limit ∧
      limit.nanoseconds ≤ (t.began.since t.windowStart).nanoseconds := by
  obtain ⟨w₁, hi, _⟩ := h.answer
  have hc := StepRunner.concludes_of_invoke hi
  generalize t.invoked = invoked, t.conclusion = conclusion at hc ⊢
  cases hc with
  | exhausted ht hle => exact iff_of_true rfl ⟨_, ht, rfl, hle⟩
  | answered ht hlt =>
    refine iff_of_false (by simp) ?_
    rintro ⟨limit, hlimit, _, hle⟩
    obtain rfl := Option.some.inj (hlimit.symm.trans ht)
    omega
  | cutOff ht hlt =>
    refine iff_of_false (by simp) ?_
    rintro ⟨limit, hlimit, _, hle⟩
    obtain rfl := Option.some.inj (hlimit.symm.trans ht)
    omega
  | unlimited ht => simp [ht]

lemma invoked_of_afresh (h : e.Makes request dir index state a w t w') (hs : t.windowStart = t.began) :
    t.invoked = true := by
  by_contra hn
  obtain ⟨limit, ht, _, hle⟩ := h.unseen_iff.mp (by simpa using hn)
  rw [hs, Instant.since_of_ge (Int.le_refl _)] at hle
  have hpos := Assignment.timeout_pos (h.timeout_eq.symm.trans ht)
  omega

end Engine.Makes

namespace Call

/-- A call that stops at the step at an index since its kind has no runner. -/
def Misses (c : Call e steps) (j : Nat) : Prop :=
  StepProblem.ofSteps steps = [] ∧ e.FirstUnresolved steps c.request.startFromStep j

def Retries (c : Call e steps) (t : Attempt σ) : Prop := c.result.status = .running ∧ t.failed = true

instance (c : Call e steps) (t : Attempt σ) : Decidable (c.Retries t) := inferInstanceAs (Decidable (_ ∧ _))

def windowAfter (c : Call e steps) (t : Attempt σ) : Option Instant :=
  if c.Retries t then none else some t.windowStart

def Closes (c : Call e steps) (j : Nat) : Prop :=
  c.Misses j ∨ ∃ t ∈ c.attemptsOn j, t.succeeded = true ∨ c.result.status ≠ .running

/-- What a call does to the times in the entry of the step at an index. -/
inductive Stamps (c : Call e steps) (j : Nat) (r : StepRecord) : StepRecord → Prop
  | spared (ha : c.attemptsOn j = []) (hm : ¬ c.Misses j) : Stamps c j r r
  | missed {r' : StepRecord} (ha : c.attemptsOn j = []) (hm : c.Misses j) (hc : c.result.status = .errored)
      (hs : r'.startedAt = r.startedAt) (hf : r'.finishedAt.isSome = true) (hr : r'.status = some .errored) :
      Stamps c j r r'
  | passed {t : Attempt σ} (ha : c.attemptsOn j = [t]) (ht : t.succeeded = true) (hlt : j < c.result.currentStep) :
      Stamps c j r t.closed
  | left {t : Attempt σ} {r' : StepRecord} (ha : c.attemptsOn j = [t]) (hm : ¬ c.Misses j) (ht : t.succeeded = false)
      (hc : c.result.status = .running) (hs : r'.startedAt = c.windowAfter t) (hf : r'.finishedAt = r.finishedAt) :
      Stamps c j r r'
  | ended {t : Attempt σ} {r' : StepRecord} (ha : c.attemptsOn j = [t]) (ht : t.succeeded = false)
      (hc : c.result.status ≠ .running) (hs : r'.startedAt = some t.windowStart) (hf : r'.finishedAt = some t.ended)
      (hr : r'.status ≠ some .running) : Stamps c j r r'

variable {c : Call e steps} {j : Nat} {r r' : StepRecord} {t : Attempt σ}

lemma windowAfter_of_not_failed (h : t.failed = false) : c.windowAfter t = some t.windowStart := by
  rw [windowAfter, if_neg]
  simp [Retries, h]

lemma windowAfter_of_not_running (h : c.result.status ≠ .running) : c.windowAfter t = some t.windowStart := by
  rw [windowAfter, if_neg]
  exact fun hr => h hr.1

lemma stamps_of_halted {message : Option String} (ha : c.attemptsOn j = [t]) (hm : ¬ c.Misses j)
    (hf : t.Follows r (.stop c.result.status message r')) : c.Stamps j r r' := by
  generalize hmove : Move.stop c.result.status message r' = move at hf
  cases hf with
  | succeeded => cases hmove
  | canceled hs =>
    injection hmove with hc _ hr
    refine .ended ha (by simpa [Attempt.succeeded] using hs) ?_ ?_ ?_ ?_
    · simp [hc]
    · rw [hr]
    · rw [hr]
    · simp [hr]
  | suspended hs =>
    injection hmove with hc _ hr
    refine .left ha hm (by simp [Attempt.succeeded, hs]) hc ?_ ?_
    · rw [windowAfter_of_not_failed (by simp [Attempt.failed, hs, Status.isFailure]), hr]
    · rw [hr]
  | retried hs =>
    injection hmove with hc _ hr
    refine .left ha hm (Attempt.not_succeeded_of_isFailure hs) hc ?_ ?_
    · rw [windowAfter, if_pos ⟨hc, hs⟩, hr]
    · rw [hr]
  | aborted hs =>
    injection hmove with hc _ hr
    have hnot := Attempt.not_running_of_failed hs
    refine .ended ha (Attempt.not_succeeded_of_isFailure hs) ?_ ?_ ?_ ?_
    · rwa [hc]
    · rw [hr]
    · rw [hr]
    · simpa [hr] using hnot

lemma not_misses_of_resolves (h : e.Resolves steps c.request.startFromStep) : ¬ c.Misses j :=
  fun hm => hm.2.not_resolves hm.2.1 h

theorem stamps (hr : (c.request.recordsFor steps)[j]? = some r) :
    ∃ r', c.result.records[j]? = some r' ∧ c.Stamps j r r' := by
  have hlt : j < steps.length := by
    rw [← StepRecord.normalize_length c.request.records steps]
    exact (List.getElem?_eq_some_iff.mp hr).1
  obtain ⟨request, w, i, w', h⟩ := c
  cases Engine.promote_concludes h with
  | @walked left dir w₀ _ done q last ha hp he =>
    have hw : Walked ⟨request, w, _, w', h⟩ left dir w₀ done q last := ⟨ha, hp, he, rfl⟩
    have hm : ¬ Misses ⟨request, w, _, w', h⟩ j := not_misses_of_resolves (Engine.resolves_of_assign ha.assigned)
    cases hw.handles hlt hr with
    | spared ha hr => exact ⟨r, hr, .spared ha hm⟩
    | passed ha ht hr hlt => exact ⟨_, hr, .passed ha ht hlt⟩
    | halted ha _ _ hf hr => exact ⟨_, hr, stamps_of_halted ha hm hf⟩
  | refused hrefused =>
    cases hrefused with
    | invalid hv => exact ⟨r, hr, .spared rfl fun hm => hv hm.1⟩
    | outOfRange _ hs =>
      refine ⟨r, hr, .spared rfl fun hm => ?_⟩
      have hle : request.startFromStep ≤ j := hm.2.1
      omega
    | @unassigned u hv _ hu =>
      have hfirst := Engine.firstUnresolved_of_assign hu
      by_cases hj : j = u.index
      · subst hj
        refine ⟨u.mark w.now.1 r, ?_, .missed rfl ⟨hv, hfirst⟩ rfl rfl rfl rfl⟩
        exact (List.getElem?_modify_eq _ _ _).trans (congrArg (Option.map _) hr)
      · refine ⟨r, ?_, .spared rfl fun hm => hj (hm.2.unique hfirst)⟩
        exact (List.getElem?_modify_ne _ _ (Ne.symm hj)).trans hr
    | noWorkDir _ _ ha =>
      exact ⟨r, hr, .spared rfl (not_misses_of_resolves (Engine.resolves_of_assign ha))⟩

lemma exists_stamps (hr : c.result.records[j]? = some r') :
    ∃ r, (c.request.recordsFor steps)[j]? = some r ∧ c.Stamps j r r' := by
  obtain ⟨step, hstep, _⟩ := Option.map_eq_some_iff.mp (record_stepAlias hr)
  have hlt : j < (c.request.recordsFor steps).length := by
    rw [StepRecord.normalize_length]
    exact (List.getElem?_eq_some_iff.mp hstep).1
  have hbefore := List.getElem?_eq_getElem hlt
  obtain ⟨r'', hr'', hc⟩ := stamps hbefore
  obtain rfl := Option.some.inj (hr''.symm.trans hr)
  exact ⟨_, hbefore, hc⟩

lemma exists_made (ht : t ∈ c.attemptsOn j) :
    ∃ dir state a w w', e.Assigned c.request steps j a ∧ e.Makes c.request dir j state a w t w' := by
  obtain ⟨ht, hj⟩ := List.mem_filter.mp ht
  obtain ⟨dir, done, p, a, w', hstarts, hmade⟩ := Engine.exists_starts c.returned ht
  obtain rfl : p.index = j := by simpa [hmade.index_eq] using hj
  exact ⟨dir, p.state, a, p.world, w', hstarts.assigned, hmade⟩

lemma attemptsOn_before (h : j < c.request.startFromStep) : c.attemptsOn j = [] := by
  rw [attemptsOn, List.filter_eq_nil_iff]
  intro t ht hj
  have hle := Engine.start_le_index c.returned ht
  have hj : t.index = j := by simpa using hj
  omega

namespace Stamps

lemma eq_of_before (h : c.Stamps j r r') (hlt : j < c.request.startFromStep) : r' = r := by
  have hnone := attemptsOn_before hlt
  cases h with
  | spared => rfl
  | missed _ hm => exact absurd hm.2.1 (Nat.not_le.mpr hlt)
  | passed ha | left ha | ended ha => simp [ha] at hnone

lemma finishedAt_eq_none_iff (h : c.Stamps j r r') :
    r'.finishedAt = none ↔ r.finishedAt = none ∧ ¬ c.Closes j := by
  cases h with
  | spared ha hm => simp [Closes, ha, hm]
  | missed _ hm _ _ hf =>
    exact iff_of_false (fun hn => by simp [hn] at hf) fun hn => hn.2 (.inl hm)
  | @passed t ha ht =>
    exact iff_of_false (fun hn => by cases hn) fun hn => hn.2 (.inr ⟨t, by simp [ha], .inl ht⟩)
  | left ha hm ht hc _ hf => simp [Closes, ha, hm, ht, hc, hf]
  | @ended t _ ha _ hc _ hf =>
    exact iff_of_false (fun hn => by simp [hn] at hf) fun hn => hn.2 (.inr ⟨t, by simp [ha], .inr hc⟩)

lemma succeeded (h : c.Stamps j r r') (hm : t ∈ c.attemptsOn j) (ht : t.succeeded = true) :
    j < c.result.currentStep ∧ r'.status = some .succeeded := by
  cases h with
  | spared ha | missed ha => simp [ha] at hm
  | passed _ _ hlt => exact ⟨hlt, rfl⟩
  | left ha _ hn | ended ha hn =>
    obtain rfl : t = _ := by simpa [ha] using hm
    simp [ht] at hn

lemma attemptsOn_eq (h : c.Stamps j r r') (ht : t ∈ c.attemptsOn j) : c.attemptsOn j = [t] := by
  cases h with
  | spared ha | missed ha => simp [ha] at ht
  | passed ha | left ha | ended ha =>
    obtain rfl : t = _ := by simpa [ha] using ht
    exact ha

lemma not_closes_of_open (h : c.Stamps j r r')
    (hopen : r'.status = some .running ∨ c.result.status = .running ∧ c.result.currentStep = j) : ¬ c.Closes j := by
  cases h with
  | spared ha hm => simp [Closes, ha, hm]
  | missed _ _ hc _ _ hr => simp [hc, hr] at hopen
  | passed _ _ hlt =>
    obtain hr | ⟨_, hj⟩ := hopen
    · cases hr
    · exact absurd hj (Nat.ne_of_gt hlt)
  | left ha hm ht hc => simp [Closes, ha, hm, ht, hc]
  | ended _ _ hc _ _ hr => simp [hc, hr] at hopen

end Stamps
end Call

structure Turn (σ : Type) (steps : List Step) where
  engine : Engine σ
  call : Call engine steps

def Turn.triesOn (j : Nat) (c : Turn σ steps) : List (Turn σ steps × Attempt σ) :=
  (c.call.attemptsOn j).map fun t => (c, t)

/-- Calls in order and the last of them, each by an engine of its own. The first starts afresh, and each later one
resumes the result of the one before it, however this ended. -/
inductive Relay : List (Turn σ steps) → Turn σ steps → Prop
  | fresh {c : Turn σ steps} (hstart : c.call.request.startFromStep = 0) (hrecords : c.call.request.records = []) :
      Relay [] c
  | resumed {past : List (Turn σ steps)} {previous c : Turn σ steps} (base : PromotionRequest)
      (h : Relay past previous) (hr : c.call.request = base.resumeFrom previous.call.result) :
      Relay (past ++ [previous]) c

structure Stamped (calls : List (Turn σ steps)) (start j : Nat) (r : StepRecord) : Prop where
  startedAt_eq : r.startedAt = (calls.flatMap (·.triesOn j)).getLast?.bind fun p => p.1.call.windowAfter p.2
  finishedAt_eq_none_iff : r.finishedAt = none ↔ ∀ c ∈ calls, ¬ c.call.Closes j
  succeeded : ∀ c ∈ calls, ∀ t ∈ c.call.attemptsOn j, t.succeeded = true → j < start ∧ r.status = some .succeeded

variable {calls past : List (Turn σ steps)} {c last : Turn σ steps} {j : Nat} {r r' : StepRecord} {t : Attempt σ}

lemma Stamped.nil (start j : Nat) (name : String) :
    Stamped ([] : List (Turn σ steps)) start j (.carry none name) where
  startedAt_eq := rfl
  finishedAt_eq_none_iff := by simp [StepRecord.carry]
  succeeded := by simp

theorem Stamped.step (h : Stamped calls c.call.request.startFromStep j r) (hc : c.call.Stamps j r r') :
    Stamped (calls ++ [c]) c.call.result.currentStep j r' := by
  have htries : (calls ++ [c]).flatMap (·.triesOn j) = calls.flatMap (·.triesOn j) ++ c.triesOn j := by simp
  have hmade (t : Attempt σ) (ha : c.call.attemptsOn j = [t]) :
      (calls.flatMap (·.triesOn j) ++ c.triesOn j).getLast? = some (c, t) := by
    rw [Turn.triesOn, ha]
    exact List.getLast?_concat
  have hspared (ha : c.call.attemptsOn j = []) :
      calls.flatMap (·.triesOn j) ++ c.triesOn j = calls.flatMap (·.triesOn j) := by
    rw [Turn.triesOn, ha]
    exact List.append_nil _
  constructor
  case startedAt_eq =>
    rw [htries]
    cases hc with
    | spared ha => rw [hspared ha, h.startedAt_eq]
    | missed ha _ _ hs => rw [hspared ha, hs, h.startedAt_eq]
    | @passed t ha ht =>
      have hf : t.failed = false := by rw [Attempt.failed, (Attempt.succeeded_iff t).mp ht]; rfl
      rw [hmade t ha]
      exact (Call.windowAfter_of_not_failed hf).symm
    | left ha _ _ _ hs => rw [hmade _ ha, hs]; rfl
    | ended ha _ hc hs => rw [hmade _ ha, hs]; exact (Call.windowAfter_of_not_running hc).symm
  case finishedAt_eq_none_iff =>
    rw [hc.finishedAt_eq_none_iff, h.finishedAt_eq_none_iff, List.forall_mem_append, List.forall_mem_singleton]
  case succeeded =>
    intro d hd t ht hs
    rcases List.mem_append.mp hd with hd | hd
    · obtain ⟨hlt, hstatus⟩ := h.succeeded d hd t ht hs
      rw [hc.eq_of_before hlt]
      exact ⟨Nat.lt_of_lt_of_le hlt (Engine.start_le_currentStep c.call.returned), hstatus⟩
    · obtain rfl := List.mem_singleton.mp hd
      exact hc.succeeded ht hs

namespace Relay

theorem stamped (h : Relay past last) {r : StepRecord} (hr : (last.call.request.recordsFor steps)[j]? = some r) :
    Stamped past last.call.request.startFromStep j r := by
  induction h generalizing r with
  | fresh _ hrecords =>
    rw [StepRecord.normalize_getElem?, hrecords] at hr
    obtain ⟨step, _, rfl⟩ := Option.map_eq_some_iff.mp hr
    exact .nil _ _ _
  | @resumed past previous c base _ hresumed ih =>
    rw [Call.recordsFor_of_resumed hresumed] at hr
    obtain ⟨r', hbefore, hc⟩ := Call.exists_stamps hr
    have hstart : c.call.request.startFromStep = previous.call.result.currentStep := by rw [hresumed]; rfl
    rw [hstart]
    exact (ih hbefore).step hc

theorem attempt_unseen_iff (h : Relay past last) (ht : t ∈ last.call.attemptsOn j) :
    last.call.attemptsOn j = [t] ∧
    (t.invoked = false ↔ ∃ limit, t.timeout = some limit ∧ t.conclusion = .timedOut limit ∧
      limit.nanoseconds ≤ (t.began.since t.windowStart).nanoseconds) ∧
    (past.flatMap (·.triesOn j) = [] → t.windowStart = t.began ∧ t.invoked = true) ∧
    ∀ c p, (past.flatMap (·.triesOn j)).getLast? = some (c, p) → p.succeeded = false ∧
      (c.call.Retries p → t.windowStart = t.began ∧ t.invoked = true) ∧
      (¬ c.call.Retries p → t.windowStart = p.windowStart) := by
  obtain ⟨dir, state, a, w, w', hassigned, hm⟩ := Call.exists_made ht
  have hrecord := hassigned.recordsFor_getElem?
  have hs := h.stamped hrecord
  obtain ⟨r', _, hc⟩ := Call.stamps hrecord
  have hafresh (hnone : a.record.startedAt = none) : t.windowStart = t.began ∧ t.invoked = true := by
    have hstart : t.windowStart = t.began := by rw [hm.windowStart_eq, hnone]; rfl
    exact ⟨hstart, hm.invoked_of_afresh hstart⟩
  refine ⟨hc.attemptsOn_eq ht, hm.unseen_iff, ?_, ?_⟩
  · intro hnone
    apply hafresh
    rw [hs.startedAt_eq, hnone]
    rfl
  · intro c p hlast
    have hkept : a.record.startedAt = c.call.windowAfter p := by rw [hs.startedAt_eq, hlast]; rfl
    refine ⟨?_, ?_, ?_⟩
    · -- A step that has succeeded lies before the start of every later call, so that it is not tried again.
      by_contra hsucceeded
      obtain ⟨d, hd, hp⟩ := List.mem_flatMap.mp (List.mem_of_getLast? hlast)
      obtain ⟨p', hp', hpair⟩ := List.mem_map.mp hp
      obtain ⟨rfl, rfl⟩ := Prod.mk.inj hpair
      obtain ⟨hlt, _⟩ := hs.succeeded d hd p' hp' (by simpa using hsucceeded)
      simp [Call.attemptsOn_before hlt] at ht
    · intro hr
      apply hafresh
      rw [hkept, Call.windowAfter, if_pos hr]
    · intro hr
      rw [hm.windowStart_eq, hkept, Call.windowAfter, if_neg hr]
      rfl

end Relay

/-! ### A step that is tried once more after twenty seconds -/

namespace Prompted
open Scripted (request)

def runner : StepRunner (List (Option Cause × Status)) where
  run _ := .fetch fun
    | [] => .answer (.ok { status := .succeeded })
    | (none, status) :: rest => .store rest (.answer (.ok { status }))
    | (some cause, status) :: rest => .store rest (.cancel cause (.answer (.ok { status })))

def bare : Engine (List (Option Cause × Status)) where
  registry := .withBuiltins
  workDirRoot := ⟨"/tmp"⟩

def engine : Engine (List (Option Cause × Status)) :=
  { bare with registry := bare.registry.register "approve" { runner := { step := some runner } } }

def hurried : List Step := [{ kind := "approve", retry := some { timeoutSecs := some 5 } }]

def unhurried : List Step := [{ kind := "approve" }]

def world (script : List (Option Cause × Status)) : World (List (Option Cause × Status)) :=
  ⟨0, .idle, script, default, fun n => ⟨10 * n, 0⟩, 0⟩

def again {e : Engine (List (Option Cause × Status))} {steps : List Step} (c : Call e steps)
    (h : (engine.promote (request.resumeFrom c.result) steps { c.after with signal := .idle }).isSome = true) :
    Call engine steps :=
  .make (request.resumeFrom c.result) { c.after with signal := .idle } h

lemma relay_again {e : Engine (List (Option Cause × Status))} {steps : List Step} {c : Call e steps}
    (hc : c.request = request)
    (h : (engine.promote (request.resumeFrom c.result) steps { c.after with signal := .idle }).isSome = true) :
    Relay [⟨e, c⟩] ⟨engine, again c h⟩ := by
  have hfresh : Relay [] ⟨e, c⟩ := .fresh (by rw [hc]; rfl) (by rw [hc]; rfl)
  exact .resumed request hfresh rfl

lemma resolves_unhurried : engine.Resolves unhurried 0 := by
  intro j step _ hstep
  obtain rfl := List.mem_singleton.mp (List.mem_of_getElem? hstep)
  rfl

def suspended : Call engine hurried := .make request (world [(none, .running)]) rfl

def aborted : Call engine hurried := .make request (world [(none, .failed)]) rfl

def canceled : Call engine hurried := .make request (world [(some .canceled, .running)]) rfl

def suspendedFirst : Call engine unhurried := .make request (world [(none, .running), (none, .running)]) rfl

def canceledFirst : Call engine unhurried := .make request (world [(some .canceled, .running), (none, .running)]) rfl

def missedFirst : Call bare unhurried := .make request (world [(none, .running)]) rfl

end Prompted

namespace Relay
open Prompted

theorem attempt_unseen_iff_suspended :
    ∃ (second : Call engine hurried) (p t : Attempt (List (Option Cause × Status))),
      Relay [⟨engine, suspended⟩] ⟨engine, second⟩ ∧ suspended.attemptsOn 0 = [p] ∧ p.result.status = .running ∧
      second.attemptsOn 0 = [t] ∧ t.windowStart = p.windowStart ∧ t.invoked = false := by
  have h := relay_again (c := suspended) rfl rfl
  obtain ⟨p, hp, hrunning, hstart⟩ :
      ∃ p, suspended.attemptsOn 0 = [p] ∧ p.result.status = .running ∧ p.windowStart = ⟨0, 0⟩ :=
    ⟨_, rfl, rfl, rfl⟩
  obtain ⟨t, ht, htimeout, hconclusion, hbegan⟩ : ∃ t, t ∈ (again suspended rfl).attemptsOn 0 ∧
      t.timeout = some (.ofSeconds 5) ∧ t.conclusion = .timedOut (.ofSeconds 5) ∧ t.began = ⟨20, 0⟩ :=
    ⟨_, List.mem_cons_self, rfl, rfl, rfl⟩
  obtain ⟨hone, hunseen, _, hlast⟩ := attempt_unseen_iff h ht
  have hpast : (List.flatMap (·.triesOn 0) [(⟨engine, suspended⟩ : Turn _ hurried)]).getLast? =
      some (⟨engine, suspended⟩, p) := by
    simp [Turn.triesOn, hp]
  obtain ⟨_, _, hkept⟩ := hlast _ p hpast
  have hwindow : t.windowStart = p.windowStart := by
    apply hkept
    simp [Call.Retries, Attempt.failed, hrunning, Status.isFailure]
  have hpassed : (Span.ofSeconds 5).nanoseconds ≤ (t.began.since t.windowStart).nanoseconds := by
    rw [hbegan, hwindow, hstart]
    decide
  exact ⟨_, p, t, h, hp, hrunning, hone, hwindow, hunseen.mpr ⟨_, htimeout, hconclusion, hpassed⟩⟩

theorem unseen_after_canceled_and_aborted :
    (∃ (second : Call engine hurried) (t : Attempt (List (Option Cause × Status))),
      Relay [⟨engine, canceled⟩] ⟨engine, second⟩ ∧
      canceled.result.message = some "promotion canceled: context canceled" ∧
      canceled.result.records.map (·.errorCount) = [0] ∧ second.attemptsOn 0 = [t] ∧ t.invoked = false ∧
      t.conclusion = .timedOut (.ofSeconds 5) ∧ second.result.status = .failed ∧
      second.result.records.map (·.errorCount) = [1]) ∧
    ∃ (second : Call engine hurried) (t : Attempt (List (Option Cause × Status))),
      Relay [⟨engine, aborted⟩] ⟨engine, second⟩ ∧ aborted.result.status = .failed ∧
      second.attemptsOn 0 = [t] ∧ t.invoked = false ∧ t.conclusion = .timedOut (.ofSeconds 5) := by
  refine ⟨⟨again canceled rfl, _, relay_again rfl rfl, rfl, rfl, rfl, rfl, rfl, rfl, rfl⟩,
    again aborted rfl, _, relay_again rfl rfl, rfl, rfl, rfl, rfl⟩

theorem finishedAt_of_open (h : Relay past last) (hr : last.call.result.records[j]? = some r)
    (hopen : r.status = some .running ∨
      last.call.result.status = .running ∧ last.call.result.currentStep = j) :
    (∀ c ∈ past ++ [last], ∀ t ∈ c.call.attemptsOn j, t.succeeded = false) ∧
    (r.finishedAt = none ↔
      ∀ c ∈ past, ¬ c.call.Misses j ∧ (c.call.attemptsOn j ≠ [] → c.call.result.status = .running)) := by
  obtain ⟨r₀, hbefore, hc⟩ := Call.exists_stamps hr
  have hs := (h.stamped hbefore).step hc
  have hnever : ∀ c ∈ past ++ [last], ∀ t ∈ c.call.attemptsOn j, t.succeeded = false := by
    intro c hm t ht
    by_contra hsucceeded
    obtain ⟨hlt, hstatus⟩ := hs.succeeded c hm t ht (by simpa using hsucceeded)
    obtain hr | ⟨_, hj⟩ := hopen
    · simp [hstatus] at hr
    · exact absurd hj (Nat.ne_of_gt hlt)
  refine ⟨hnever, ?_⟩
  rw [hs.finishedAt_eq_none_iff, List.forall_mem_append, List.forall_mem_singleton,
    and_iff_left (hc.not_closes_of_open hopen)]
  apply forall₂_congr
  intro c hm
  rw [Call.Closes, not_or]
  apply and_congr_right
  intro _
  constructor
  · intro hn hmade
    obtain ⟨t, ht⟩ := List.exists_mem_of_ne_nil _ hmade
    by_contra hc
    exact hn ⟨t, ht, .inr hc⟩
  · rintro hall ⟨t, ht, hsucceeded | hc⟩
    · simp [hnever c (List.mem_append_left _ hm) t ht] at hsucceeded
    · exact hc (hall (List.ne_nil_of_mem ht))

theorem finishedAt_of_open_suspended :
    ∃ (second : Call engine unhurried) (r : StepRecord),
      Relay [⟨engine, suspendedFirst⟩] ⟨engine, second⟩ ∧ second.result.records = [r] ∧
      r.status = some .running ∧ r.startedAt = some ⟨0, 0⟩ ∧ r.finishedAt = none := by
  have h := relay_again (c := suspendedFirst) rfl rfl
  obtain ⟨r, hrecords, hstatus, hstart⟩ : ∃ r, (again suspendedFirst rfl).result.records = [r] ∧
      r.status = some .running ∧ r.startedAt = some ⟨0, 0⟩ := ⟨_, rfl, rfl, rfl⟩
  obtain ⟨_, hunfinished⟩ := finishedAt_of_open (j := 0) h (by rw [hrecords]; rfl) (.inl hstatus)
  refine ⟨_, r, h, hrecords, hstatus, hstart, hunfinished.mpr fun c hc => ?_⟩
  obtain rfl := List.mem_singleton.mp hc
  exact ⟨Call.not_misses_of_resolves resolves_unhurried, fun _ => rfl⟩

theorem finishedAt_running_after_canceled :
    (∃ (second : Call engine unhurried) (r : StepRecord),
      Relay [⟨engine, canceledFirst⟩] ⟨engine, second⟩ ∧ second.result.status = .running ∧
      second.result.records = [r] ∧ r.status = some .running ∧ r.finishedAt = some ⟨10, 0⟩) ∧
    ∃ (second : Call engine unhurried) (r : StepRecord),
      Relay [⟨bare, missedFirst⟩] ⟨engine, second⟩ ∧ second.result.status = .running ∧
      second.result.records = [r] ∧ r.status = some .running ∧ r.finishedAt = some ⟨0, 0⟩ :=
  ⟨⟨again canceledFirst rfl, _, relay_again rfl rfl, rfl, rfl, rfl, rfl⟩,
    again missedFirst rfl, _, relay_again rfl rfl, rfl, rfl, rfl, rfl⟩

end Relay
end Delivery
