import Delivery.Proofs.Promotion.Chain

/-! The threshold of failures. The count that the record of a step carries from call to call is the number of
failures at the end of the attempts of that step, and the promotion ends there when it reaches the threshold. -/

namespace Delivery

section

variable {σ : Type}

lemma Retry.effectiveThreshold_pos (policy : Option RetryPolicy) (runner engine : UInt32) :
    0 < (effectiveThreshold policy runner engine).toNat := by
  have hp (n m : UInt32) (h : positive? n = some m) : m ≠ 0 := by
    rintro rfl
    by_cases hn : n = 0 <;> simp [positive?, hn] at h
  have hne : effectiveThreshold policy runner engine ≠ 0 := by
    rw [effectiveThreshold]
    cases ho : (policy.bind (·.errorThreshold)).bind positive? with
    | some m =>
      obtain ⟨n, _, hm⟩ := Option.bind_eq_some_iff.mp ho
      simpa using hp n m hm
    | none =>
      cases hr : positive? runner with
      | some m => simpa using hp runner m hr
      | none =>
        cases he : positive? engine with
        | some m => simpa using hp engine m he
        | none => simp
  rw [Nat.pos_iff_ne_zero]
  intro h
  exact hne (UInt32.toNat_inj.mp h)

lemma Retry.toNat_increment_of_lt {n t : UInt32} (h : n.toNat < t.toNat) :
    (increment n).toNat = n.toNat + 1 := by
  have ht := t.toNat_lt
  rw [toNat_increment]
  omega

namespace Attempt

def failed (t : Attempt σ) : Bool := t.result.status.isFailure

def failuresInARow (attempts : List (Attempt σ)) : Nat := Status.failuresInARow 0 (attempts.map (·.result.status))

variable {t : Attempt σ}

lemma not_running_of_failed (h : t.failed = true) : t.result.status ≠ .running := by
  intro hr
  simp [failed, hr, Status.isFailure] at h

lemma failuresInARow_concat (attempts : List (Attempt σ)) (t : Attempt σ) :
    failuresInARow (attempts ++ [t]) = if t.failed then failuresInARow attempts + 1 else 0 := by
  rw [failuresInARow, List.map_append, List.map_singleton, Status.failuresInARow_concat]
  rfl

lemma le_failuresInARow_iff (attempts : List (Attempt σ)) (n : Nat) : n ≤ failuresInARow attempts ↔
    n ≤ attempts.length ∧ ∀ t ∈ attempts.rtake n, t.failed = true := by
  induction attempts using List.reverseRecOn generalizing n with
  | nil => simp [failuresInARow]
  | append_singleton attempts t ih =>
    cases n with
    | zero => simp
    | succ n =>
      rw [List.rtake_concat_succ, List.length_append, List.forall_mem_append, failuresInARow_concat]
      cases h : t.failed with
      | true =>
        rw [if_pos rfl, Nat.add_le_add_iff_right, ih]
        simp [h]
      | false => simp [h]

lemma filter_index {done : List (Attempt σ)} {start : Nat}
    (h : done.map (·.index) = List.range' start done.length) (j : Nat) :
    done.filter (·.index = j) = if start ≤ j then done[j - start]?.toList else [] := by
  induction done generalizing start with
  | nil => simp
  | cons t done ih =>
    rw [List.map_cons, List.length_cons, List.range'_succ, List.cons.injEq] at h
    obtain ⟨ht, hdone⟩ := h
    have hrest := ih hdone
    rcases Nat.lt_trichotomy start j with hlt | heq | hgt
    · have hj : j - start = (j - (start + 1)) + 1 := by omega
      rw [if_pos (by omega)] at hrest ⊢
      rw [List.filter_cons_of_neg (by simp; omega), hrest, hj, List.getElem?_cons_succ]
    · subst heq
      rw [if_neg (by omega)] at hrest
      rw [List.filter_cons_of_pos (by simpa using ht), hrest, if_pos (Nat.le_refl _), Nat.sub_self]
      rfl
    · rw [if_neg (by omega)] at hrest ⊢
      rw [List.filter_cons_of_neg (by simp; omega), hrest]

end Attempt

variable {e : Engine σ} {steps : List Step}

namespace Call

/-- A call with a working directory that is not cancelled. -/
structure Undisturbed (c : Call e steps) : Prop where
  prepared : ∃ dir, (e.workDir c.request c.before).1 = .ok dir
  uncanceled : c.after.signal.cause = none

def attemptsOn (j : Nat) (c : Call e steps) : List (Attempt σ) :=
  c.invocation.attempts.filter (·.index = j)

/-- What a call does with the step at an index, whose record it starts from. -/
inductive Treats (c : Call e steps) (j : Nat) (threshold : UInt32) (r : StepRecord) : Prop
  | spared (ha : c.attemptsOn j = []) (hr : c.result.records[j]? = some r)
      (hn : c.result.status.isFailure = true → c.result.currentStep ≠ j)
  | passed {t : Attempt σ} (ha : c.attemptsOn j = [t]) (hs : t.succeeded = true)
      (hr : c.result.records[j]? = some t.closed) (hn : c.result.currentStep ≠ j)
  | halted {t : Attempt σ} {message : Option String} {r' : StepRecord} (ha : c.attemptsOn j = [t])
      (hc : t.cause = none) (ht : t.threshold = threshold)
      (hf : t.Follows r (.stop c.result.status message r')) (hr : c.result.records[j]? = some r')
      (hj : c.result.currentStep = j)

inductive Handles (c : Call e steps) (j : Nat) (r : StepRecord) : Prop
  | spared (ha : c.attemptsOn j = []) (hr : c.result.records[j]? = some r)
  | passed {t : Attempt σ} (ha : c.attemptsOn j = [t]) (hs : t.succeeded = true)
      (hr : c.result.records[j]? = some t.closed) (hlt : j < c.result.currentStep)
  | halted {t : Attempt σ} {a : Assignment σ} {dir : String} {state : Payload} {w : World σ}
      {message : Option String} {r' : StepRecord} (ha : c.attemptsOn j = [t])
      (hassigned : e.Assigned c.request steps j a) (hm : e.Makes c.request dir j state a w t c.after)
      (hf : t.Follows r (.stop c.result.status message r')) (hr : c.result.records[j]? = some r')
      (hj : c.result.currentStep = j)

variable {c : Call e steps}

lemma undisturbed_of_running (h : c.result.status = .running) : c.Undisturbed := by
  obtain ⟨request, w, i, w', hreturned⟩ := c
  cases Engine.promote_concludes hreturned with
  | refused => cases h
  | @walked left dir w₀ _ done q last ha hp he =>
    refine ⟨⟨dir, congrArg Prod.fst ha.prepared⟩, ?_⟩
    cases he with
    | completed => cases h
    | canceled => cases h
    | halted _ _ hmade hstop =>
      refine hmade.cause.symm.trans (Attempt.cause_of_follow hstop ?_)
      intro hs
      cases h.symm.trans hs

structure Walked (c : Call e steps) (left : List (Assignment σ)) (dir : String) (w₀ : World σ)
    (done : List (Attempt σ)) (q : Place σ) (last : Invocation σ) : Prop where
  admits : e.Admits c.request steps c.before left dir w₀
  passes : e.Passes c.request dir ⟨c.request.startFromStep, c.request.state, left, w₀⟩ done q
  ends : e.Ends c.request dir q last c.after
  invocation_eq : c.invocation = (last.after done).behind
    ((c.request.recordsFor steps).take c.request.startFromStep)

lemma exists_walked (hv : StepProblem.ofSteps steps = []) (hr : e.Resolves steps 0)
    (hle : c.request.startFromStep ≤ steps.length) (hu : c.Undisturbed) :
    ∃ left dir w₀ done q last, c.Walked left dir w₀ done q last := by
  obtain ⟨request, w, i, w', h⟩ := c
  cases Engine.promote_concludes h with
  | @walked left dir w₀ _ done q last ha hp he => exact ⟨_, _, _, _, _, _, ha, hp, he, rfl⟩
  | refused hrefused =>
    obtain ⟨dir, hdir⟩ := hu.prepared
    cases hrefused with
    | invalid hn => exact absurd hv hn
    | outOfRange _ hlt => exact absurd hle (Nat.not_le.mpr hlt)
    | unassigned _ _ hassign =>
      exact absurd hr ((Engine.firstUnresolved_of_assign hassign).not_resolves (Nat.zero_le _))
    | noWorkDir _ _ _ hd =>
      dsimp only at hdir
      rw [hd] at hdir
      cases hdir

namespace Walked

variable {left : List (Assignment σ)} {dir : String} {w₀ : World σ} {done : List (Attempt σ)}
  {q : Place σ} {last : Invocation σ}

lemma currentStep_eq (h : c.Walked left dir w₀ done q last) :
    c.result.currentStep = c.request.startFromStep + done.length := by
  rw [result, h.invocation_eq]
  exact h.ends.currentStep_eq.trans h.passes.index_eq

lemma attemptsOn_eq (h : c.Walked left dir w₀ done q last) (j : Nat) :
    c.attemptsOn j = (if c.request.startFromStep ≤ j
      then done[j - c.request.startFromStep]?.toList else []) ++
        last.attempts.filter (·.index = j) := by
  rw [attemptsOn, h.invocation_eq, ← Attempt.filter_index h.passes.indices]
  exact List.filter_append _ _

lemma attemptsOn_currentStep (h : c.Walked left dir w₀ done q last) (hu : c.after.signal.cause = none)
    (hs : c.result.status.isFailure = true) : c.attemptsOn c.result.currentStep ≠ [] := by
  have hcurrent := h.currentStep_eq
  have hon := h.attemptsOn_eq c.result.currentStep
  obtain ⟨_, hp, he, hi⟩ := h
  have hindex : q.index = c.request.startFromStep + done.length := hp.index_eq
  rw [result, hi] at hs
  generalize c.after = w at he hu
  cases he with
  | completed => simp [Invocation.behind, Invocation.after, Invocation.stopped, Status.isFailure] at hs
  | canceled _ hc => simp [hc] at hu
  | halted _ _ hm =>
    rw [hon]
    simp [hm.index_eq, hindex, hcurrent]

theorem handles (h : c.Walked left dir w₀ done q last) {j : Nat} (hlt : j < steps.length) {r : StepRecord}
    (hrecord : (c.request.recordsFor steps)[j]? = some r) : c.Handles j r := by
  have hcurrent := h.currentStep_eq
  have hon := h.attemptsOn_eq j
  obtain ⟨ha, hp, he, hi⟩ := h
  have hle : c.request.startFromStep ≤ steps.length := ha.inRange
  have hindex : q.index = c.request.startFromStep + done.length := hp.index_eq
  by_cases hbefore : j < c.request.startFromStep
  · refine .spared ?_ ?_
    · rw [hon, if_neg (by omega), he.attempts_elsewhere (by omega)]
      rfl
    · rw [result, hi, Engine.records_before hle hbefore, hrecord]
  obtain ⟨k, rfl⟩ := Nat.exists_eq_add_of_le (Nat.not_lt.mp hbefore)
  rw [if_pos (Nat.le_add_right _ _), Nat.add_sub_cancel_left] at hon
  obtain ⟨a, hleft, hassigned⟩ := ha.exists_assigned hlt
  obtain rfl := Option.some.inj (hassigned.recordsFor_getElem?.symm.trans hrecord)
  rcases Nat.lt_trichotomy k done.length with hk | hk | hk
  · have ht : done[k]? = some done[k] := List.getElem?_eq_getElem hk
    refine .passed ?_ (hp.succeeded _ (List.getElem_mem hk)) ?_ (by omega)
    · rw [hon, ht, he.attempts_elsewhere (by omega)]
      rfl
    · rw [result, hi, Engine.records_passed hle ht]
  · subst hk
    have hhead : q.left.head? = some a := by rw [hp.left_eq, List.head?_drop, hleft]
    have hrecords : c.result.records[c.request.startFromStep + done.length]? = last.result.records.head? := by
      rw [result, hi, List.head?_eq_getElem?]
      exact Engine.records_rest (j := 0) hle
    rw [List.getElem?_eq_none (Nat.le_refl _)] at hon
    generalize hafter : c.after = w' at he
    cases he with
    | completed hl => simp [hl] at hhead
    | canceled hl _ =>
      refine .spared hon ?_
      rw [hrecords]
      exact (List.head?_map ..).trans (congrArg (Option.map _) hhead)
    | @halted a' rest t w status message r' hl _ hm hstop =>
      obtain rfl : a' = a := by simpa [hl] using hhead
      rw [hindex, ← hafter] at hm
      have hf : t.Follows a'.record (.stop c.result.status message r') := by
        rw [result, hi]
        exact hstop ▸ t.follows a'.record
      refine .halted ?_ hassigned hm hf hrecords hcurrent
      rw [hon]
      simp [hm.index_eq]
  · obtain ⟨m, rfl⟩ := Nat.exists_eq_add_of_lt hk
    refine .spared ?_ ?_
    · rw [hon, List.getElem?_eq_none (by omega), he.attempts_elsewhere (by omega)]
      rfl
    · rw [result, hi, Nat.add_assoc, ← Nat.add_assoc c.request.startFromStep,
        Engine.records_rest hle, he.records_behind, hp.left_eq, List.getElem?_drop]
      exact congrArg (Option.map _) hleft

end Walked

theorem treats (hv : StepProblem.ofSteps steps = []) (hr : e.Resolves steps 0)
    (hle : c.request.startFromStep ≤ steps.length) (hu : c.Undisturbed) {j : Nat} {step : Step}
    {runner : StepRunner σ} {permissions : Permissions} (hstep : steps[j]? = some step)
    (hrunner : e.registry.stepRunner step.kind = some (runner, permissions)) {r : StepRecord}
    (hrecord : (c.request.recordsFor steps)[j]? = some r) :
    c.Treats j
      (Retry.effectiveThreshold step.retry runner.defaultThreshold e.defaults.errorThreshold) r := by
  obtain ⟨left, dir, w₀, done, q, last, hw⟩ := exists_walked hv hr hle hu
  cases hw.handles (List.getElem?_eq_some_iff.mp hstep).1 hrecord with
  | spared ha hr =>
    refine .spared ha hr ?_
    rintro hs rfl
    exact hw.attemptsOn_currentStep hu.uncanceled hs ha
  | passed ha hs hr hlt => exact .passed ha hs hr (Nat.ne_of_gt hlt)
  | halted ha hassigned hm hf hr hj =>
    exact .halted ha (hm.cause.trans hu.uncanceled) (hm.threshold hassigned hstep hrunner) hf hr hj

/-- The result of a call fits the attempts of the step at an index, in this call and those before it. -/
structure Tally (c : Call e steps) (j threshold : Nat) (attempts : List (Attempt σ)) : Prop where
  count : ∃ r, c.result.records[j]? = some r ∧
    r.errorCount.toNat = Attempt.failuresInARow attempts
  reached : c.result.status.isFailure = true ∧ c.result.currentStep = j ↔
    threshold ≤ Attempt.failuresInARow attempts
  ended : c.result.status.isFailure = true → c.result.currentStep = j →
    Attempt.failuresInARow attempts = threshold ∧
      ∃ t : Attempt σ, attempts.getLast? = some t ∧ c.result.status = t.result.status
  failed : ∀ t ∈ c.attemptsOn j, t.failed = true → Attempt.failuresInARow attempts < threshold →
    c.result.status = .running ∧ c.result.currentStep = j
  suspended : ∀ t ∈ c.attemptsOn j, t.result.status = .running →
    c.result.status = .running ∧ c.result.currentStep = j ∧ Attempt.failuresInARow attempts = 0

lemma Tally.of_few {j threshold : Nat} {attempts : List (Attempt σ)}
    (hn : c.result.status.isFailure = true → c.result.currentStep ≠ j)
    (hfew : Attempt.failuresInARow attempts < threshold)
    (count : ∃ r, c.result.records[j]? = some r ∧
      r.errorCount.toNat = Attempt.failuresInARow attempts)
    (failed : ∀ t ∈ c.attemptsOn j, t.failed = true →
      c.result.status = .running ∧ c.result.currentStep = j)
    (suspended : ∀ t ∈ c.attemptsOn j, t.result.status = .running →
      c.result.status = .running ∧ c.result.currentStep = j ∧ Attempt.failuresInARow attempts = 0) :
    c.Tally j threshold attempts where
  count := count
  reached := iff_of_false (fun h => hn h.1 h.2) (Nat.not_le.mpr hfew)
  ended hs hj := absurd hj (hn hs)
  failed t ht hfailed _ := failed t ht hfailed
  suspended := suspended

theorem Treats.tally {j : Nat} {threshold : UInt32} {r : StepRecord} (h : c.Treats j threshold r)
    (earlier : List (Attempt σ)) (hcount : r.errorCount.toNat = Attempt.failuresInARow earlier)
    (hlt : Attempt.failuresInARow earlier < threshold.toNat) :
    c.Tally j threshold.toNat (earlier ++ c.attemptsOn j) := by
  cases h with
  | spared ha hr hn =>
    rw [ha, List.append_nil]
    exact .of_few hn hlt ⟨r, hr, hcount⟩ (by simp [ha]) (by simp [ha])
  | @passed t ha hs hr hn =>
    have hsucceeded := (Attempt.succeeded_iff t).mp hs
    have hf : t.failed = false := by rw [Attempt.failed, hsucceeded]; rfl
    have hzero : Attempt.failuresInARow (earlier ++ [t]) = 0 := by rw [Attempt.failuresInARow_concat, hf]; rfl
    rw [ha]
    refine .of_few (fun _ => hn) (by omega) ⟨_, hr, hzero.symm⟩ ?_ ?_
    · simp [ha, hf]
    · simp [ha, hsucceeded]
  | @halted t message r' ha hc ht hf hr hj =>
    rw [ha]
    generalize hm : Move.stop c.result.status message r' = move at hf
    cases hf with
    | succeeded => cases hm
    | canceled _ hcause => simp [hc] at hcause
    | suspended hs =>
      injection hm with hstatus _ hrecord
      have hnf : t.failed = false := by rw [Attempt.failed, hs]; rfl
      have hzero : Attempt.failuresInARow (earlier ++ [t]) = 0 := by rw [Attempt.failuresInARow_concat, hnf]; rfl
      refine .of_few ?_ (by omega) ⟨r', hr, by rw [hrecord, hzero]; rfl⟩ ?_ ?_
      · simp [hstatus, Status.isFailure]
      · simp [ha, hnf]
      · exact fun _ _ _ => ⟨hstatus, hj, hzero⟩
    | retried hs _ hbelow =>
      injection hm with hstatus _ hrecord
      have hone := (Attempt.failuresInARow_concat earlier t).trans (if_pos hs)
      have hnext := Retry.toNat_increment_of_lt (hcount ▸ hlt)
      rw [ht, UInt32.lt_iff_toNat_lt, hnext] at hbelow
      refine .of_few ?_ (by omega) ⟨r', hr, by rw [hrecord, hone, hnext, hcount]⟩ ?_ ?_
      · simp [hstatus, Status.isFailure]
      · exact fun _ _ _ => ⟨hstatus, hj⟩
      · simp [ha, Attempt.not_running_of_failed hs]
    | aborted hs _ hreached =>
      injection hm with hstatus _ hrecord
      have hone := (Attempt.failuresInARow_concat earlier t).trans (if_pos hs)
      have hnext := Retry.toNat_increment_of_lt (hcount ▸ hlt)
      rw [ht, UInt32.le_iff_toNat_le, hnext] at hreached
      have hlast : (earlier ++ [t]).getLast? = some t := List.getLast?_concat
      constructor
      case count => exact ⟨r', hr, by rw [hrecord, hone, hnext, hcount]⟩
      case reached => exact iff_of_true ⟨hstatus ▸ hs, hj⟩ (by omega)
      case ended => exact fun _ _ => ⟨by omega, t, hlast, hstatus⟩
      case failed => intro _ _ _ hfew; omega
      case suspended => simp [ha, Attempt.not_running_of_failed hs]

end Call

namespace Chain

variable {initial : Payload} {past : List (Call e steps)} {last : Call e steps} {j : Nat}
  {step : Step} {runner : StepRunner σ} {permissions : Permissions}

theorem tally (h : Chain initial past last) (hrunning : ∀ c ∈ past, c.result.status = .running)
    (hv : StepProblem.ofSteps steps = []) (hr : e.Resolves steps 0) (hu : last.Undisturbed)
    (hstep : steps[j]? = some step)
    (hrunner : e.registry.stepRunner step.kind = some (runner, permissions)) :
    last.Tally j
      (Retry.effectiveThreshold step.retry runner.defaultThreshold
        e.defaults.errorThreshold).toNat
      ((past ++ [last]).flatMap (·.attemptsOn j)) := by
  induction h with
  | @fresh c hstart hrecords =>
    have hrecord : (c.request.recordsFor steps)[j]? = some (.carry none (step.aliasAt j)) := by
      rw [StepRecord.normalize_getElem?, hrecords, hstep]
      rfl
    have ht := Call.treats hv hr (by omega) hu hstep hrunner hrecord
    simpa using ht.tally [] rfl (Retry.effectiveThreshold_pos _ _ _)
  | @resumed past previous c base h hresumed ih =>
    have hprevious : previous.result.status = .running := hrunning previous (by simp)
    have hfew := ih (fun p hp => hrunning p (List.mem_append_left _ hp))
      (Call.undisturbed_of_running hprevious)
    obtain ⟨r, hrecord, hcount⟩ := hfew.count
    have hle : c.request.startFromStep ≤ steps.length := by
      rw [hresumed]
      exact (h.settled fun j step _ => hr j step (Nat.zero_le _)).bounded
    have hlt := mt hfew.reached.mpr (by simp [hprevious, Status.isFailure])
    rw [← Call.recordsFor_of_resumed hresumed] at hrecord
    have ht := Call.treats hv hr hle hu hstep hrunner hrecord
    rw [List.flatMap_append]
    simpa using ht.tally _ hcount (Nat.not_le.mp hlt)

theorem fails_iff_threshold (h : Chain initial past last)
    (hrunning : ∀ c ∈ past, c.result.status = .running) (hv : StepProblem.ofSteps steps = [])
    (hr : e.Resolves steps 0) (hdir : ∃ dir, (e.workDir last.request last.before).1 = .ok dir)
    (hc : last.after.signal.cause = none) (hstep : steps[j]? = some step)
    (hrunner : e.registry.stepRunner step.kind = some (runner, permissions)) :
    let threshold := (Retry.effectiveThreshold step.retry runner.defaultThreshold
      e.defaults.errorThreshold).toNat
    let attempts := (past ++ [last]).flatMap (·.attemptsOn j)
    (last.result.status.isFailure = true ∧ last.result.currentStep = j ↔
      threshold ≤ attempts.length ∧ ∀ t ∈ attempts.rtake threshold, t.failed = true) ∧
    (last.result.status.isFailure = true → last.result.currentStep = j →
      Attempt.failuresInARow attempts = threshold ∧
        ∃ t, attempts.getLast? = some t ∧ last.result.status = t.result.status) ∧
    (∃ r, last.result.records[j]? = some r ∧
      r.errorCount.toNat = Attempt.failuresInARow attempts) ∧
    (∀ t ∈ last.attemptsOn j, t.failed = true → Attempt.failuresInARow attempts < threshold →
      last.result.status = .running ∧ last.result.currentStep = j) ∧
    ∀ t ∈ last.attemptsOn j, t.result.status = .running →
      last.result.status = .running ∧ last.result.currentStep = j ∧
        Attempt.failuresInARow attempts = 0 := by
  intro threshold attempts
  have ht := h.tally hrunning hv hr ⟨hdir, hc⟩ hstep hrunner
  exact ⟨ht.reached.trans (Attempt.le_failuresInARow_iff attempts threshold), ht.ended, ht.count,
    ht.failed, ht.suspended⟩

end Chain

end

namespace Chain
open Scripted

theorem fails_iff_threshold_scripted :
    ∃ first second last : Call engine steps,
      first.result.status = .running ∧ second.result.status = .running ∧
      last.result.status = .errored ∧ last.result.currentStep = 1 ∧
      (∀ t ∈ (([first, second] ++ [last]).flatMap (·.attemptsOn 1)).rtake 2, t.failed = true) ∧
      Attempt.failuresInARow (([first, second] ++ [last]).flatMap (·.attemptsOn 1)) = 2 := by
  let first : Call engine steps := .make request (world [.running, .failed, .errored]) rfl
  let second : Call engine steps := .make (request.resumeFrom first.result) first.after rfl
  let last : Call engine steps := .make (request.resumeFrom second.result) second.after rfl
  have h₁ : Chain {} [] first := .fresh rfl rfl rfl
  have h₂ : Chain {} [first] second := .resumed request h₁ rfl
  have h₃ : Chain {} [first, second] last := .resumed request h₂ rfl
  have hresolves : engine.Resolves steps 0 := by
    intro j step _ hs
    have hm := List.mem_of_getElem? hs
    simp only [steps, List.mem_cons, List.not_mem_nil, or_false] at hm
    rcases hm with rfl | rfl <;> rfl
  have hrunning : ∀ c ∈ [first, second], c.result.status = .running := by
    intro c hc
    simp only [List.mem_cons, List.not_mem_nil, or_false] at hc
    rcases hc with rfl | rfl <;> rfl
  have hstatus : last.result.status = .errored := by decide +kernel
  have hcurrent : last.result.currentStep = 1 := by decide +kernel
  have hfailure : last.result.status.isFailure = true := by rw [hstatus]; rfl
  obtain ⟨hiff, hended, _⟩ :=
    fails_iff_threshold (j := 1) h₃ hrunning rfl hresolves ⟨"/work", rfl⟩ rfl rfl rfl
  exact ⟨first, second, last, hrunning _ (by simp), hrunning _ (by simp), hstatus, hcurrent,
    (hiff.mp ⟨hfailure, hcurrent⟩).2, (hended hfailure hcurrent).1⟩

end Chain
end Delivery
