import Delivery.Proofs.Except
import Delivery.Proofs.Promotion.Records

/-! A promotion as a program runs it that keeps all records in one array: it reads and writes them at an index, takes
one length from another, counts in 32 bits and takes one instant from another. Each of these operations is checked
here, and crashes where it has no answer. None of them ever does, whatever the request holds, and the call is the one
that is made without them. -/

namespace Delivery

variable {σ : Type}

inductive Crash where
  | outOfRange (index size : Nat)
  | underflow (n taken : Nat)
  | overflow (n : Nat)
  | negative (nanoseconds : Int)
deriving DecidableEq, Repr

namespace Checked

def recordAt (records : List StepRecord) (index : Nat) : Except Crash StepRecord :=
  match records[index]? with
  | some r => .ok r
  | none => .error (.outOfRange index records.length)

def setRecord (records : List StepRecord) (index : Nat) (r : StepRecord) : Except Crash (List StepRecord) :=
  if index < records.length then .ok (records.set index r) else .error (.outOfRange index records.length)

def difference (n taken : Nat) : Except Crash Nat := if taken ≤ n then .ok (n - taken) else .error (.underflow n taken)

def count (n : Nat) : Except Crash UInt32 := if n ≤ 4294967295 then .ok (.ofNat n) else .error (.overflow n)

def span (nanoseconds : Int) : Except Crash Span :=
  if 0 ≤ nanoseconds then .ok ⟨nanoseconds.toNat⟩ else .error (.negative nanoseconds)

/-- The time that has passed since an instant. None has passed since one that is still to come. -/
def elapsed (now start : Instant) : Except Crash Span := span (max 0 (now.total - start.total))

variable {records before after : List StepRecord} {index : Nat} {r r' : StepRecord}

lemma recordAt_eq (h : records[index]? = some r) : recordAt records index = .ok r := by
  rw [recordAt, h]

lemma recordAt_length : recordAt (before ++ r :: after) before.length = .ok r :=
  recordAt_eq (by simp)

lemma setRecord_length : setRecord (before ++ r :: after) before.length r' = .ok (before ++ r' :: after) := by
  rw [setRecord, if_pos (by simp), List.set_append_right _ _ (Nat.le_refl _), Nat.sub_self, List.set_cons_zero]

lemma setRecord_modify (f : StepRecord → StepRecord) (h : records[index]? = some r) :
    setRecord records index (f r) = .ok (records.modify index f) := by
  rw [setRecord, if_pos (List.getElem?_eq_some_iff.mp h).1]
  congr 1
  apply List.ext_getElem?
  intro j
  rw [List.getElem?_set, List.getElem?_modify]
  split
  · next heq =>
    subst heq
    rw [h, if_pos (List.getElem?_eq_some_iff.mp h).1]
    rfl
  · exact Option.map_id'.symm

lemma difference_eq {n taken : Nat} (h : taken ≤ n) : difference n taken = .ok (n - taken) := if_pos h

lemma elapsed_eq (now start : Instant) : elapsed now start = .ok (now.since start) := by
  rw [elapsed, span, if_pos (Int.le_max_left ..), Instant.since]
  congr 2
  omega

end Checked

open Checked

/-! ### One attempt -/

namespace Retry

def enterChecked (r : StepRecord) (status : Status) (threshold : UInt32) : Except Crash (Verdict × StepRecord) :=
  match status with
  | .succeeded => .ok (.advance, { r with status := some status, errorCount := 0 })
  | .running => .ok (.suspend, { r with status := some status, errorCount := 0 })
  | .failed | .errored => do
    let count ← count (min (r.errorCount.toNat + 1) 4294967295)
    return (if threshold ≤ count then .abort status count threshold else .retry count threshold,
      { r with status := some status, errorCount := count })

lemma count_increment (n : UInt32) : count (min (n.toNat + 1) 4294967295) = .ok (increment n) := by
  rw [count, if_pos (Nat.min_le_right ..), ← toNat_increment, UInt32.ofNat_toNat]

lemma enterChecked_eq (r : StepRecord) (status : Status) (threshold : UInt32) :
    enterChecked r status threshold = .ok (enter r status threshold) := by
  cases status with
  | succeeded => rfl
  | running => rfl
  | failed => simp only [enterChecked, count_increment]; rfl
  | errored => simp only [enterChecked, count_increment]; rfl

end Retry

namespace Attempt

def settle (t : Attempt σ) (verdict : Retry.Verdict) (r : StepRecord) : Move :=
  let r := { r with message := t.result.message }
  match verdict with
  | .advance => .advance { r with finishedAt := some t.ended } t.result
  | .suspend => .stop .running t.result.message r
  | .retry errorCount threshold =>
    .stop .running (some (retryMessage r.stepAlias t.result errorCount threshold)) { r with startedAt := none }
  | .abort status _ _ => .stop status t.result.message { r with finishedAt := some t.ended }

def followChecked (t : Attempt σ) (r : StepRecord) : Except Crash Move :=
  match t.succeeded, t.cause with
  | false, some cause =>
    let message := some (Setback.canceled cause).message
    .ok (.stop .errored message { r with status := some .errored, message, finishedAt := some t.ended })
  | _, _ => do
    let (verdict, r) ← Retry.enterChecked r t.result.status t.threshold
    return t.settle verdict r

lemma followChecked_eq (t : Attempt σ) (r : StepRecord) :
    t.followChecked { r with startedAt := some t.windowStart } = .ok (t.follow r) := by
  have henter (r : StepRecord) : (do
      let (verdict, r) ← Retry.enterChecked r t.result.status t.threshold
      return t.settle verdict r) = Except.ok (ε := Crash) (t.enter r) := by
    rw [Retry.enterChecked_eq]
    rfl
  rw [followChecked, follow]
  cases t.succeeded <;> cases t.cause
  · exact henter _
  · rfl
  · exact henter _
  · exact henter _

end Attempt

namespace Engine

def attemptChecked (e : Engine σ) (request : PromotionRequest) (dir : String) (index : Nat) (state : Payload)
    (a : Assignment σ) (w : World σ) : Except Crash (Option (Attempt σ × World σ)) := do
  let (began, w) := w.now
  let windowStart := a.record.startedAt.getD began
  let elapsed ← elapsed began windowStart
  let context := (ContextBuilder.mk e.collaborators e.uiBaseUrl).step a.permissions request dir a.step
    a.record.stepAlias state
  let timeout := a.timeout e.defaults
  let threshold := a.threshold e.defaults
  return (a.runner.invoke context timeout elapsed w).map fun (invoked, conclusion, w) =>
    let cause := w.signal.cause
    let (ended, w) := w.now
    ({ index, context, began, windowStart, timeout, threshold, invoked, conclusion, cause, ended }, w)

lemma attemptChecked_eq (e : Engine σ) (request : PromotionRequest) (dir : String) (index : Nat) (state : Payload)
    (a : Assignment σ) (w : World σ) :
    e.attemptChecked request dir index state a w = .ok (e.attempt request dir index state a w) := by
  simp only [attemptChecked, elapsed_eq]
  exact congrArg Except.ok Option.map_eq_bind

end Engine

/-! ### A whole call -/

structure Equipped (σ : Type) where
  step : Step
  runner : StepRunner σ
  permissions : Permissions

def Equipped.assign (q : Equipped σ) (record : StepRecord) : Assignment σ := ⟨q.step, record, q.runner, q.permissions⟩

def Assignment.equipped (a : Assignment σ) : Equipped σ := ⟨a.step, a.runner, a.permissions⟩

lemma Assignment.assign_equipped (a : Assignment σ) : a.equipped.assign a.record = a := rfl

namespace Invocation

def ended (status : Status) (message : Option String) (index : Nat) (state : Payload) (records : List StepRecord)
    (healthChecks : List Criterion) (attempts : List (Attempt σ)) : Invocation σ where
  result := { status, message, currentStep := index, state, records, healthChecks }
  attempts

def following (i : Invocation σ) (records : List StepRecord) (healthChecks : List Criterion)
    (attempts : List (Attempt σ)) : Invocation σ where
  result :=
    { i.result with
      records := records ++ i.result.records
      healthChecks := healthChecks ++ i.result.healthChecks }
  attempts := attempts ++ i.attempts

lemma stopped_following (status : Status) (message : Option String) (index : Nat) (state : Payload)
    (rest records : List StepRecord) (healthChecks : List Criterion) (attempts : List (Attempt σ)) :
    (stopped status message index state rest).following records healthChecks attempts =
      ended status message index state (records ++ rest) healthChecks attempts := by
  simp [stopped, following, ended]

lemma through_following (i : Invocation σ) (t : Attempt σ) (r : StepRecord) (healthCheck : Option Criterion)
    (records : List StepRecord) (healthChecks : List Criterion) (attempts : List (Attempt σ)) :
    (i.through t r healthCheck).following records healthChecks attempts =
      i.following (records ++ [r]) (healthChecks ++ healthCheck.toList) (attempts ++ [t]) := by
  simp [through, following]

end Invocation

namespace Engine

def walkChecked (e : Engine σ) (request : PromotionRequest) (dir : String) (index : Nat) (state : Payload)
    (records : List StepRecord) (healthChecks : List Criterion) (attempts : List (Attempt σ)) :
    List (Equipped σ) → World σ → Except Crash (Option (Invocation σ × World σ))
  | [], w => .ok (some (.ended .succeeded none index state records healthChecks attempts, w))
  | q :: rest, w =>
    match w.signal.cause with
    | some cause =>
      let message := some (Setback.canceled cause).message
      .ok (some (.ended .errored message index state records healthChecks attempts, w))
    | none => do
      let record ← recordAt records index
      let started := { record with startedAt := some (record.startedAt.getD w.now.1) }
      let records ← setRecord records index started
      match ← e.attemptChecked request dir index state (q.assign record) w with
      | none => return none
      | some (t, w) => do
        let attempts := attempts ++ [t]
        match ← t.followChecked (← recordAt records index) with
        | .stop status message record => do
          let records ← setRecord records index record
          return some (.ended status message index state records healthChecks attempts, w)
        | .advance record result => do
          let records ← setRecord records index record
          let state := state.insert record.stepAlias (Payload.toJson result.output)
          e.walkChecked request dir (index + 1) state records (healthChecks ++ result.healthCheck.toList) attempts
            rest w

def resolve (e : Engine σ) (index : Nat) : List Step → Except (Nat × String) (List (Equipped σ))
  | [] => .ok []
  | step :: rest =>
    match e.registry.stepRunner step.kind with
    | none => .error (index, step.kind)
    | some (runner, permissions) => (e.resolve (index + 1) rest).map (⟨step, runner, permissions⟩ :: ·)

def promoteChecked (e : Engine σ) (request : PromotionRequest) (steps : List Step) (w : World σ) :
    Except Crash (Option (Invocation σ × World σ)) :=
  let start := request.startFromStep
  let records := StepRecord.normalize request.records steps
  let problems := StepProblem.ofSteps steps
  if !problems.isEmpty then
    return some (.errored (.invalidSteps problems) start request.state records, w)
  else if steps.length < start then
    return some (.errored (.startOutOfRange start steps.length) start request.state records, w)
  else do
    -- So many runners are to be kept.
    let _ ← difference steps.length start
    match e.resolve start (steps.drop start) with
    | .error (index, kind) => do
      let setback := Setback.unknownKind (← recordAt records index).stepAlias kind
      let record ← recordAt records index
      let (now, w) := w.now
      let records ← setRecord records index
        { record with status := some .errored, message := some setback.message, finishedAt := some now }
      return some (.errored setback index request.state records, w)
    | .ok equipped =>
      match e.workDir request w with
      | (.error setback, w) => return some (.errored setback start request.state records, w)
      | (.ok dir, w) => e.walkChecked request dir start request.state records [] [] equipped w

variable {e : Engine σ} {request : PromotionRequest} {steps : List Step} {dir : String}

lemma walkChecked_eq (e : Engine σ) (request : PromotionRequest) (dir : String) (left : List (Assignment σ))
    (before : List StepRecord) (state : Payload) (healthChecks : List Criterion) (attempts : List (Attempt σ))
    (w : World σ) :
    e.walkChecked request dir before.length state (before ++ left.map (·.record)) healthChecks attempts
      (left.map (·.equipped)) w =
    .ok ((e.walk request dir before.length state left w).map fun (i, w) =>
      (i.following before healthChecks attempts, w)) := by
  induction left generalizing before state healthChecks attempts w with
  | nil => simp [walkChecked, walk, Invocation.stopped_following]
  | cons a rest ih =>
    simp only [List.map_cons, walkChecked, walk]
    cases w.signal.cause with
    | some cause => simp [Invocation.errored, Invocation.stopped_following]
    | none =>
      -- The record is read and written at the end of those before it, so nothing else of the array changes.
      simp only [recordAt_length, setRecord_length, ok_bind, attemptChecked_eq, Assignment.assign_equipped]
      cases ht : e.attempt request dir before.length state a w with
      | none => rfl
      | some made =>
        obtain ⟨t, w₁⟩ := made
        have hmakes := makes_of_attempt ht
        have hstart : a.record.startedAt.getD w.now.1 = t.windowStart := by
          rw [hmakes.windowStart_eq, hmakes.began_eq]
          rfl
        simp only [hstart, Attempt.followChecked_eq, ok_bind, Option.bind_eq_bind, Option.bind_some]
        cases hf : t.follow a.record with
        | stop status message r =>
          refine congrArg (fun i => Except.ok (some (i, w₁))) ?_
          simp [Invocation.following, Invocation.stopped, Invocation.ended]
        | advance r result =>
          have hlater := ih (before ++ [r]) (state.insert a.record.stepAlias (Payload.toJson result.output))
            (healthChecks ++ result.healthCheck.toList) (attempts ++ [t]) w₁
          rw [List.length_append, List.length_singleton, List.append_assoc, List.singleton_append] at hlater
          simp only [Attempt.stepAlias_of_advance hf]
          rw [hlater]
          cases e.walk request dir (before.length + 1)
              (state.insert a.record.stepAlias (Payload.toJson result.output)) rest w₁ with
          | none => rfl
          | some later =>
            simp only [Option.bind_some, Option.pure_def, Option.map_some, Invocation.through_following]

theorem walkChecked_outOfRange {index : Nat} {records : List StepRecord} {w : World σ} {q : Equipped σ}
    (h : records.length ≤ index) (hidle : w.signal.cause = none) (state : Payload) (healthChecks : List Criterion)
    (attempts : List (Attempt σ)) (rest : List (Equipped σ)) :
    e.walkChecked request dir index state records healthChecks attempts (q :: rest) w =
      .error (.outOfRange index records.length) := by
  simp only [walkChecked, hidle, recordAt, List.getElem?_eq_none h]
  rfl

lemma resolve_eq (e : Engine σ) (index : Nat) (pairs : List (Step × StepRecord)) :
    e.resolve index (pairs.map (·.1)) =
      match e.assign index pairs with
      | .error u => .error (u.index, u.kind)
      | .ok left => .ok (left.map (·.equipped)) := by
  induction pairs generalizing index with
  | nil => rfl
  | cons pair rest ih =>
    obtain ⟨step, record⟩ := pair
    simp only [List.map_cons, resolve, assign, ih]
    cases e.registry.stepRunner step.kind with
    | none => rfl
    | some answer => cases e.assign (index + 1) rest <;> rfl

lemma resolve_drop (e : Engine σ) (request : PromotionRequest) (steps : List Step) :
    e.resolve request.startFromStep (steps.drop request.startFromStep) =
      match e.assign request.startFromStep (request.remaining steps) with
      | .error u => .error (u.index, u.kind)
      | .ok left => .ok (left.map (·.equipped)) := by
  rw [← resolve_eq, List.map_drop, List.map_fst_zip (by simp)]

lemma recordsFor_unassigned {u : Unassigned}
    (h : e.assign request.startFromStep (request.remaining steps) = .error u) :
    ∃ r, (request.recordsFor steps)[u.index]? = some r ∧ u.stepAlias = r.stepAlias := by
  obtain ⟨k, step, record, hk, rfl, _, _⟩ := assign_error h
  have hr := congrArg (·[k]?) (request.remaining_snd steps)
  simp only [List.getElem?_map, hk, List.getElem?_drop, Option.map_some] at hr
  exact ⟨record, hr.symm, rfl⟩

lemma walkChecked_remaining {left : List (Assignment σ)} (hs : request.startFromStep ≤ steps.length)
    (ha : e.assign request.startFromStep (request.remaining steps) = .ok left) (dir : String) (w : World σ) :
    e.walkChecked request dir request.startFromStep request.state (request.recordsFor steps) [] []
      (left.map (·.equipped)) w =
    .ok ((e.walk request dir request.startFromStep request.state left w).map fun (i, w) =>
      (i.behind ((request.recordsFor steps).take request.startFromStep), w)) := by
  have hlength : ((request.recordsFor steps).take request.startFromStep).length = request.startFromStep := by
    rw [List.length_take, StepRecord.normalize_length, Nat.min_eq_left hs]
  have hrecords : left.map (·.record) = (request.recordsFor steps).drop request.startFromStep := by
    rw [← request.remaining_snd, ← (assign_ok ha).1, List.map_map]
    rfl
  have hwalk := e.walkChecked_eq request dir left ((request.recordsFor steps).take request.startFromStep)
    request.state [] [] w
  rw [hlength, hrecords, List.take_append_drop] at hwalk
  exact hwalk

theorem promoteChecked_eq (e : Engine σ) (request : PromotionRequest) (steps : List Step) (w : World σ) :
    e.promoteChecked request steps w = .ok (e.promote request steps w) := by
  simp only [promoteChecked, promote]
  split
  · rfl
  split
  · rfl
  next hs =>
  have hs := Nat.not_lt.mp hs
  simp only [difference_eq hs, ok_bind, resolve_drop]
  cases ha : e.assign request.startFromStep (request.remaining steps) with
  | error u =>
    obtain ⟨r, hr, halias⟩ := recordsFor_unassigned ha
    have hmark := setRecord_modify (u.mark w.now.1) hr
    simp only [Unassigned.mark, halias] at hmark
    simp only [recordAt_eq hr, ok_bind, halias, hmark]
    rfl
  | ok left =>
    cases hd : e.workDir request w with
    | mk answer w₁ =>
      cases answer with
      | error setback => rfl
      | ok dir => exact walkChecked_remaining hs ha dir w₁

end Engine
end Delivery
