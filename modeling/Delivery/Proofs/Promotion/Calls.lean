import Delivery.Proofs.Promotion.Walk

/-! One call of an engine for a promotion: what it takes up from the request, why it is refused before any step
is tried, and the run that it starts otherwise. -/

namespace Delivery

variable {σ : Type}

namespace StepRecord

@[simp] lemma carry_stepAlias (previous : Option StepRecord) (name : String) :
    (carry previous name).stepAlias = name := by
  cases previous with
  | none => rfl
  | some r => by_cases h : r.stepAlias = name <;> simp [carry, Option.filter, h]

lemma carry_of_stepAlias {r : StepRecord} {name : String} (h : r.stepAlias = name) :
    carry (some r) name = r := by
  simp [carry, Option.filter, h]

lemma normalizeFrom_getElem? (index : Nat) (previous : List StepRecord) (steps : List Step)
    (j : Nat) : (normalizeFrom index previous steps)[j]? =
      steps[j]?.map fun step => carry previous[j]? (step.aliasAt (index + j)) := by
  induction steps generalizing index previous j with
  | nil => simp [normalizeFrom]
  | cons step rest ih =>
    cases j with
    | zero => simp [normalizeFrom, List.head?_eq_getElem?]
    | succ j =>
      rw [normalizeFrom, List.getElem?_cons_succ, ih, List.getElem?_cons_succ, List.getElem?_tail,
        Nat.add_right_comm, Nat.add_assoc]

lemma normalize_getElem? (previous : List StepRecord) (steps : List Step) (j : Nat) :
    (normalize previous steps)[j]? =
      steps[j]?.map fun step => carry previous[j]? (step.aliasAt j) := by
  rw [normalize, normalizeFrom_getElem?, Nat.zero_add]

@[simp] lemma normalize_length (previous : List StepRecord) (steps : List Step) :
    (normalize previous steps).length = steps.length := by
  have hf (index : Nat) : (normalizeFrom index previous steps).length = steps.length := by
    induction steps generalizing index previous with
    | nil => rfl
    | cons step rest ih => simp [normalizeFrom, ih]
  exact hf 0

end StepRecord

abbrev PromotionRequest.recordsFor (request : PromotionRequest) (steps : List Step) :
    List StepRecord := StepRecord.normalize request.records steps

abbrev PromotionRequest.remaining (request : PromotionRequest) (steps : List Step) :
    List (Step × StepRecord) := (steps.zip (request.recordsFor steps)).drop request.startFromStep

lemma PromotionRequest.remaining_getElem? (request : PromotionRequest) (steps : List Step)
    (j : Nat) : (request.remaining steps)[j]? =
      steps[request.startFromStep + j]?.map fun step =>
        (step, .carry request.records[request.startFromStep + j]?
          (step.aliasAt (request.startFromStep + j))) := by
  rw [List.getElem?_drop, List.zip, List.getElem?_zipWith, StepRecord.normalize_getElem?]
  cases steps[request.startFromStep + j]? <;> rfl

namespace Invocation

variable (setback : Setback) (index : Nat) (state : Payload) (records : List StepRecord)

@[simp] lemma errored_attempts :
    (errored setback index state records : Invocation σ).attempts = [] := rfl

@[simp] lemma errored_status :
    (errored setback index state records : Invocation σ).result.status = .errored := rfl

@[simp] lemma errored_currentStep :
    (errored setback index state records : Invocation σ).result.currentStep = index := rfl

@[simp] lemma errored_state :
    (errored setback index state records : Invocation σ).result.state = state := rfl

@[simp] lemma errored_records :
    (errored setback index state records : Invocation σ).result.records = records := rfl

@[simp] lemma errored_healthChecks :
    (errored setback index state records : Invocation σ).result.healthChecks = [] := rfl

end Invocation

namespace Engine

structure Assigned (e : Engine σ) (request : PromotionRequest) (steps : List Step) (index : Nat)
    (a : Assignment σ) : Prop where
  step_eq : steps[index]? = some a.step
  record_eq : a.record = .carry request.records[index]? (a.step.aliasAt index)
  runner_eq : e.registry.stepRunner a.step.kind = some (a.runner, a.permissions)

lemma assign_ok {e : Engine σ} {index : Nat} {pairs : List (Step × StepRecord)}
    {left : List (Assignment σ)} (h : e.assign index pairs = .ok left) :
    left.map (fun a => (a.step, a.record)) = pairs ∧
      ∀ a ∈ left, e.registry.stepRunner a.step.kind = some (a.runner, a.permissions) := by
  induction pairs generalizing index left with
  | nil =>
    obtain rfl : [] = left := by simpa [assign] using h
    simp
  | cons pair rest ih =>
    obtain ⟨step, record⟩ := pair
    simp only [assign] at h
    split at h
    · cases h
    · next runner permissions hr =>
      cases hrest : e.assign (index + 1) rest with
      | error u => simp [hrest, Except.map] at h
      | ok left' =>
        obtain ⟨hmap, hall⟩ := ih hrest
        simp only [hrest, Except.map, Except.ok.injEq] at h
        subst h
        exact ⟨by rw [List.map_cons, hmap], by simpa using ⟨hr, hall⟩⟩

lemma assign_error {e : Engine σ} {index : Nat} {pairs : List (Step × StepRecord)} {u : Unassigned}
    (h : e.assign index pairs = .error u) :
    ∃ j step record, pairs[j]? = some (step, record) ∧
      u = ⟨index + j, record.stepAlias, step.kind⟩ ∧ e.registry.stepRunner step.kind = none ∧
      ∀ k < j, ∀ pair, pairs[k]? = some pair → (e.registry.stepRunner pair.1.kind).isSome := by
  induction pairs generalizing index with
  | nil => simp [assign] at h
  | cons pair rest ih =>
    obtain ⟨step, record⟩ := pair
    simp only [assign] at h
    split at h
    · next hr =>
      cases h
      exact ⟨0, step, record, rfl, rfl, hr, by simp⟩
    · next runner permissions hr =>
      cases hrest : e.assign (index + 1) rest with
      | ok left => simp [hrest, Except.map] at h
      | error u' =>
        simp only [hrest, Except.map, Except.error.injEq] at h
        subst h
        obtain ⟨j, step', record', hj, hu, hn, hk⟩ := ih hrest
        refine ⟨j + 1, step', record', hj, ?_, hn, ?_⟩
        · rw [hu, Nat.add_right_comm, Nat.add_assoc]
        · intro k hlt pair hpair
          cases k with
          | zero =>
            obtain rfl : (step, record) = pair := by simpa using hpair
            simp [hr]
          | succ k => exact hk k (Nat.lt_of_succ_lt_succ hlt) pair (by simpa using hpair)

def Resolves (e : Engine σ) (steps : List Step) (index : Nat) : Prop :=
  ∀ j step, index ≤ j → steps[j]? = some step → (e.registry.stepRunner step.kind).isSome = true

def FirstUnresolved (e : Engine σ) (steps : List Step) (index u : Nat) : Prop :=
  index ≤ u ∧ (∃ step, steps[u]? = some step ∧ e.registry.stepRunner step.kind = none) ∧
    ∀ j step, index ≤ j → j < u → steps[j]? = some step →
      (e.registry.stepRunner step.kind).isSome = true

section

variable {e : Engine σ} {request : PromotionRequest} {steps : List Step}

lemma Assigned.recordsFor_getElem? {index : Nat} {a : Assignment σ}
    (h : e.Assigned request steps index a) :
    (request.recordsFor steps)[index]? = some a.record := by
  rw [StepRecord.normalize_getElem?, h.step_eq, h.record_eq]
  rfl

lemma Makes.threshold {dir : String} {index : Nat} {state : Payload} {a : Assignment σ}
    {w w' : World σ} {t : Attempt σ} {step : Step} {runner : StepRunner σ} {permissions : Permissions}
    (h : e.Makes request dir index state a w t w')
    (ha : e.Assigned request steps index a) (hstep : steps[index]? = some step)
    (hrunner : e.registry.stepRunner step.kind = some (runner, permissions)) :
    t.threshold =
      Retry.effectiveThreshold step.retry runner.defaultThreshold e.defaults.errorThreshold := by
  obtain rfl := Option.some.inj (ha.step_eq.symm.trans hstep)
  have hr := ha.runner_eq.symm.trans hrunner
  simp only [Option.some.injEq, Prod.mk.injEq] at hr
  rw [h.threshold_eq, Assignment.threshold, hr.1]

lemma assigned_of_assign {left : List (Assignment σ)}
    (h : e.assign request.startFromStep (request.remaining steps) = .ok left) {j : Nat}
    {a : Assignment σ} (ha : left[j]? = some a) :
    e.Assigned request steps (request.startFromStep + j) a := by
  obtain ⟨hmap, hall⟩ := assign_ok h
  have hpair := congrArg (·[j]?) hmap
  simp only [List.getElem?_map, ha, Option.map_some, request.remaining_getElem?] at hpair
  obtain ⟨step, hs, hp⟩ := Option.map_eq_some_iff.mp hpair.symm
  obtain ⟨rfl, hr⟩ := Prod.mk.inj hp
  exact ⟨hs, hr.symm, hall a (List.mem_of_getElem? ha)⟩

lemma length_of_assign {left : List (Assignment σ)}
    (h : e.assign request.startFromStep (request.remaining steps) = .ok left) :
    left.length = steps.length - request.startFromStep := by
  have hmap := congrArg List.length (assign_ok h).1
  simpa using hmap

lemma resolves_of_assign {left : List (Assignment σ)}
    (h : e.assign request.startFromStep (request.remaining steps) = .ok left) :
    e.Resolves steps request.startFromStep := by
  intro j step hj hs
  obtain ⟨k, rfl⟩ := Nat.exists_eq_add_of_le hj
  have hk : k < left.length := by
    have hlt := (List.getElem?_eq_some_iff.mp hs).1
    rw [length_of_assign h]
    omega
  have ha := assigned_of_assign h (List.getElem?_eq_getElem hk)
  obtain rfl := Option.some.inj (ha.step_eq.symm.trans hs)
  rw [ha.runner_eq]
  rfl

lemma firstUnresolved_of_assign {u : Unassigned}
    (h : e.assign request.startFromStep (request.remaining steps) = .error u) :
    e.FirstUnresolved steps request.startFromStep u.index := by
  obtain ⟨k, step, record, hk, rfl, hn, hall⟩ := assign_error h
  rw [request.remaining_getElem?, Option.map_eq_some_iff] at hk
  obtain ⟨step, hs, hp⟩ := hk
  cases hp
  refine ⟨Nat.le_add_right _ _, ⟨step, hs, hn⟩, ?_⟩
  intro j step' hj hlt hs'
  obtain ⟨m, rfl⟩ := Nat.exists_eq_add_of_le hj
  apply hall m (Nat.lt_of_add_lt_add_left hlt) (step', _)
  rw [request.remaining_getElem?, hs']
  rfl

lemma FirstUnresolved.not_resolves {index u : Nat} (h : e.FirstUnresolved steps index u)
    {j : Nat} (hj : j ≤ u) : ¬ e.Resolves steps j := by
  intro hr
  obtain ⟨_, ⟨step, hs, hn⟩, _⟩ := h
  simpa [hn] using hr u step hj hs

lemma FirstUnresolved.unique {index u v : Nat} (hu : e.FirstUnresolved steps index u)
    (hv : e.FirstUnresolved steps index v) : u = v := by
  obtain ⟨hiu, ⟨su, hsu, hnu⟩, hu⟩ := hu
  obtain ⟨hiv, ⟨sv, hsv, hnv⟩, hv⟩ := hv
  rcases Nat.lt_trichotomy u v with h | h | h
  · simpa [hnu] using hv u su hiu h hsu
  · exact h
  · simpa [hnv] using hu v sv hiv h hsv

end

structure Admits (e : Engine σ) (request : PromotionRequest) (steps : List Step) (w : World σ)
    (left : List (Assignment σ)) (dir : String) (w' : World σ) : Prop where
  valid : StepProblem.ofSteps steps = []
  inRange : request.startFromStep ≤ steps.length
  assigned : e.assign request.startFromStep (request.remaining steps) = .ok left
  prepared : e.workDir request w = (.ok dir, w')

lemma exists_admits {e : Engine σ} {request : PromotionRequest} {steps : List Step} {w : World σ}
    (hv : StepProblem.ofSteps steps = []) (hs : request.startFromStep ≤ steps.length)
    (hr : e.Resolves steps request.startFromStep) (hd : ∃ dir, (e.workDir request w).1 = .ok dir) :
    ∃ left dir w₀, e.Admits request steps w left dir w₀ := by
  obtain ⟨dir, hdir⟩ := hd
  cases ha : e.assign request.startFromStep (request.remaining steps) with
  | error u => exact absurd hr ((firstUnresolved_of_assign ha).not_resolves (firstUnresolved_of_assign ha).1)
  | ok left => exact ⟨left, dir, _, hv, hs, ha, Prod.ext hdir rfl⟩

lemma workDir_signal (e : Engine σ) (request : PromotionRequest) (w : World σ) :
    (e.workDir request w).2.signal = w.signal := by
  simp only [workDir]
  split
  · rfl
  · split <;> rfl

lemma Admits.exists_assigned {e : Engine σ} {request : PromotionRequest} {steps : List Step}
    {w w' : World σ} {left : List (Assignment σ)} {dir : String} (h : e.Admits request steps w left dir w')
    {k : Nat} (hk : request.startFromStep + k < steps.length) :
    ∃ a, left[k]? = some a ∧ e.Assigned request steps (request.startFromStep + k) a := by
  have hlt : k < left.length := by
    rw [length_of_assign h.assigned]
    omega
  exact ⟨_, List.getElem?_eq_getElem hlt,
    assigned_of_assign h.assigned (List.getElem?_eq_getElem hlt)⟩

/-- The reasons for which a call is refused, where it stops and what becomes of the records. -/
inductive Refuses (e : Engine σ) (request : PromotionRequest) (steps : List Step) (w : World σ) :
    Setback → Nat → List StepRecord → World σ → Prop
  | invalid (hv : StepProblem.ofSteps steps ≠ []) :
      Refuses e request steps w (.invalidSteps (StepProblem.ofSteps steps)) request.startFromStep
        (request.recordsFor steps) w
  | outOfRange (hv : StepProblem.ofSteps steps = []) (hs : steps.length < request.startFromStep) :
      Refuses e request steps w (.startOutOfRange request.startFromStep steps.length)
        request.startFromStep (request.recordsFor steps) w
  | unassigned {u : Unassigned} (hv : StepProblem.ofSteps steps = [])
      (hs : request.startFromStep ≤ steps.length)
      (hu : e.assign request.startFromStep (request.remaining steps) = .error u) :
      Refuses e request steps w (.unknownKind u.stepAlias u.kind) u.index
        ((request.recordsFor steps).modify u.index (u.mark w.now.1)) w.now.2
  | noWorkDir {left : List (Assignment σ)} {setback : Setback} {w' : World σ}
      (hv : StepProblem.ofSteps steps = []) (hs : request.startFromStep ≤ steps.length)
      (ha : e.assign request.startFromStep (request.remaining steps) = .ok left)
      (hd : e.workDir request w = (.error setback, w')) :
      Refuses e request steps w setback request.startFromStep (request.recordsFor steps) w'

inductive Concludes (e : Engine σ) (request : PromotionRequest) (steps : List Step) (w : World σ) :
    Invocation σ → World σ → Prop
  | refused {setback : Setback} {index : Nat} {records : List StepRecord} {w' : World σ}
      (hr : e.Refuses request steps w setback index records w') :
      Concludes e request steps w (.errored setback index request.state records) w'
  | walked {left : List (Assignment σ)} {dir : String} {w₀ w' : World σ} {done : List (Attempt σ)}
      {q : Place σ} {last : Invocation σ} (ha : e.Admits request steps w left dir w₀)
      (hp : e.Passes request dir ⟨request.startFromStep, request.state, left, w₀⟩ done q)
      (he : e.Ends request dir q last w') :
      Concludes e request steps w
        ((last.after done).behind ((request.recordsFor steps).take request.startFromStep)) w'

variable {e : Engine σ} {request : PromotionRequest} {steps : List Step} {w w' : World σ}
  {i : Invocation σ}

theorem promote_concludes (h : e.promote request steps w = some (i, w')) :
    e.Concludes request steps w i w' := by
  simp only [promote] at h
  split at h
  · next hv =>
    cases h
    exact .refused (.invalid (by simpa using hv))
  · next hv =>
    have hv : StepProblem.ofSteps steps = [] := by simpa using hv
    split at h
    · next hs =>
      cases h
      exact .refused (.outOfRange hv hs)
    · next hs =>
      have hs := Nat.not_lt.mp hs
      split at h
      · next u hu =>
        cases h
        exact .refused (.unassigned hv hs hu)
      · next left ha =>
        split at h
        · next setback w₀ hd =>
          cases h
          exact .refused (.noWorkDir hv hs ha hd)
        · next dir w₀ hd =>
          obtain ⟨⟨i', w₁⟩, hw, h⟩ := Option.map_eq_some_iff.mp h
          cases h
          obtain ⟨done, q, last, hp, he, rfl⟩ := walk_ends hw
          exact .walked ⟨hv, hs, ha, hd⟩ hp he

lemma start_le_currentStep (h : e.promote request steps w = some (i, w')) :
    request.startFromStep ≤ i.result.currentStep := by
  cases promote_concludes h with
  | refused hr =>
    cases hr with
    | unassigned _ _ hu => exact (firstUnresolved_of_assign hu).1
    | _ => exact Nat.le_refl _
  | walked _ hp he =>
    refine Nat.le_trans ?_ (Nat.le_of_eq he.currentStep_eq.symm)
    rw [hp.index_eq]
    exact Nat.le_add_right _ _

theorem promote_of_refuses {setback : Setback} {index : Nat} {records : List StepRecord}
    (h : e.Refuses request steps w setback index records w') :
    e.promote request steps w = some (.errored setback index request.state records, w') := by
  simp only [promote]
  cases h with
  | invalid hv => rw [if_pos (by simpa using hv)]
  | outOfRange hv hs => rw [if_neg (by simp [hv]), if_pos hs]
  | unassigned hv hs hu =>
    rw [if_neg (by simp [hv]), if_neg (Nat.not_lt.mpr hs)]
    simp only [hu]
  | noWorkDir hv hs ha hd =>
    rw [if_neg (by simp [hv]), if_neg (Nat.not_lt.mpr hs)]
    simp only [ha, hd]

theorem promote_of_ends {left : List (Assignment σ)} {dir : String} {w₀ : World σ}
    {done : List (Attempt σ)} {q : Place σ} {last : Invocation σ}
    (ha : e.Admits request steps w left dir w₀)
    (hp : e.Passes request dir ⟨request.startFromStep, request.state, left, w₀⟩ done q)
    (he : e.Ends request dir q last w') :
    e.promote request steps w = some
      ((last.after done).behind ((request.recordsFor steps).take request.startFromStep), w') := by
  have hw := walk_of_ends hp he
  dsimp only at hw
  simp only [promote]
  rw [if_neg (by simp [ha.valid]), if_neg (Nat.not_lt.mpr ha.inRange)]
  simp only [ha.assigned, ha.prepared, hw, Option.map_some]

theorem promote_waits (h : e.promote request steps w = none) :
    ∃ left dir w₀ done q, e.Admits request steps w left dir w₀ ∧
      e.Passes request dir ⟨request.startFromStep, request.state, left, w₀⟩ done q ∧
      e.Waits request dir q := by
  simp only [promote] at h
  split at h
  · simp at h
  · next hv =>
    split at h
    · simp at h
    · next hs =>
      split at h
      · simp at h
      · next left ha =>
        split at h
        · simp at h
        · next dir w₀ hd =>
          obtain ⟨done, q, hp, hq⟩ := walk_waits (Option.map_eq_none_iff.mp h)
          exact ⟨left, dir, w₀, done, q, ⟨by simpa using hv, Nat.not_lt.mp hs, ha, hd⟩, hp, hq⟩

end Engine
end Delivery
