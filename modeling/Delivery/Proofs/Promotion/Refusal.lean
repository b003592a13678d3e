import Delivery.ComposeOutput
import Delivery.Proofs.Promotion.Calls

/-! Calls that are refused. The first reason that there is counts; no runner is called, whatever the signal says, and
the request's state comes back as it was. -/

namespace Delivery

variable {σ : Type}

namespace Engine

variable {e : Engine σ} {request : PromotionRequest} {steps : List Step} {w w' : World σ}
  {setback : Setback} {index : Nat} {records : List StepRecord}

lemma unassigned_of_assign {u : Unassigned}
    (h : e.assign request.startFromStep (request.remaining steps) = .error u) :
    e.FirstUnresolved steps request.startFromStep u.index ∧ ∃ step, steps[u.index]? = some step ∧
      Setback.unknownKind u.stepAlias u.kind = .unknownKind (step.aliasAt u.index) step.kind := by
  refine ⟨firstUnresolved_of_assign h, ?_⟩
  obtain ⟨k, step, record, hk, rfl, _, _⟩ := assign_error h
  rw [request.remaining_getElem?, Option.map_eq_some_iff] at hk
  obtain ⟨step, hs, hp⟩ := hk
  cases hp
  exact ⟨step, hs, by rw [StepRecord.carry_stepAlias]⟩

lemma workDir_with (e : Engine σ) (request : PromotionRequest) (w : World σ) (signal : Signal) :
    e.workDir request { w with signal } =
      ((e.workDir request w).1, { (e.workDir request w).2 with signal }) := by
  simp only [workDir]
  split
  · rfl
  · split <;> rfl

lemma workDir_frame (e : Engine σ) (request : PromotionRequest) (w : World σ) :
    (e.workDir request w).2.memory = w.memory ∧ (e.workDir request w).2.time = w.time := by
  simp only [workDir]
  split
  · exact ⟨rfl, rfl⟩
  · split <;> exact ⟨rfl, rfl⟩

lemma workDir_error (h : (e.workDir request w).1 = .error setback) : ∃ error, setback =
    .noWorkDir (WorkDir.path e.workDirRoot request.project request.promotion) error := by
  simp only [workDir] at h
  split at h
  · cases h
  · split at h
    · cases h
    · cases h
      exact ⟨_, rfl⟩

namespace Refuses

lemma with_signal (h : e.Refuses request steps w setback index records w') (signal : Signal) :
    e.Refuses request steps { w with signal } setback index records { w' with signal } := by
  cases h with
  | invalid hv => exact .invalid hv
  | outOfRange hv hs => exact .outOfRange hv hs
  | unassigned hv hs hu => exact .unassigned hv hs hu
  | noWorkDir hv hs ha hd => exact .noWorkDir hv hs ha (by rw [workDir_with, hd])

lemma frame (h : e.Refuses request steps w setback index records w') :
    w'.memory = w.memory ∧ w'.time = w.time := by
  cases h with
  | noWorkDir _ _ _ hd =>
    have hf := workDir_frame e request w
    rwa [hd] at hf
  | _ => exact ⟨rfl, rfl⟩

end Refuses

lemma exists_refuses (h : StepProblem.ofSteps steps ≠ [] ∨ steps.length < request.startFromStep ∨
      ¬ e.Resolves steps request.startFromStep ∨
        ∃ setback, (e.workDir request w).1 = .error setback) :
    ∃ setback index records w', e.Refuses request steps w setback index records w' := by
  by_cases hv : StepProblem.ofSteps steps = []
  · by_cases hs : steps.length < request.startFromStep
    · exact ⟨_, _, _, _, .outOfRange hv hs⟩
    · have hs := Nat.not_lt.mp hs
      cases ha : e.assign request.startFromStep (request.remaining steps) with
      | error u => exact ⟨_, _, _, _, .unassigned hv hs ha⟩
      | ok left =>
        obtain h | h | h | ⟨setback, h⟩ := h
        · exact absurd hv h
        · omega
        · exact absurd (resolves_of_assign ha) h
        · exact ⟨_, _, _, _, .noWorkDir hv hs ha (Prod.ext h rfl)⟩
  · exact ⟨_, _, _, _, .invalid hv⟩

theorem promote_refused (h : StepProblem.ofSteps steps ≠ [] ∨ steps.length < request.startFromStep ∨
      ¬ e.Resolves steps request.startFromStep ∨
        ∃ setback, (e.workDir request w).1 = .error setback) :
    ∃ (i : Invocation σ) (w' : World σ), e.promote request steps w = some (i, w') ∧
      (∀ signal, e.promote request steps { w with signal } = some (i, { w' with signal })) ∧
      i.attempts = [] ∧ w'.memory = w.memory ∧ w'.time = w.time ∧ i.result.status = .errored ∧
      i.result.state = request.state ∧ i.result.healthChecks = [] ∧
      (StepProblem.ofSteps steps ≠ [] →
        i.result.message = some (Setback.invalidSteps (StepProblem.ofSteps steps)).message ∧
        i.result.records = request.recordsFor steps ∧ w'.files = w.files) ∧
      (StepProblem.ofSteps steps = [] → steps.length < request.startFromStep →
        i.result.message =
          some (Setback.startOutOfRange request.startFromStep steps.length).message ∧
        i.result.records = request.recordsFor steps ∧ w'.files = w.files) ∧
      (StepProblem.ofSteps steps = [] → request.startFromStep ≤ steps.length →
        ¬ e.Resolves steps request.startFromStep →
        ∃ u step r, e.FirstUnresolved steps request.startFromStep u ∧ steps[u]? = some step ∧
          i.result.message = some (Setback.unknownKind (step.aliasAt u) step.kind).message ∧
          (∀ j ≠ u, i.result.records[j]? = (request.recordsFor steps)[j]?) ∧
          (request.recordsFor steps)[u]? = some r ∧
          i.result.records[u]? = some { r with
            status := some .errored
            message := i.result.message
            finishedAt := some w.now.1 } ∧
          w'.files = w.files) ∧
      (StepProblem.ofSteps steps = [] → request.startFromStep ≤ steps.length →
        e.Resolves steps request.startFromStep →
        ∃ error, i.result.message = some (Setback.noWorkDir
            (WorkDir.path e.workDirRoot request.project request.promotion) error).message ∧
          i.result.records = request.recordsFor steps) := by
  obtain ⟨setback, index, records, w', hr⟩ := exists_refuses h
  obtain ⟨hmemory, htime⟩ := hr.frame
  refine ⟨.errored setback index request.state records, w', promote_of_refuses hr,
    fun signal => promote_of_refuses (hr.with_signal signal), rfl, hmemory, htime, rfl, rfl, rfl, ?_⟩
  cases hr with
  | invalid hv =>
    exact ⟨fun _ => ⟨rfl, rfl, rfl⟩, fun h => absurd h hv, fun h => absurd h hv, fun h => absurd h hv⟩
  | outOfRange hv hs =>
    have hn := Nat.not_le.mpr hs
    exact ⟨fun h => absurd hv h, fun _ _ => ⟨rfl, rfl, rfl⟩, fun _ h => absurd h hn,
      fun _ h => absurd h hn⟩
  | @unassigned u hv hs hu =>
    obtain ⟨hfirst, step, hstep, hsetback⟩ := unassigned_of_assign hu
    refine ⟨fun h => absurd hv h, fun _ h => absurd hs (Nat.not_le.mpr h), ?_,
      fun _ _ h => absurd h (hfirst.not_resolves hfirst.1)⟩
    intro _ _ _
    have hrecord := StepRecord.normalize_getElem? request.records steps u.index
    rw [hstep, Option.map_some] at hrecord
    refine ⟨u.index, step, _, hfirst, hstep, hsetback ▸ rfl, ?_, hrecord, ?_, rfl⟩
    · intro j hj
      rw [Invocation.errored_records, List.getElem?_modify_ne _ _ (Ne.symm hj)]
    · rw [Invocation.errored_records, List.getElem?_modify_eq, hrecord]
      rfl
  | @noWorkDir left setback w' hv hs ha hd =>
    refine ⟨fun h => absurd hv h, fun _ h => absurd hs (Nat.not_le.mpr h),
      fun _ _ h => absurd (resolves_of_assign ha) h, ?_⟩
    intro _ _ _
    obtain ⟨error, rfl⟩ := workDir_error (congrArg Prod.fst hd)
    exact ⟨error, rfl, rfl⟩

end Engine

/-! ### A cancelled promotion whose last step has no runner -/

namespace Unequipped

def engine : Engine Unit where
  registry := .withBuiltins
  workDirRoot := ⟨"/work"⟩

def steps : List Step :=
  [{ kind := composeOutputKind }, { kind := "notify", givenAlias := some "announce" }]

def request : PromotionRequest where
  project := "payments"
  stage := "prod"
  promotion := "prod.01"

def world : World Unit := ⟨0, Signal.idle.cancel .canceled, (), default, fun _ => ⟨0, 0⟩, 0⟩

end Unequipped

namespace Engine
open Unequipped

theorem promote_refused_unequipped :
    ∃ i w', engine.promote request steps world = some (i, w') ∧ ¬ engine.Resolves steps 0 ∧
      i.attempts = [] ∧ i.result.status = .errored ∧
      i.result.message = some (Setback.unknownKind "announce" "notify").message ∧
      w'.files = world.files := by
  have hn : ¬ engine.Resolves steps request.startFromStep := by
    intro h
    have hlast := h 1 _ (Nat.zero_le _) rfl
    revert hlast
    decide
  obtain ⟨i, w', hp, _, hattempts, _, _, hstatus, _, _, _, _, hunknown, _⟩ :=
    promote_refused (w := world) (.inr (.inr (.inl hn)))
  obtain ⟨u, step, _, hfirst, hstep, hmessage, _, _, _, hfiles⟩ := hunknown rfl (by decide) hn
  have hu : engine.FirstUnresolved steps request.startFromStep 1 := by
    refine ⟨by decide, ⟨_, rfl, rfl⟩, ?_⟩
    intro j step _ hlt hs
    obtain rfl : j = 0 := by omega
    obtain rfl := Option.some.inj hs
    rfl
  obtain rfl := hfirst.unique hu
  obtain rfl := Option.some.inj hstep
  exact ⟨i, w', hp, hn, hattempts, hstatus, hmessage, hfiles⟩

end Engine
end Delivery
