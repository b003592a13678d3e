import Delivery.ComposeOutput
import Delivery.Proofs.Promotion.Effect
import Delivery.Proofs.Promotion.Records

/-! Where a promotion is to be resumed. The steps between the start of a call and the index that it returns have
succeeded in that call, except when a later step has no runner: then the call stops at that step, and none of
those before it has been tried. -/

namespace Delivery

variable {σ : Type}

def Invocation.Delivers (i : Invocation σ) (steps : List Step) (j : Nat) : Prop :=
  ∃ t ∈ i.attempts, t.index = j ∧ t.invoked = true ∧ t.succeeded = true ∧
    (∃ r, i.result.records[j]? = some r ∧ r.status = some .succeeded) ∧
    ∃ step, steps[j]? = some step ∧
      i.result.state.get? (step.aliasAt j) = some (Payload.toJson t.result.output)

namespace Engine

/-- A call stops at a step without a runner that comes behind its start. -/
def Overleaps (e : Engine σ) (request : PromotionRequest) (steps : List Step) : Prop :=
  StepProblem.ofSteps steps = [] ∧
    ∃ u, request.startFromStep < u ∧ e.FirstUnresolved steps request.startFromStep u

variable {e : Engine σ} {request : PromotionRequest} {steps : List Step} {w w' : World σ}
  {i : Invocation σ}

lemma delivers_passed {left : List (Assignment σ)} {dir : String} {w₀ : World σ}
    {done : List (Attempt σ)} {q : Place σ} {last : Invocation σ}
    (ha : e.Admits request steps w left dir w₀)
    (hp : e.Passes request dir ⟨request.startFromStep, request.state, left, w₀⟩ done q)
    (he : e.Ends request dir q last w') {k : Nat} (hk : k < done.length) :
    ((last.after done).behind ((request.recordsFor steps).take request.startFromStep)).Delivers
      steps (request.startFromStep + k) := by
  obtain ⟨t, ht⟩ : ∃ t, done[k]? = some t := ⟨_, List.getElem?_eq_getElem hk⟩
  have hm := List.mem_of_getElem? ht
  have htold := ha.done_tried_told hp
  have hi : t.index = request.startFromStep + k := hp.index_of_getElem? ht
  obtain ⟨step, hs, hal⟩ := Option.map_eq_some_iff.mp (htold t hm).2.alias_eq
  have hnodup : (done.map (·.context.stepAlias)).Nodup :=
    Attempt.stepAliases_nodup ha.valid (hp.indices ▸ List.nodup_range')
      (fun u hu => (htold u hu).2.alias_eq)
  refine ⟨t, List.mem_append_left _ hm, hi, hp.invoked t hm, hp.succeeded t hm,
    ⟨t.closed, records_passed ha.inRange ht, rfl⟩, step, hi ▸ hs, ?_⟩
  rw [← hi, hal]
  refine Eq.trans ?_ (Attempt.get?_publishAll_of_mem hnodup hm request.state)
  exact congrArg (Keyed.get? · _) (he.state_eq.trans hp.state_eq)

lemma delivers_of_stays (hc : i.result.currentStep = request.startFromStep) :
    ∀ j, request.startFromStep ≤ j → j < i.result.currentStep → i.Delivers steps j := by
  intro j hj hlt
  omega

theorem delivers_iff_not_overleaps (h : e.promote request steps w = some (i, w')) :
    ((∀ j, request.startFromStep ≤ j → j < i.result.currentStep → i.Delivers steps j) ↔
      ¬ e.Overleaps request steps) ∧
    (e.Overleaps request steps → i.attempts = [] ∧ i.result.state = request.state ∧
      e.FirstUnresolved steps request.startFromStep i.result.currentStep) := by
  cases promote_concludes h with
  | @walked left dir w₀ _ done q last ha hp he =>
    have hn : ¬ e.Overleaps request steps := fun ⟨_, _, _, hf⟩ =>
      hf.not_resolves hf.1 (resolves_of_assign ha.assigned)
    refine ⟨iff_of_true ?_ hn, fun ho => absurd ho hn⟩
    intro j hj hlt
    obtain ⟨k, rfl⟩ := Nat.exists_eq_add_of_le hj
    have hc : ((last.after done).behind ((request.recordsFor steps).take
        request.startFromStep)).result.currentStep = request.startFromStep + done.length :=
      he.currentStep_eq.trans hp.index_eq
    exact delivers_passed ha hp he (by omega)
  | refused hr =>
    cases hr with
    | invalid hv =>
      have hn : ¬ e.Overleaps request steps := fun ho => hv ho.1
      exact ⟨iff_of_true (delivers_of_stays rfl) hn, fun ho => absurd ho hn⟩
    | outOfRange hv hs =>
      have hn : ¬ e.Overleaps request steps := by
        rintro ⟨_, u, hu, _, ⟨step, hstep, _⟩, _⟩
        have hlt := (List.getElem?_eq_some_iff.mp hstep).1
        omega
      exact ⟨iff_of_true (delivers_of_stays rfl) hn, fun ho => absurd ho hn⟩
    | noWorkDir hv hs ha hd =>
      have hn : ¬ e.Overleaps request steps := fun ⟨_, _, _, hf⟩ =>
        hf.not_resolves hf.1 (resolves_of_assign ha)
      exact ⟨iff_of_true (delivers_of_stays rfl) hn, fun ho => absurd ho hn⟩
    | @unassigned u hv hs hu =>
      have hf := firstUnresolved_of_assign hu
      by_cases hlt : request.startFromStep < u.index
      · have ho : e.Overleaps request steps := ⟨hv, u.index, hlt, hf⟩
        refine ⟨iff_of_false ?_ (not_not_intro ho), fun _ => ⟨rfl, rfl, hf⟩⟩
        -- Nothing was tried, so not even the step at the start was delivered.
        intro hall
        obtain ⟨t, ht, _⟩ := hall request.startFromStep (Nat.le_refl _) hlt
        cases ht
      · have hn : ¬ e.Overleaps request steps := by
          rintro ⟨_, v, hlv, hfv⟩
          exact hlt (hf.unique hfv ▸ hlv)
        have hc : u.index = request.startFromStep := Nat.le_antisymm (Nat.not_lt.mp hlt) hf.1
        exact ⟨iff_of_true (delivers_of_stays hc) hn, fun ho => absurd ho hn⟩

end Engine

/-! ### A promotion that is resumed behind steps that were never tried -/

namespace Overleap

def steps (lastKind : String) : List Step :=
  [{ kind := composeOutputKind },
    { kind := composeOutputKind
      givenAlias := some "vars"
      config := ({} : Payload).insert "image" (.string "app:1") },
    { kind := lastKind }]

def request : PromotionRequest where
  project := "payments"
  stage := "prod"
  promotion := "prod.01"
  workDir := some "/work"

def engine : Engine Unit where
  registry := .withBuiltins
  workDirRoot := ⟨"/tmp"⟩

def world : World Unit := ⟨0, .idle, (), default, fun _ => ⟨0, 0⟩, 0⟩

-- The kind of the last step is corrected before the promotion goes on.
theorem loses_steps :
    ∃ i w₁ later w₂, engine.promote request (steps "notify") world = some (i, w₁) ∧
      ¬ (∀ j, request.startFromStep ≤ j → j < i.result.currentStep →
        i.Delivers (steps "notify") j) ∧
      engine.promote (request.resumeFrom i.result) (steps composeOutputKind) w₁ =
        some (later, w₂) ∧
      i.attempts = [] ∧ later.attempts.map (·.index) = [2] ∧
      later.result.status = .succeeded := by
  refine ⟨_, _, _, _, rfl, ?_, rfl, rfl, rfl, rfl⟩
  intro h
  obtain ⟨t, ht, _⟩ := h 0 (Nat.le_refl _) (by decide)
  cases ht

theorem delivers_corrected :
    ∃ i w', engine.promote request (steps composeOutputKind) world = some (i, w') ∧
      i.result.currentStep = 3 ∧
      ∀ j, request.startFromStep ≤ j → j < i.result.currentStep →
        i.Delivers (steps composeOutputKind) j := by
  obtain ⟨i, w', h, hc⟩ : ∃ i w',
      engine.promote request (steps composeOutputKind) world = some (i, w') ∧
        i.result.currentStep = 3 := ⟨_, _, rfl, rfl⟩
  refine ⟨i, w', h, hc, (Engine.delivers_iff_not_overleaps h).1.mpr ?_⟩
  rintro ⟨_, u, _, hu⟩
  refine hu.not_resolves (Nat.zero_le _) ?_
  intro j step _ hs
  have hk : ∀ s ∈ steps composeOutputKind, s.kind = composeOutputKind := by simp [steps]
  rw [hk step (List.mem_of_getElem? hs)]
  rfl

end Overleap
end Delivery
