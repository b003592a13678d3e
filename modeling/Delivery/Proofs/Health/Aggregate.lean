import Delivery.Health.Run
import Delivery.Proofs.Behaviours

/-! A run of health checks. Criteria are visited in order until none is left or the signal is found cancelled; the
verdict is what the visits, and the cancellation, add up to. -/

namespace Delivery

variable {σ : Type}

namespace HealthState

/-- A state is the worst of a list; of the empty list that is the best state. -/
def IsWorst (s : HealthState) (states : List HealthState) : Prop :=
  (∀ t ∈ states, t.rank ≤ s.rank) ∧ (s ∈ states ∨ states = [] ∧ s = healthy)

lemma merge_rank (a b : HealthState) : (a.merge b).rank = max a.rank b.rank := by
  cases a <;> cases b <;> rfl

lemma merge_eq_or (a b : HealthState) : a.merge b = a ∨ a.merge b = b := by
  cases a <;> cases b <;> simp [merge, rank]

lemma rank_le_foldl (states : List HealthState) (s : HealthState) :
    s.rank ≤ (states.foldl merge s).rank ∧ ∀ t ∈ states, t.rank ≤ (states.foldl merge s).rank := by
  induction states generalizing s with
  | nil => simp
  | cons a rest ih =>
    obtain ⟨hle, hall⟩ := ih (s.merge a)
    rw [merge_rank] at hle
    refine ⟨Nat.le_trans (Nat.le_max_left _ _) hle, ?_⟩
    intro t ht
    rcases List.mem_cons.mp ht with rfl | ht
    · exact Nat.le_trans (Nat.le_max_right _ _) hle
    · exact hall t ht

lemma foldl_mem (states : List HealthState) (s : HealthState) :
    states.foldl merge s = s ∨ states.foldl merge s ∈ states := by
  induction states generalizing s with
  | nil => exact .inl rfl
  | cons a rest ih =>
    rcases ih (s.merge a) with h | h
    · rcases merge_eq_or s a with ha | ha
      · exact .inl (h.trans ha)
      · exact .inr (List.mem_cons.mpr (.inl (h.trans ha)))
    · exact .inr (List.mem_cons_of_mem a h)

lemma eq_healthy_of_rank {s : HealthState} (h : s.rank = 0) : s = healthy := by
  cases s <;> simp_all [rank]

theorem mergeAll_isWorst (states : List HealthState) : (mergeAll states).IsWorst states := by
  refine ⟨(rank_le_foldl states healthy).2, ?_⟩
  rcases foldl_mem states healthy with h | h
  · cases states with
    | nil => exact .inr ⟨rfl, h⟩
    | cons a rest =>
      have hrank := (rank_le_foldl (a :: rest) healthy).2 a List.mem_cons_self
      rw [h] at hrank
      obtain rfl := eq_healthy_of_rank (Nat.le_zero.mp hrank)
      exact .inl (by rw [mergeAll, h]; exact List.mem_cons_self)
  · exact .inl h

lemma IsWorst.eq_healthy_iff {s : HealthState} {states : List HealthState} (h : s.IsWorst states) :
    s = healthy ↔ ∀ t ∈ states, t = healthy := by
  constructor
  · rintro rfl t ht
    exact eq_healthy_of_rank (Nat.le_zero.mp (h.1 t ht))
  · intro hall
    rcases h.2 with hs | ⟨_, hs⟩
    · exact hall s hs
    · exact hs

end HealthState

/-- A criterion that was visited: the context in which its checker was called, if its kind has one, and what it
came to. -/
structure Visit (σ : Type) where
  criterion : Criterion
  context : Option (CheckContext σ)
  result : CheckResult

namespace Engine

def checkContext (e : Engine σ) (project stage : String) (criterion : Criterion)
    (permissions : Permissions) : CheckContext σ where
  project := project
  stage := stage
  config := criterion.config
  grants := .restrict permissions e.collaborators

variable (e : Engine σ) (project stage : String)

/-- Visits in order, from one world to another. The signal is idle before each of them. -/
inductive Visits : World σ → List (Visit σ) → World σ → Prop
  | none (w : World σ) : Visits w [] w
  | unknown {w w' : World σ} {c : Criterion} {visits : List (Visit σ)}
      (hidle : w.signal.cause = .none) (hkind : e.registry.healthChecker c.kind = .none)
      (hrest : Visits w visits w') :
      Visits w (⟨c, .none, { status := .unknown, issues := [noChecker c.kind] }⟩ :: visits) w'
  | checked {w w₁ w' : World σ} {c : Criterion} {checker : Checker σ} {permissions : Permissions}
      {result : CheckResult} {visits : List (Visit σ)} (hidle : w.signal.cause = .none)
      (hkind : e.registry.healthChecker c.kind = some (checker, permissions))
      (hrun : (checker.check (e.checkContext project stage c permissions)).run .none w =
        (.answered result, w₁))
      (hrest : Visits w₁ visits w') :
      Visits w (⟨c, some (e.checkContext project stage c permissions), result⟩ :: visits) w'

def Hangs (w : World σ) (c : Criterion) : Prop :=
  w.signal.cause = .none ∧ ∃ checker permissions w₁,
    e.registry.healthChecker c.kind = some (checker, permissions) ∧
    (checker.check (e.checkContext project stage c permissions)).run .none w = (.stuck, w₁)

/-- Why no more criteria are visited in a world: none is left, or the signal is found cancelled. -/
inductive Cut (w : World σ) : List Criterion → Option Cause → Prop
  | complete : Cut w [] .none
  | canceled {c : Criterion} {rest : List Criterion} {cause : Cause}
      (hc : w.signal.cause = some cause) : Cut w (c :: rest) (some cause)

variable {e : Engine σ} {project stage : String} {criteria rest : List Criterion} {w w' : World σ}
  {cut : Option Cause} {visits : List (Visit σ)}

theorem visits_of_runChecks {run : CheckRun σ}
    (h : e.runChecks project stage criteria w = some (run, w')) :
    ∃ visits rest cut, criteria = visits.map Visit.criterion ++ rest ∧
      e.Visits project stage w visits w' ∧ Cut w' rest cut ∧
      run.contexts = visits.filterMap Visit.context ∧
      run.results = visits.map Visit.result ++ cut.toList.map (.unknown ·.message) := by
  induction criteria generalizing w run with
  | nil =>
    cases h
    exact ⟨[], [], .none, rfl, .none _, .complete, rfl, rfl⟩
  | cons c rest ih =>
    simp only [runChecks] at h
    split at h
    · next cause hc =>
      cases h
      exact ⟨[], c :: rest, some cause, rfl, .none _, .canceled hc, rfl, rfl⟩
    · next hidle =>
      split at h
      · next hkind =>
        obtain ⟨⟨later, w₁⟩, hlater, h⟩ := Option.bind_eq_some_iff.mp h
        cases h
        obtain ⟨visits, left, cut, hsplit, hvisits, hcut, hcontexts, hresults⟩ := ih hlater
        refine ⟨_, left, cut, ?_, .unknown hidle hkind hvisits, hcut, hcontexts, ?_⟩
        · rw [hsplit]; rfl
        · rw [hresults]; rfl
      · next checker permissions hkind =>
        split at h
        · next result w₁ hanswer =>
          obtain ⟨⟨later, w₂⟩, hlater, h⟩ := Option.bind_eq_some_iff.mp h
          cases h
          obtain ⟨visits, left, cut, hsplit, hvisits, hcut, hcontexts, hresults⟩ := ih hlater
          refine ⟨_, left, cut, ?_, .checked hidle hkind hanswer hvisits, hcut, ?_, ?_⟩
          · rw [hsplit]; rfl
          · rw [hcontexts]; rfl
          · rw [hresults]; rfl
        · cases h
        · cases h

theorem hangs_of_runChecks (h : e.runChecks project stage criteria w = .none) :
    ∃ visits c rest w', criteria = visits.map Visit.criterion ++ c :: rest ∧
      e.Visits project stage w visits w' ∧ e.Hangs project stage w' c := by
  induction criteria generalizing w with
  | nil => cases h
  | cons c rest ih =>
    simp only [runChecks] at h
    split at h
    · cases h
    · next hidle =>
      split at h
      · next hkind =>
        have hlater : e.runChecks project stage rest w = .none := by
          by_contra hn
          obtain ⟨later, hlater⟩ := Option.ne_none_iff_exists'.mp hn
          simp [hlater] at h
        obtain ⟨visits, d, left, w', hsplit, hvisits, hhangs⟩ := ih hlater
        exact ⟨_, d, left, w', by rw [hsplit]; rfl, .unknown hidle hkind hvisits, hhangs⟩
      · next checker permissions hkind =>
        split at h
        · next result w₁ hanswer =>
          have hlater : e.runChecks project stage rest w₁ = .none := by
            by_contra hn
            obtain ⟨later, hlater⟩ := Option.ne_none_iff_exists'.mp hn
            simp [hlater] at h
          obtain ⟨visits, d, left, w', hsplit, hvisits, hhangs⟩ := ih hlater
          exact ⟨_, d, left, w', by rw [hsplit]; rfl, .checked hidle hkind hanswer hvisits, hhangs⟩
        · next w₁ hcutOff =>
          exact absurd (congrArg Prod.fst hcutOff) (Behaviour.run_unlimited_ne_cutOff _ _)
        · next w₁ hstuck =>
          exact ⟨[], c, rest, w, rfl, .none w, hidle, checker, permissions, w₁, hkind, hstuck⟩

/-! ### The verdict -/

namespace Visits

lemma healthy (h : e.Visits project stage w visits w') {visit : Visit σ} (hv : visit ∈ visits)
    (hs : visit.result.status = .healthy) : visit.context.isSome = true := by
  induction h with
  | none => cases hv
  | unknown _ _ _ ih =>
    rcases List.mem_cons.mp hv with rfl | hv
    · cases hs
    · exact ih hv
  | checked _ _ _ _ ih =>
    rcases List.mem_cons.mp hv with rfl | hv
    · rfl
    · exact ih hv

end Visits

lemma Cut.eq_none_iff (h : Cut w rest cut) : cut = .none ↔ rest = [] := by
  cases h <;> simp

theorem checkHealth_aggregates (e : Engine σ) (project stage : String) (criteria : List Criterion)
    (w : World σ) :
    match e.checkHealth project stage criteria w with
    | some (verdict, w') =>
      ∃ visits rest cut, criteria = visits.map Visit.criterion ++ rest ∧
        e.Visits project stage w visits w' ∧ Cut w' rest cut ∧
        (∃ run, e.runChecks project stage criteria w = some (run, w') ∧
          run.contexts = visits.filterMap Visit.context) ∧
        verdict.status.IsWorst (visits.map (·.result.status) ++ cut.toList.map fun _ => .unknown) ∧
        verdict.issues = visits.flatMap (·.result.issues) ++ cut.toList.map Cause.message ∧
        (verdict.output = .none ↔ ∀ visit ∈ visits, visit.result.output = .none) ∧
        (∀ json, verdict.output = some json →
          json = .array ((visits.filterMap (·.result.output)).map Payload.toJson)) ∧
        (verdict.status = .healthy ↔ rest = [] ∧
          ∀ visit ∈ visits, visit.context.isSome = true ∧ visit.result.status = .healthy)
    | .none =>
      ∃ visits c rest w', criteria = visits.map Visit.criterion ++ c :: rest ∧
        e.Visits project stage w visits w' ∧ e.Hangs project stage w' c := by
  cases hrun : e.runChecks project stage criteria w with
  | none =>
    simp only [checkHealth, hrun, Option.map_none]
    exact hangs_of_runChecks hrun
  | some returned =>
    obtain ⟨run, w'⟩ := returned
    simp only [checkHealth, hrun, Option.map_some]
    obtain ⟨visits, rest, cut, hsplit, hvisits, hcut, hcontexts, hresults⟩ := visits_of_runChecks hrun
    have hstatuses : run.results.map (·.status) =
        visits.map (·.result.status) ++ cut.toList.map fun _ => .unknown := by
      simp [hresults, CheckResult.unknown, Function.comp_def]
    have hworst := HealthState.mergeAll_isWorst (run.results.map (·.status))
    rw [hstatuses] at hworst
    have houtputs : run.results.filterMap (·.output) = visits.filterMap (·.result.output) := by
      have hsilent : (cut.toList.map (CheckResult.unknown ·.message)).filterMap (·.output) = [] := by
        cases cut <;> rfl
      rw [hresults, List.filterMap_append, hsilent, List.append_nil, List.filterMap_map]
      rfl
    refine ⟨visits, rest, cut, hsplit, hvisits, hcut, ⟨run, rfl, hcontexts⟩, ?_, ?_, ?_, ?_, ?_⟩
    · rw [HealthVerdict.ofResults, hstatuses]
      exact hworst
    · cases cut <;> simp [HealthVerdict.ofResults, hresults, CheckResult.unknown, List.flatMap_map]
    · simp [HealthVerdict.ofResults, houtputs, List.filterMap_eq_nil_iff]
    · intro json hjson
      simp only [HealthVerdict.ofResults, houtputs, Option.ite_none_left_eq_some,
        Option.some.injEq] at hjson
      exact hjson.2.symm
    · rw [HealthVerdict.ofResults, hstatuses, hworst.eq_healthy_iff]
      constructor
      · intro hall
        have hnone : cut = .none := by
          cases cut with
          | none => rfl
          | some cause => simpa using hall .unknown (by simp)
        refine ⟨hcut.eq_none_iff.mp hnone, ?_⟩
        intro visit hv
        have hs := hall _ (List.mem_append_left _ (List.mem_map_of_mem hv))
        exact ⟨hvisits.healthy hv hs, hs⟩
      · rintro ⟨hrest, hall⟩ t ht
        rw [hcut.eq_none_iff.mpr hrest] at ht
        obtain ⟨visit, hv, rfl⟩ : ∃ visit ∈ visits, visit.result.status = t := by simpa using ht
        exact (hall visit hv).2

end Engine
end Delivery
