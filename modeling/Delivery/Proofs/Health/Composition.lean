import Delivery.Proofs.Health.Aggregate
import Mathlib.Data.List.Perm.Basic

/-! Verdicts of lists of criteria, put together and reordered. As long as the signal is not cancelled and every
check is decided by its context, what each criterion comes to does not depend on the criteria around it. -/

namespace Delivery

variable {σ : Type}

lemma forall₂_append_left_iff {α β : Type} {R : α → β → Prop} {a b : List α} {l : List β} :
    List.Forall₂ R (a ++ b) l ↔ ∃ l₁ l₂, List.Forall₂ R a l₁ ∧ List.Forall₂ R b l₂ ∧ l = l₁ ++ l₂ := by
  constructor
  · intro h
    induction a generalizing l with
    | nil => exact ⟨[], l, .nil, h, rfl⟩
    | cons x rest ih =>
      cases h with
      | @cons _ y _ l hxy hrest =>
        obtain ⟨l₁, l₂, h₁, h₂, rfl⟩ := ih hrest
        exact ⟨y :: l₁, l₂, .cons hxy h₁, h₂, rfl⟩
  · rintro ⟨l₁, l₂, h₁, h₂, rfl⟩
    exact List.rel_append h₁ h₂

namespace HealthState

lemma merge_assoc (a b c : HealthState) : (a.merge b).merge c = a.merge (b.merge c) := by
  cases a <;> cases b <;> cases c <;> rfl

lemma merge_right_comm (a b c : HealthState) : (a.merge b).merge c = (a.merge c).merge b := by
  cases a <;> cases b <;> cases c <;> rfl

lemma healthy_merge (a : HealthState) : healthy.merge a = a := by cases a <;> rfl

lemma foldl_merge (states : List HealthState) (s : HealthState) :
    states.foldl merge s = s.merge (mergeAll states) := by
  induction states generalizing s with
  | nil => cases s <;> rfl
  | cons a rest ih => rw [mergeAll, List.foldl_cons, List.foldl_cons, ih, ih, merge_assoc, healthy_merge]

lemma mergeAll_append (a b : List HealthState) : mergeAll (a ++ b) = (mergeAll a).merge (mergeAll b) := by
  rw [mergeAll, List.foldl_append, foldl_merge]
  rfl

lemma mergeAll_perm {a b : List HealthState} (h : a.Perm b) : mergeAll a = mergeAll b :=
  h.foldl_eq' (fun x _ y _ s => merge_right_comm s x y) healthy

lemma merge_isWorst (a b : HealthState) : (a.merge b).IsWorst [a, b] := by
  cases a <;> cases b <;> simp [IsWorst, merge, rank]

lemma IsWorst.eq_merge {a b s : HealthState} (h : s.IsWorst [a, b]) : s = a.merge b := by
  cases a <;> cases b <;> cases s <;> simp_all [IsWorst, merge, rank]

end HealthState

namespace HealthVerdict

def HasOutputs (v : HealthVerdict) (outputs : List Json) : Prop :=
  v.output = if outputs.isEmpty then none else some (.array outputs)

structure Joins (first second v : HealthVerdict) : Prop where
  status : v.status.IsWorst [first.status, second.status]
  issues : v.issues = first.issues ++ second.issues
  outputs : ∃ xs ys, first.HasOutputs xs ∧ second.HasOutputs ys ∧ v.HasOutputs (xs ++ ys)

structure Shuffles (v v' : HealthVerdict) : Prop where
  status : v.status = v'.status
  issues : v.issues.Perm v'.issues
  outputs : ∃ xs ys, v.HasOutputs xs ∧ v'.HasOutputs ys ∧ xs.Perm ys

lemma HasOutputs.unique {v : HealthVerdict} {xs ys : List Json} (hx : v.HasOutputs xs) (hy : v.HasOutputs ys) :
    xs = ys := by
  rw [HasOutputs] at hx hy
  rw [hx] at hy
  cases xs <;> cases ys <;> simp_all

lemma Joins.unique {first second v v' : HealthVerdict} (h : first.Joins second v)
    (h' : first.Joins second v') : v = v' := by
  obtain ⟨xs, ys, hxs, hys, hv⟩ := h.outputs
  obtain ⟨xs', ys', hxs', hys', hv'⟩ := h'.outputs
  obtain rfl := hxs.unique hxs'
  obtain rfl := hys.unique hys'
  have hstatus : v.status = v'.status := h.status.eq_merge.trans h'.status.eq_merge.symm
  have hissues : v.issues = v'.issues := h.issues.trans h'.issues.symm
  have houtput : v.output = v'.output := hv.trans hv'.symm
  cases v
  cases v'
  simp_all

lemma ofResults_hasOutputs (results : List CheckResult) :
    (ofResults results).HasOutputs ((results.filterMap (·.output)).map Payload.toJson) := by
  simp [HasOutputs, ofResults]

lemma ofResults_append (first second : List CheckResult) :
    (ofResults first).Joins (ofResults second) (ofResults (first ++ second)) where
  status := by
    simp only [ofResults, List.map_append, HealthState.mergeAll_append]
    exact HealthState.merge_isWorst _ _
  issues := List.flatMap_append
  outputs := by
    refine ⟨_, _, ofResults_hasOutputs first, ofResults_hasOutputs second, ?_⟩
    rw [← List.map_append, ← List.filterMap_append]
    exact ofResults_hasOutputs _

lemma ofResults_perm {results results' : List CheckResult} (h : results.Perm results') :
    (ofResults results).Shuffles (ofResults results') where
  status := HealthState.mergeAll_perm (h.map _)
  issues := h.flatMap_right _
  outputs := ⟨_, _, ofResults_hasOutputs results, ofResults_hasOutputs results', (h.filterMap _).map _⟩

end HealthVerdict

namespace Engine

variable (e : Engine σ) (project stage : String)

/-- Calls of a checker in one context end alike, in whatever worlds, as long as nobody cancels the signal. -/
def DecidesByContext : Prop :=
  ∀ {kind : String} {checker : Checker σ} {permissions : Permissions},
    e.registry.healthChecker kind = some (checker, permissions) →
    ∀ (context : CheckContext σ) (w w' : World σ),
      ((checker.check context).run none w).2.signal.cause = none →
      ((checker.check context).run none w').2.signal.cause = none →
      ((checker.check context).run none w).1 = ((checker.check context).run none w').1

/-- No checker cancels a signal that is idle. -/
def LeavesIdle : Prop :=
  ∀ {kind : String} {checker : Checker σ} {permissions : Permissions},
    e.registry.healthChecker kind = some (checker, permissions) →
    ∀ (context : CheckContext σ) (w : World σ), w.signal = .idle →
      ((checker.check context).run none w).2.signal = .idle

/-- Nobody cancels the signal while the criteria are checked. A cause that is there once stays to the end. -/
def Uncanceled (criteria : List Criterion) (w : World σ) : Prop :=
  ∀ verdict w', e.checkHealth project stage criteria w = some (verdict, w') → w'.signal.cause = none

def verdict? (criteria : List Criterion) (w : World σ) : Option HealthVerdict :=
  (e.checkHealth project stage criteria w).map Prod.fst

inductive ComesTo (c : Criterion) : CheckResult → Prop
  | unknown (hkind : e.registry.healthChecker c.kind = none) : ComesTo c (.unknown (noChecker c.kind))
  | checked {checker : Checker σ} {permissions : Permissions} {w w' : World σ} {result : CheckResult}
      (hkind : e.registry.healthChecker c.kind = some (checker, permissions))
      (hrun : (checker.check (e.checkContext project stage c permissions)).run none w = (.answered result, w'))
      (hidle : w'.signal.cause = none) : ComesTo c result

variable {e : Engine σ} {project stage : String} {criteria : List Criterion} {c : Criterion} {w w' : World σ}

lemma ComesTo.unique (he : e.DecidesByContext) {r r' : CheckResult} (h : e.ComesTo project stage c r)
    (h' : e.ComesTo project stage c r') : r = r' := by
  cases h with
  | unknown hkind =>
    cases h' with
    | unknown _ => rfl
    | checked hkind' _ _ => cases hkind.symm.trans hkind'
  | checked hkind hrun hidle =>
    cases h' with
    | unknown hkind' => cases hkind.symm.trans hkind'
    | checked hkind' hrun' hidle' =>
      cases hkind.symm.trans hkind'
      have halike := he hkind _ _ _ (by rw [hrun]; exact hidle) (by rw [hrun']; exact hidle')
      rw [hrun, hrun'] at halike
      cases halike
      rfl

lemma Hangs.not_comesTo (he : e.DecidesByContext) (h : e.Hangs project stage w c) (r : CheckResult) :
    ¬ e.ComesTo project stage c r := by
  obtain ⟨_, checker, permissions, w₁, hkind, hstuck⟩ := h
  intro hr
  cases hr with
  | unknown hkind' => cases hkind.symm.trans hkind'
  | checked hkind' hrun hidle =>
    cases hkind.symm.trans hkind'
    have halike := he hkind _ _ _ (by rw [hstuck]; exact Behaviour.idle_of_run_stuck hstuck)
      (by rw [hrun]; exact hidle)
    rw [hstuck, hrun] at halike
    cases halike

lemma Visits.idle {visits : List (Visit σ)} (h : e.Visits project stage w visits w')
    (hidle : w'.signal.cause = .none) : w.signal.cause = .none := by
  cases h with
  | none => exact hidle
  | unknown hw => exact hw
  | checked hw => exact hw

lemma Visits.comesTo {visits : List (Visit σ)} (h : e.Visits project stage w visits w')
    (hidle : w'.signal.cause = .none) :
    List.Forall₂ (e.ComesTo project stage) (visits.map Visit.criterion) (visits.map Visit.result) := by
  induction h with
  | none => exact .nil
  | unknown _ hkind _ ih => exact .cons (.unknown hkind) (ih hidle)
  | checked _ hkind hrun hrest ih => exact .cons (.checked hkind hrun (hrest.idle hidle)) (ih hidle)

lemma verdict?_eq_some_iff (he : e.DecidesByContext) (hw : e.Uncanceled project stage criteria w)
    {v : HealthVerdict} : e.verdict? project stage criteria w = some v ↔
      ∃ results, List.Forall₂ (e.ComesTo project stage) criteria results ∧ v = .ofResults results := by
  cases hrun : e.runChecks project stage criteria w with
  | none =>
    obtain ⟨visits, c, rest, w', hsplit, _, hhangs⟩ := hangs_of_runChecks hrun
    simp only [verdict?, checkHealth, hrun, Option.map_none, reduceCtorEq, false_iff]
    rintro ⟨results, hresults, _⟩
    rw [hsplit] at hresults
    obtain ⟨_, behind, _, hbehind, _⟩ := forall₂_append_left_iff.mp hresults
    cases hbehind with
    | cons hr _ => exact hhangs.not_comesTo he _ hr
  | some returned =>
    obtain ⟨run, w'⟩ := returned
    have hidle : w'.signal.cause = none := hw _ w' (by rw [checkHealth, hrun]; rfl)
    obtain ⟨visits, rest, cut, hsplit, hvisits, hcut, _, hresults⟩ := visits_of_runChecks hrun
    have hcomes : List.Forall₂ (e.ComesTo project stage) criteria run.results := by
      cases hcut with
      | complete =>
        rw [hsplit, hresults]
        simpa using hvisits.comesTo hidle
      | canceled hc => cases hc.symm.trans hidle
    simp only [verdict?, checkHealth, hrun, Option.map_some, Option.some.injEq]
    constructor
    · rintro rfl
      exact ⟨run.results, hcomes, rfl⟩
    · rintro ⟨results, hothers, rfl⟩
      have hunique : Relator.RightUnique (e.ComesTo project stage) := fun _ _ _ h h' => h.unique he h'
      rw [List.right_unique_forall₂' hunique hcomes hothers]

lemma Visits.signal_idle {visits : List (Visit σ)} (he : e.LeavesIdle)
    (h : e.Visits project stage w visits w') (hw : w.signal = .idle) : w'.signal = .idle := by
  induction h with
  | none => exact hw
  | unknown _ _ _ ih => exact ih hw
  | @checked w w₁ _ c checker permissions _ _ _ hkind hrun _ ih =>
    apply ih
    have hsignal := he hkind (e.checkContext project stage c permissions) w hw
    rwa [hrun] at hsignal

lemma LeavesIdle.uncanceled (he : e.LeavesIdle) (hw : w.signal = .idle) :
    e.Uncanceled project stage criteria w := by
  intro verdict w' h
  cases hrun : e.runChecks project stage criteria w with
  | none => simp [checkHealth, hrun] at h
  | some returned =>
    obtain ⟨run, w₁⟩ := returned
    obtain ⟨visits, _, _, _, hvisits, _⟩ := visits_of_runChecks hrun
    rw [checkHealth, hrun] at h
    cases h
    rw [hvisits.signal_idle he hw]
    rfl

theorem checkHealth_composes (he : e.DecidesByContext) :
    (∀ a b w w₁ w₂, e.Uncanceled project stage (a ++ b) w → e.Uncanceled project stage a w₁ →
      e.Uncanceled project stage b w₂ → ∀ v, e.verdict? project stage (a ++ b) w = some v ↔
        ∃ first second, e.verdict? project stage a w₁ = some first ∧
          e.verdict? project stage b w₂ = some second ∧ first.Joins second v) ∧
    (∀ few many w w', few.Sublist many → e.Uncanceled project stage few w →
      e.Uncanceled project stage many w' → ∀ v', e.verdict? project stage many w' = some v' →
        ∃ v, e.verdict? project stage few w = some v ∧ v.status.rank ≤ v'.status.rank) ∧
    ∀ a b w w', a.Perm b → e.Uncanceled project stage a w → e.Uncanceled project stage b w' →
      ∀ v, e.verdict? project stage a w = some v →
        ∃ v', e.verdict? project stage b w' = some v' ∧ v.Shuffles v' := by
  refine ⟨?_, ?_, ?_⟩
  · intro a b w w₁ w₂ hw hw₁ hw₂ v
    rw [verdict?_eq_some_iff he hw]
    constructor
    · rintro ⟨results, hresults, rfl⟩
      obtain ⟨first, second, hfirst, hsecond, rfl⟩ := forall₂_append_left_iff.mp hresults
      exact ⟨_, _, (verdict?_eq_some_iff he hw₁).mpr ⟨first, hfirst, rfl⟩,
        (verdict?_eq_some_iff he hw₂).mpr ⟨second, hsecond, rfl⟩, HealthVerdict.ofResults_append first second⟩
    · rintro ⟨v₁, v₂, hv₁, hv₂, hjoins⟩
      obtain ⟨first, hfirst, rfl⟩ := (verdict?_eq_some_iff he hw₁).mp hv₁
      obtain ⟨second, hsecond, rfl⟩ := (verdict?_eq_some_iff he hw₂).mp hv₂
      exact ⟨first ++ second, forall₂_append_left_iff.mpr ⟨first, second, hfirst, hsecond, rfl⟩,
        hjoins.unique (HealthVerdict.ofResults_append first second)⟩
  · intro few many w w' hsub hw hw' v' hv'
    obtain ⟨extra, hperm⟩ := hsub.exists_perm_append
    obtain ⟨results, hresults, rfl⟩ := (verdict?_eq_some_iff he hw').mp hv'
    obtain ⟨sorted, hsorted, hshuffle⟩ := List.perm_comp_forall₂ hperm.symm hresults
    obtain ⟨first, second, hfirst, hsecond, rfl⟩ := forall₂_append_left_iff.mp hsorted
    refine ⟨_, (verdict?_eq_some_iff he hw).mpr ⟨first, hfirst, rfl⟩, ?_⟩
    rw [← (HealthVerdict.ofResults_perm hshuffle).status]
    exact (HealthVerdict.ofResults_append first second).status.1 _ List.mem_cons_self
  · intro a b w w' hperm hw hw' v hv
    obtain ⟨results, hresults, rfl⟩ := (verdict?_eq_some_iff he hw).mp hv
    obtain ⟨results', hresults', hshuffle⟩ := List.perm_comp_forall₂ hperm.symm hresults
    exact ⟨_, (verdict?_eq_some_iff he hw').mpr ⟨results', hresults', rfl⟩,
      HealthVerdict.ofResults_perm hshuffle.symm⟩

end Engine

/-! ### Checks of rollouts, one of a kind without a checker among them -/

namespace Rollout

def checker : Checker Nat where
  check context := .sleep ⟨5⟩ (.fetch fun calls => .store (calls + 1) (.answer
    (if context.config.contains "paused" then { status := .progressing, issues := ["rollout is paused"] }
      else { status := .healthy, output := some context.config })))

def engine : Engine Nat where
  registry := Registry.empty.register "rollout" { runner := { check := some checker } }
  workDirRoot := ⟨"/tmp"⟩

def running : Criterion where
  kind := "rollout"
  config := ({} : Payload).insert "app" (.string "web")

def paused : Criterion where
  kind := "rollout"
  config := ({} : Payload).insert "paused" (.bool true)

def canary : Criterion := { kind := "canary" }

def world (time calls : Nat) : World Nat := ⟨time, .idle, calls, default, fun _ => ⟨0, 0⟩, 0⟩

lemma healthChecker_eq {kind : String} {c : Checker Nat} {permissions : Permissions}
    (h : engine.registry.healthChecker kind = some (c, permissions)) : c = checker := by
  simp only [engine, Registry.healthChecker, Registry.lookup_register] at h
  by_cases hk : kind = "rollout"
  · simp_all [Registration.narrow]
  · simp_all [Registry.lookup, Registry.empty]

lemma decidesByContext : engine.DecidesByContext := by
  intro kind c permissions hkind context w w' _ _
  obtain rfl := healthChecker_eq hkind
  rfl

lemma leavesIdle : engine.LeavesIdle := by
  intro kind c permissions hkind context w hw
  obtain rfl := healthChecker_eq hkind
  have hadvance : ((checker.check context).run none w).2.signal = w.signal.advance (w.time + 5) := rfl
  rw [hadvance, hw]
  rfl

lemma uncanceled (criteria : List Criterion) (time calls : Nat) :
    engine.Uncanceled "payments" "prod" criteria (world time calls) :=
  leavesIdle.uncanceled rfl

end Rollout

namespace Engine
open Rollout

theorem checkHealth_composes_rollout :
    (∃ first second v, engine.verdict? "payments" "prod" [running, paused] (world 0 0) = some first ∧
      engine.verdict? "payments" "prod" [canary, running] (world 9 4) = some second ∧
      engine.verdict? "payments" "prod" [running, paused, canary, running] (world 0 0) = some v ∧
      first.Joins second v ∧ v.status = .unknown) ∧
    (∃ v v', engine.verdict? "payments" "prod" [running, running] (world 0 0) = some v ∧
      engine.verdict? "payments" "prod" [running, paused, canary, running] (world 0 0) = some v' ∧
      v.status.rank ≤ v'.status.rank) ∧
    ∃ v v', engine.verdict? "payments" "prod" [running, paused, canary] (world 0 0) = some v ∧
      engine.verdict? "payments" "prod" [canary, paused, running] (world 9 4) = some v' ∧ v.Shuffles v' := by
  obtain ⟨happend, hadd, hperm⟩ :=
    @checkHealth_composes Nat engine "payments" "prod" decidesByContext
  obtain ⟨v, hv, hstatus⟩ : ∃ v, engine.verdict? "payments" "prod" [running, paused, canary, running]
      (world 0 0) = some v ∧ v.status = .unknown := ⟨_, rfl, rfl⟩
  refine ⟨?_, ?_, ?_⟩
  · obtain ⟨first, second, hfirst, hsecond, hjoins⟩ := (happend [running, paused] [canary, running] _ _ _
      (uncanceled _ 0 0) (uncanceled _ 0 0) (uncanceled _ 9 4) v).mp hv
    exact ⟨first, second, v, hfirst, hsecond, hv, hjoins, hstatus⟩
  · have hsub : [running, running].Sublist [running, paused, canary, running] :=
      (.cons_cons _ (.cons _ (.cons _ (.refl _))))
    obtain ⟨w, hw, hrank⟩ := hadd _ _ _ _ hsub (uncanceled _ 0 0) (uncanceled _ 0 0) v hv
    exact ⟨w, v, hw, hv, hrank⟩
  · have hswap : [running, paused, canary].Perm [canary, paused, running] := (List.reverse_perm _).symm
    obtain ⟨u, hu⟩ : ∃ u, engine.verdict? "payments" "prod" [running, paused, canary] (world 0 0) = some u :=
      ⟨_, rfl⟩
    obtain ⟨u', hu', hshuffles⟩ := hperm _ _ _ _ hswap (uncanceled _ 0 0) (uncanceled _ 9 4) u hu
    exact ⟨u, u', hu, hu', hshuffles⟩

end Engine
end Delivery
