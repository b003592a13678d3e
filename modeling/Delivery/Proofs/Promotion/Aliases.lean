import Delivery.Promotion.Alias
import Mathlib.Data.List.Nodup

/-! The aliases of a list of steps. A list without problems has no two steps of one alias. -/

namespace Delivery
namespace Step

def aliasesFrom (index : Nat) : List Step → List String
  | [] => []
  | step :: rest => step.aliasAt index :: aliasesFrom (index + 1) rest

def aliases (steps : List Step) : List String := aliasesFrom 0 steps

lemma aliasesFrom_getElem? (index : Nat) (steps : List Step) (j : Nat) :
    (aliasesFrom index steps)[j]? = steps[j]?.map (·.aliasAt (index + j)) := by
  induction steps generalizing index j with
  | nil => simp [aliasesFrom]
  | cons step rest ih =>
    cases j with
    | zero => simp [aliasesFrom]
    | succ j =>
      rw [aliasesFrom, List.getElem?_cons_succ, ih, List.getElem?_cons_succ, Nat.add_right_comm,
        Nat.add_assoc]

lemma aliases_getElem? (steps : List Step) (j : Nat) :
    (aliases steps)[j]? = steps[j]?.map (·.aliasAt j) := by
  rw [aliases, aliasesFrom_getElem?, Nat.zero_add]

lemma aliasesFrom_nodup {index : Nat} {seen : List String} {steps : List Step}
    (h : StepProblem.ofStepsFrom index seen steps = []) :
    (aliasesFrom index steps).Nodup ∧ ∀ name ∈ aliasesFrom index steps, name ∉ seen := by
  induction steps generalizing index seen with
  | nil => simp [aliasesFrom]
  | cons step rest ih =>
    simp only [StepProblem.ofStepsFrom, List.append_eq_nil_iff] at h
    obtain ⟨⟨_, ha⟩, hrest⟩ := h
    have hr : StepProblem.reservedAlias? step = none := by
      cases hr : StepProblem.reservedAlias? step with
      | none => rfl
      | some name => simp [StepProblem.ofAlias, hr] at ha
    have hnew : step.aliasAt index ∉ seen := by
      intro hm
      simp [StepProblem.ofAlias, hr, hm] at ha
    simp only [StepProblem.remember, hr, Option.isSome_none, Bool.false_eq_true, ↓reduceIte] at hrest
    obtain ⟨hnodup, hfresh⟩ := ih hrest
    refine ⟨List.nodup_cons.mpr ⟨fun hm => hfresh _ hm List.mem_cons_self, hnodup⟩, ?_⟩
    intro name hm
    rcases List.mem_cons.mp hm with rfl | hm
    · exact hnew
    · exact fun hs => hfresh name hm (List.mem_cons_of_mem _ hs)

theorem aliases_nodup {steps : List Step} (h : StepProblem.ofSteps steps = []) :
    (aliases steps).Nodup :=
  (aliasesFrom_nodup h).1

end Step
end Delivery
