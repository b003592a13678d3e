import Delivery.Proofs.Json.Reading
import Delivery.Proofs.Promotion.Aliases

/-!
Lists of steps without problems. The names that were given decide: one that is made from an index is reserved, and two
indices make two names.
-/

namespace Delivery

namespace Alias

lemma toList_byIndex (index : Nat) : (byIndex index).toList = "step-".toList ++ Nat.toDigits 10 index := by
  rw [byIndex, String.toList_append, toList_toString]

lemma isReserved_byIndex (index : Nat) : isReserved (byIndex index) = true := by
  have hne : Nat.toDigits 10 index ≠ [] := Nat.toDigits_ne_nil
  have hdigits : ∀ c ∈ Nat.toDigits 10 index, Text.isDecimalDigit c = true := fun c hc =>
    Text.isDecimalDigit_of_isDigit (Nat.isDigit_of_mem_toDigits (by decide) (by decide) hc)
  simpa [isReserved, toList_byIndex, hne] using hdigits

lemma byIndex_injective : Function.Injective byIndex := by
  intro m n h
  have hlist := congrArg String.toList h
  rw [toList_byIndex, toList_byIndex, List.append_cancel_left_eq] at hlist
  simpa using congrArg (Nat.ofDigitChars 10 · 0) hlist

end Alias

namespace Step

variable {steps : List Step} {step : Step} {index : Nat} {name : String}

lemma aliasAt_of_some (h : step.explicitAlias = some name) (index : Nat) : step.aliasAt index = name := by
  rw [aliasAt, h, Option.getD_some]

lemma aliasAt_of_none (h : step.explicitAlias = none) (index : Nat) : step.aliasAt index = Alias.byIndex index := by
  rw [aliasAt, h, Option.getD_none]

lemma mem_aliasesFrom_of_explicit (h : name ∈ steps.filterMap explicitAlias) (index : Nat) :
    name ∈ aliasesFrom index steps := by
  induction steps generalizing index with
  | nil => cases h
  | cons step steps ih =>
    cases hgiven : step.explicitAlias with
    | none =>
      rw [List.filterMap_cons_none hgiven] at h
      exact List.mem_cons_of_mem _ (ih h _)
    | some given =>
      rw [List.filterMap_cons_some hgiven] at h
      rcases List.mem_cons.mp h with rfl | h
      · exact aliasAt_of_some hgiven index ▸ List.mem_cons_self
      · exact List.mem_cons_of_mem _ (ih h _)

lemma aliasesFrom_cases (h : name ∈ aliasesFrom index steps) :
    name ∈ steps.filterMap explicitAlias ∨ ∃ k, index ≤ k ∧ name = Alias.byIndex k := by
  induction steps generalizing index with
  | nil => cases h
  | cons step steps ih =>
    cases hgiven : step.explicitAlias with
    | none =>
      rw [List.filterMap_cons_none hgiven]
      rcases List.mem_cons.mp h with rfl | h
      · exact Or.inr ⟨index, Nat.le_refl _, aliasAt_of_none hgiven index⟩
      · exact (ih h).imp_right fun ⟨k, hk, hname⟩ => ⟨k, by omega, hname⟩
    | some given =>
      rw [List.filterMap_cons_some hgiven, List.mem_cons]
      rcases List.mem_cons.mp h with rfl | h
      · exact Or.inl (Or.inl (aliasAt_of_some hgiven index))
      · exact (ih h).imp Or.inr fun ⟨k, hk, hname⟩ => ⟨k, by omega, hname⟩

/-- No name that was given is mistaken for one that was made from an index. -/
lemma nodup_aliasesFrom_iff (h : ∀ name ∈ steps.filterMap explicitAlias, Alias.isReserved name = false)
    (index : Nat) : (aliasesFrom index steps).Nodup ↔ (steps.filterMap explicitAlias).Nodup := by
  have hmade : ∀ k, Alias.byIndex k ∉ steps.filterMap explicitAlias := fun k hk => by
    cases (h _ hk).symm.trans (Alias.isReserved_byIndex k)
  induction steps generalizing index with
  | nil => exact iff_of_true List.nodup_nil List.nodup_nil
  | cons step steps ih =>
    rw [aliasesFrom, List.nodup_cons]
    cases hgiven : step.explicitAlias with
    | none =>
      rw [List.filterMap_cons_none hgiven] at h hmade ⊢
      rw [aliasAt_of_none hgiven]
      refine (and_congr_right' (ih h (index + 1) hmade)).trans (and_iff_right fun hmem => ?_)
      obtain hmem | ⟨k, hk, hname⟩ := aliasesFrom_cases hmem
      · exact hmade index hmem
      · have := Alias.byIndex_injective hname
        omega
    | some given =>
      rw [List.filterMap_cons_some hgiven] at h hmade ⊢
      rw [aliasAt_of_some hgiven, List.nodup_cons]
      refine and_congr (not_congr ⟨fun hmem => ?_, fun hmem => mem_aliasesFrom_of_explicit hmem _⟩)
        (ih (fun name hname => h name (List.mem_cons_of_mem _ hname)) (index + 1)
          fun k hk => hmade k (List.mem_cons_of_mem _ hk))
      obtain hmem | ⟨k, _, rfl⟩ := aliasesFrom_cases hmem
      · exact hmem
      · exact absurd List.mem_cons_self (hmade k)

end Step

def Step.Sound (s : Step) : Prop := Text.allBlank s.kind = false ∧ StepProblem.reservedAlias? s = none

namespace StepProblem

variable {steps : List Step} {index : Nat} {seen : List String}

lemma ofStepsFrom_eq_nil : ofStepsFrom index seen steps = [] ↔
    (∀ step ∈ steps, step.Sound) ∧
      (Step.aliasesFrom index steps).Nodup ∧ ∀ name ∈ Step.aliasesFrom index steps, name ∉ seen := by
  constructor
  · intro h
    refine ⟨?_, Step.aliasesFrom_nodup h⟩
    induction steps generalizing index seen with
    | nil => exact List.forall_mem_nil _
    | cons step steps ih =>
      simp only [ofStepsFrom, List.append_eq_nil_iff] at h
      obtain ⟨⟨hkind, halias⟩, hrest⟩ := h
      refine List.forall_mem_cons.mpr ⟨⟨?_, ?_⟩, ih hrest⟩
      · by_contra hblank
        simp [ofKind, hblank] at hkind
      · cases hreserved : reservedAlias? step with
        | none => rfl
        | some name => simp [ofAlias, hreserved] at halias
  · rintro ⟨hsteps, hnodup, hseen⟩
    induction steps generalizing index seen with
    | nil => rfl
    | cons step steps ih =>
      obtain ⟨⟨hkind, hreserved⟩, hsteps⟩ := List.forall_mem_cons.mp hsteps
      obtain ⟨hnew, hnodup⟩ := List.nodup_cons.mp hnodup
      obtain ⟨hunseen, hseen⟩ := List.forall_mem_cons.mp hseen
      have hrest : ofStepsFrom (index + 1) (step.aliasAt index :: seen) steps = [] := by
        refine ih hsteps hnodup fun name hname => ?_
        rw [List.mem_cons, not_or]
        exact ⟨fun heq => hnew (heq ▸ hname), hseen name hname⟩
      simp [ofStepsFrom, ofKind, hkind, ofAlias, hreserved, hunseen, remember, hrest]

/-- A list is free of problems if every kind says something and the names that were given are neither reserved nor
given twice. -/
lemma ofSteps_eq_nil : ofSteps steps = [] ↔
    (∀ step ∈ steps, step.Sound) ∧
      (steps.filterMap Step.explicitAlias).Nodup := by
  rw [ofSteps, ofStepsFrom_eq_nil]
  refine and_congr_right fun hsteps => ?_
  rw [and_iff_left fun _ _ => List.not_mem_nil]
  refine Step.nodup_aliasesFrom_iff (fun name hname => ?_) 0
  obtain ⟨step, hstep, hgiven⟩ := List.mem_filterMap.mp hname
  have hreserved := (hsteps step hstep).2
  rw [reservedAlias?, hgiven, Option.filter_some] at hreserved
  by_contra hcontra
  simp [hcontra] at hreserved

end StepProblem

end Delivery
