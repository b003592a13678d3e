import Delivery.Proofs.Promotion.Problems
import Mathlib.Data.List.DropRight

/-! What is found to be wrong with a list of steps. Each step is judged by its kind, by its own name and by the names
that were given to the steps before it; the names that are made from indices play no part. -/

namespace Delivery

namespace Text

def trim (s : String) : List Char := (s.toList.dropWhile isBlank).rdropWhile isBlank

lemma trim_eq_nil_iff (s : String) : trim s = [] ↔ allBlank s = true := by
  rw [trim, List.rdropWhile_eq_nil_iff, ← List.dropWhile_eq_nil_iff, List.dropWhile_idempotent,
    List.dropWhile_eq_nil_iff, allBlank, List.all_eq_true]

end Text

namespace StepProblem

def diagnose (earlier : List Step) (step : Step) (index : Nat) : List StepProblem :=
  (if Text.trim step.kind = [] then [.emptyKind index] else []) ++
    match step.explicitAlias with
    | none => []
    | some name =>
      if Alias.isReserved name then [.reservedAlias index name]
      else if some name ∈ earlier.map Step.explicitAlias then [.repeatedAlias index name]
      else []

/-- The aliases that are remembered after some steps: of the names that are not reserved, those that were given; of
those that are made from an index, none of a later step. -/
structure Remembers (earlier : List Step) (seen : List String) : Prop where
  given : ∀ name, Alias.isReserved name = false → (name ∈ seen ↔ some name ∈ earlier.map Step.explicitAlias)
  made : ∀ index, Alias.byIndex index ∈ seen → index < earlier.length

variable {earlier steps : List Step} {seen : List String} {s : Step} {index : Nat} {name : String}

lemma remembers_nil : Remembers [] [] where
  given _ _ := by simp
  made _ h := absurd h List.not_mem_nil

lemma reservedAlias?_of_none (h : s.explicitAlias = none) : reservedAlias? s = none := by
  rw [reservedAlias?, h]
  rfl

lemma reservedAlias?_of_some (h : s.explicitAlias = some name) :
    reservedAlias? s = if Alias.isReserved name then some name else none := by
  rw [reservedAlias?, h, Option.filter_some]

lemma not_isReserved_byIndex (h : Alias.isReserved name = false) (index : Nat) : name ≠ Alias.byIndex index := by
  rintro rfl
  cases h.symm.trans (Alias.isReserved_byIndex index)

lemma Remembers.step (h : Remembers earlier seen) (step : Step) :
    Remembers (earlier ++ [step]) (remember seen step earlier.length) := by
  cases hgiven : step.explicitAlias with
  | none =>
    rw [remember, reservedAlias?_of_none hgiven, Step.aliasAt_of_none hgiven]
    constructor
    · intro name hname
      simpa [hgiven, not_isReserved_byIndex hname] using h.given name hname
    · intro index hmade
      rw [List.length_append]
      rcases List.mem_cons.mp hmade with hlast | hmade
      · have := Alias.byIndex_injective hlast
        simp [this]
      · exact Nat.lt_add_right _ (h.made index hmade)
  | some given =>
    rw [remember, reservedAlias?_of_some hgiven]
    by_cases hreserved : Alias.isReserved given = true
    · rw [if_pos hreserved]
      constructor
      · intro name hname
        have hne : name ≠ given := by
          rintro rfl
          cases hname.symm.trans hreserved
        simpa [hgiven, hne] using h.given name hname
      · intro index hmade
        rw [List.length_append]
        exact Nat.lt_add_right _ (h.made index hmade)
    · rw [if_neg hreserved, Step.aliasAt_of_some hgiven]
      constructor
      · intro name hname
        simp only [Option.isSome_none, Bool.false_eq_true, ↓reduceIte, List.mem_cons, List.map_append, List.map_cons,
          List.map_nil, List.mem_append, hgiven, Option.some.injEq, List.not_mem_nil, or_false]
        rw [h.given name hname]
        exact or_comm
      · intro index hmade
        rw [List.length_append]
        rcases List.mem_cons.mp hmade with rfl | hmade
        · exact absurd (Alias.isReserved_byIndex index) hreserved
        · exact Nat.lt_add_right _ (h.made index hmade)

lemma Remembers.diagnose_eq (h : Remembers earlier seen) (step : Step) :
    ofKind step earlier.length ++ ofAlias seen step earlier.length = diagnose earlier step earlier.length := by
  rw [diagnose, ofKind]
  congr 1
  · exact if_congr (Text.trim_eq_nil_iff step.kind).symm rfl rfl
  · cases hgiven : step.explicitAlias with
    | none =>
      have hfresh : Alias.byIndex earlier.length ∉ seen := fun hmade => Nat.lt_irrefl _ (h.made _ hmade)
      rw [ofAlias, reservedAlias?_of_none hgiven, Step.aliasAt_of_none hgiven]
      exact if_neg hfresh
    | some name =>
      rw [ofAlias, reservedAlias?_of_some hgiven, Step.aliasAt_of_some hgiven]
      by_cases hreserved : Alias.isReserved name = true
      · simp only [hreserved, ↓reduceIte]
      · simp only [hreserved, Bool.false_eq_true, ↓reduceIte, h.given name (by simpa using hreserved)]

lemma Remembers.ofStepsFrom_eq (h : Remembers earlier seen) (steps : List Step) :
    ofStepsFrom earlier.length seen steps = (steps.zipIdx earlier.length).flatMap fun (step, index) =>
      diagnose ((earlier ++ steps).take index) step index := by
  induction steps generalizing earlier seen with
  | nil => rfl
  | cons step rest ih =>
    have hrest := ih (h.step step)
    rw [List.length_append, List.length_singleton, List.append_assoc, List.singleton_append] at hrest
    rw [ofStepsFrom, h.diagnose_eq step, hrest, List.zipIdx_cons, List.flatMap_cons]
    dsimp only
    rw [List.take_left]

lemma ofSteps_eq (steps : List Step) : ofSteps steps = steps.zipIdx.flatMap fun (step, index) =>
    diagnose (steps.take index) step index :=
  remembers_nil.ofStepsFrom_eq steps

lemma explicitAlias_of_repeatedAlias (h : .repeatedAlias index name ∈ ofSteps steps) :
    ∃ step, steps[index]? = some step ∧ step.explicitAlias = some name := by
  rw [ofSteps_eq, List.mem_flatMap] at h
  obtain ⟨⟨step, k⟩, hstep, hmem⟩ := h
  rcases List.mem_append.mp hmem with hkind | halias
  · split at hkind <;> simp at hkind
  · split at halias
    · cases halias
    · next given hgiven =>
      split at halias
      · simp at halias
      · split at halias
        · obtain ⟨rfl, rfl⟩ : index = k ∧ name = given := by simpa using halias
          exact ⟨step, List.mem_zipIdx_iff_getElem?.mp hstep, hgiven⟩
        · cases halias

lemma sound_iff (s : Step) : s.Sound ↔
    Text.trim s.kind ≠ [] ∧ ∀ name, s.explicitAlias = some name → Alias.isReserved name = false := by
  rw [Step.Sound, ne_eq, Text.trim_eq_nil_iff, Bool.not_eq_true]
  refine and_congr_right' ?_
  cases hgiven : s.explicitAlias with
  | none => simp [reservedAlias?_of_none hgiven]
  | some name => simp [reservedAlias?_of_some hgiven]

theorem ofSteps_diagnosed (steps : List Step) :
    ofSteps steps = steps.zipIdx.flatMap (fun (step, index) => diagnose (steps.take index) step index) ∧
    (∀ index step, steps[index]? = some step → step.explicitAlias = none →
      ∀ name, .repeatedAlias index name ∉ ofSteps steps) ∧
    (∀ i j, i ≠ j → Alias.byIndex i ≠ Alias.byIndex j) ∧
    (∀ i name, Alias.isReserved name = false → name ≠ Alias.byIndex i) ∧
    (ofSteps steps = [] ↔ (Step.aliases steps).Nodup ∧ ∀ step ∈ steps, Text.trim step.kind ≠ [] ∧
      ∀ name, step.explicitAlias = some name → Alias.isReserved name = false) := by
  refine ⟨ofSteps_eq steps, ?_, fun i j => Alias.byIndex_injective.ne, fun i name h => not_isReserved_byIndex h i, ?_⟩
  · intro index step hstep hnone name hmem
    obtain ⟨other, hother, hgiven⟩ := explicitAlias_of_repeatedAlias hmem
    obtain rfl := Option.some.inj (hstep.symm.trans hother)
    cases hnone.symm.trans hgiven
  · rw [ofSteps, ofStepsFrom_eq_nil, and_comm]
    refine and_congr (and_iff_left fun _ _ => List.not_mem_nil) (forall₂_congr fun step _ => sound_iff step)

-- The digit is an Arabic one.
example : (ofSteps [{ kind := " ", givenAlias := some "vars" }, { kind := "merge", givenAlias := some "vars" },
    { kind := "merge", givenAlias := some "task-٣" }]).map message =
      ["step 0 has an empty kind", "step 1 alias 'vars' is not unique",
        "step 2 alias 'task-٣' matches the reserved pattern ^(step|task)-\\d+$"] := by
  decide +kernel

end StepProblem
end Delivery
