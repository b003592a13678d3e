import Delivery.ComposeOutput
import Delivery.Proofs.Privilege
import Delivery.Proofs.Promotion.Problems

/-! What a resumed promotion depends on. Of the steps before the start of a call only the aliases count: their kinds
are not looked up, and neither their configurations nor their retry policies are read. -/

namespace Delivery

namespace Step

/-- Two lists of one length with the same steps from an index on. Before it they have the same aliases, where an
empty one is none, and kinds that say something. -/
structure SameFrom (start : Nat) (steps other : List Step) : Prop where
  length_eq : other.length = steps.length
  behind : other.drop start = steps.drop start
  aliases : (other.take start).map explicitAlias = (steps.take start).map explicitAlias
  kinds : ∀ step ∈ steps.take start ++ other.take start, Text.allBlank step.kind = false

def judged (s : Step) : Bool × Option String := (Text.allBlank s.kind, s.explicitAlias)

variable {start : Nat} {steps other : List Step}

lemma SameFrom.symm (h : SameFrom start steps other) : SameFrom start other steps where
  length_eq := h.length_eq.symm
  behind := h.behind.symm
  aliases := h.aliases.symm
  kinds step hstep := h.kinds step (List.mem_append.mpr (List.mem_append.mp hstep).symm)

lemma map_judged_of_kinds (h : ∀ step ∈ steps, Text.allBlank step.kind = false) :
    steps.map judged = (steps.map explicitAlias).map fun given => (false, given) := by
  rw [List.map_map]
  apply List.map_congr_left
  intro step hstep
  rw [judged, h step hstep]
  rfl

lemma SameFrom.map_judged (h : SameFrom start steps other) : other.map judged = steps.map judged := by
  rw [← List.take_append_drop start other, ← List.take_append_drop start steps, List.map_append, List.map_append,
    h.behind, map_judged_of_kinds fun step hstep => h.kinds step (List.mem_append_left _ hstep),
    map_judged_of_kinds fun step hstep => h.kinds step (List.mem_append_right _ hstep), h.aliases]

lemma SameFrom.aliases_eq (h : SameFrom start steps other) : Step.aliases other = Step.aliases steps := by
  apply List.ext_getElem?
  intro j
  have hj := congrArg (fun l => (l[j]?).map fun given => given.2.getD (Alias.byIndex j)) h.map_judged
  simp only [List.getElem?_map, Option.map_map] at hj
  rw [aliases_getElem?, aliases_getElem?]
  exact hj

end Step

lemma StepProblem.ofStepsFrom_congr {steps other : List Step} (h : other.map Step.judged = steps.map Step.judged)
    (index : Nat) (seen : List String) : ofStepsFrom index seen other = ofStepsFrom index seen steps := by
  induction steps generalizing other index seen with
  | nil => rw [List.map_eq_nil_iff.mp h]
  | cons step rest ih =>
    obtain ⟨step', rest', rfl, hstep, hrest⟩ := List.map_eq_cons_iff.mp h
    obtain ⟨hkind, halias⟩ := Prod.mk.inj hstep
    have hreserved : reservedAlias? step' = reservedAlias? step := by rw [reservedAlias?, halias, reservedAlias?]
    have hname : step'.aliasAt index = step.aliasAt index := by rw [Step.aliasAt, halias, Step.aliasAt]
    have hremember : remember seen step' index = remember seen step index := by
      rw [remember, hreserved, hname, remember]
    rw [ofStepsFrom, ofStepsFrom, ofKind, hkind, ofAlias, hreserved, hname, hremember, ih hrest]
    rfl

lemma StepRecord.normalize_congr {steps other : List Step} (h : Step.aliases other = Step.aliases steps)
    (previous : List StepRecord) : normalize previous other = normalize previous steps := by
  apply List.ext_getElem?
  intro j
  have hj := congrArg (fun l => (l[j]?).map (carry previous[j]?)) h
  simp only [Step.aliases_getElem?, Option.map_map] at hj
  rw [normalize_getElem?, normalize_getElem?]
  exact hj

lemma PromotionRequest.remaining_congr {request : PromotionRequest} {steps other : List Step}
    (h : Step.SameFrom request.startFromStep steps other) : request.remaining other = request.remaining steps := by
  apply List.ext_getElem?
  intro j
  have hstep := congrArg (·[j]?) h.behind
  simp only [List.getElem?_drop] at hstep
  rw [remaining_getElem?, remaining_getElem?, hstep]

variable {σ : Type}

namespace Engine

def withRegistry (e : Engine σ) (registry : Registry σ) : Engine σ := { e with registry }

variable {e : Engine σ} {registry : Registry σ} {request : PromotionRequest} {steps other : List Step} {dir : String}
  {w w₀ w' : World σ} {p q : Place σ} {done : List (Attempt σ)} {left : List (Assignment σ)} {i : Invocation σ}

lemma workDir_withRegistry (e : Engine σ) (registry : Registry σ) (w : World σ) :
    (e.withRegistry registry).workDir request w = e.workDir request w := by
  simp only [workDir, withRegistry]

lemma walk_withRegistry (e : Engine σ) (registry : Registry σ) (index : Nat) (state : Payload)
    (left : List (Assignment σ)) (w : World σ) :
    (e.withRegistry registry).walk request dir index state left w = e.walk request dir index state left w := by
  induction left generalizing index state w with
  | nil => rfl
  | cons a rest ih =>
    simp only [walk, ih]
    rfl

lemma Passes.withRegistry (h : e.Passes request dir p done q) (registry : Registry σ) :
    (e.withRegistry registry).Passes request dir p done q := by
  induction h with
  | here => exact .here _
  | pass hleft hidle hmade hs _ ih =>
    obtain ⟨hindex, hcontext, hbegan, hstart, htimeout, hthreshold, hanswer⟩ := hmade
    exact .pass hleft hidle ⟨hindex, hcontext, hbegan, hstart, htimeout, hthreshold, hanswer⟩ hs ih

lemma assign_withRegistry {pairs : List (Step × StepRecord)}
    (h : ∀ pair ∈ pairs, registry.stepRunner pair.1.kind = e.registry.stepRunner pair.1.kind) (index : Nat) :
    (e.withRegistry registry).assign index pairs = e.assign index pairs := by
  induction pairs generalizing index with
  | nil => rfl
  | cons pair rest ih =>
    obtain ⟨hfirst, hrest⟩ := List.forall_mem_cons.mp h
    have hkind : (e.withRegistry registry).registry.stepRunner pair.1.kind = e.registry.stepRunner pair.1.kind := hfirst
    simp only [assign, hkind, ih hrest]

/-! ### Two calls that are to run the same steps -/

variable (h : Step.SameFrom request.startFromStep steps other)
  (hr : ∀ step ∈ steps.drop request.startFromStep, registry.stepRunner step.kind = e.registry.stepRunner step.kind)
include h hr

lemma assign_remaining : (e.withRegistry registry).assign request.startFromStep (request.remaining other) =
    e.assign request.startFromStep (request.remaining steps) := by
  rw [PromotionRequest.remaining_congr h]
  apply assign_withRegistry
  intro pair hpair
  apply hr
  obtain ⟨j, hj⟩ := List.getElem?_of_mem hpair
  rw [request.remaining_getElem?] at hj
  obtain ⟨step, hstep, rfl⟩ := Option.map_eq_some_iff.mp hj
  rw [← List.getElem?_drop] at hstep
  exact List.mem_of_getElem? hstep

lemma Admits.withRegistry (ha : e.Admits request steps w left dir w₀) :
    (e.withRegistry registry).Admits request other w left dir w₀ where
  valid := (StepProblem.ofStepsFrom_congr h.map_judged 0 []).trans ha.valid
  inRange := h.length_eq ▸ ha.inRange
  assigned := (assign_remaining h hr).trans ha.assigned
  prepared := (e.workDir_withRegistry registry w).trans ha.prepared

lemma StepCall.withRegistry {kind : String} {context : StepContext σ} (hc : e.StepCall request steps w kind context) :
    (e.withRegistry registry).StepCall request other w kind context := by
  obtain ⟨dir, done, p, a, limit, ⟨⟨left, w₀, ha, hp⟩, hnext, hidle⟩, hlimit, hkind, hcontext⟩ := hc
  exact ⟨dir, done, p, a, limit, ⟨⟨left, w₀, ha.withRegistry h hr, hp.withRegistry registry⟩, hnext, hidle⟩, hlimit,
    hkind, hcontext⟩

lemma promote_withRegistry (w : World σ) :
    (e.withRegistry registry).promote request other w = e.promote request steps w := by
  have hproblems : StepProblem.ofSteps other = StepProblem.ofSteps steps :=
    StepProblem.ofStepsFrom_congr h.map_judged 0 []
  have hrecords := StepRecord.normalize_congr h.aliases_eq request.records
  have hassign := assign_remaining h hr
  simp only [PromotionRequest.remaining, PromotionRequest.recordsFor, hrecords] at hassign
  simp only [promote, hproblems, h.length_eq, hrecords, hassign, workDir_withRegistry, walk_withRegistry]

omit h hr

/-! ### The steps before the start -/

lemma records_before_start {j : Nat} (hi : e.promote request steps w = some (i, w')) (hj : j < request.startFromStep) :
    i.result.records[j]? = (request.recordsFor steps)[j]? := by
  cases promote_concludes hi with
  | walked ha => exact records_before ha.inRange hj
  | refused hrefused =>
    cases hrefused with
    | @unassigned u _ _ hu =>
      have hu := (firstUnresolved_of_assign hu).1
      exact List.getElem?_modify_ne _ _ (by omega)
    | _ => rfl

include h hr in
theorem promote_of_sameFrom (w : World σ) :
    (e.withRegistry registry).promote request other w = e.promote request steps w ∧
    (∀ kind context, (e.withRegistry registry).StepCall request other w kind context ↔
      e.StepCall request steps w kind context) ∧
    ∀ i w', e.promote request steps w = some (i, w') →
      (∀ t ∈ i.attempts, request.startFromStep ≤ t.index) ∧
      ∀ j < request.startFromStep, i.result.records[j]? = (request.recordsFor steps)[j]? := by
  refine ⟨promote_withRegistry h hr w, fun kind context => ⟨fun hc => ?_, StepCall.withRegistry h hr⟩, ?_⟩
  · -- The first engine is the second one with its own registry put back.
    have hback : ∀ step ∈ other.drop request.startFromStep,
        e.registry.stepRunner step.kind = (e.withRegistry registry).registry.stepRunner step.kind := by
      intro step hstep
      rw [h.behind] at hstep
      exact (hr step hstep).symm
    exact StepCall.withRegistry h.symm hback hc
  · intro i w' hi
    exact ⟨fun t => start_le_index hi, fun j => records_before_start hi⟩

end Engine

/-! ### A first step that has been done, by whatever it was -/

namespace Migrated

def last : Step where
  kind := composeOutputKind
  config := ({} : Payload).insert "image" (.string "app:1")

def steps : List Step := [{ kind := "git-clone", givenAlias := some "source" }, last]

def other : List Step :=
  [{ kind := composeOutputKind, givenAlias := some "source", retry := some { timeoutSecs := some 5 } }, last]

def engine : Engine Unit where
  registry := .withBuiltins
  workDirRoot := ⟨"/tmp"⟩

def registry : Registry Unit := Registry.withBuiltins.register "git-clone" { runner := {} }

def request : PromotionRequest where
  project := "payments"
  stage := "prod"
  promotion := "prod.01"
  workDir := some "/work"
  startFromStep := 1

def world : World Unit := ⟨0, .idle, (), default, fun _ => ⟨0, 0⟩, 0⟩

theorem promote_of_sameFrom_migrated :
    ∃ i w', engine.promote request steps world = some (i, w') ∧
      (engine.withRegistry registry).promote request other world = some (i, w') ∧
      ¬ engine.Resolves steps 0 ∧ i.result.status = .succeeded ∧ ∀ t ∈ i.attempts, 1 ≤ t.index := by
  have hsame : Step.SameFrom request.startFromStep steps other := ⟨rfl, rfl, rfl, by decide⟩
  have hkinds : ∀ step ∈ steps.drop request.startFromStep,
      registry.stepRunner step.kind = engine.registry.stepRunner step.kind := by
    intro step hstep
    obtain rfl : step = last := List.mem_singleton.mp hstep
    rfl
  obtain ⟨hequal, _, hindex⟩ := Engine.promote_of_sameFrom hsame hkinds world
  obtain ⟨i, w', hi, hs⟩ : ∃ i w', engine.promote request steps world = some (i, w') ∧ i.result.status = .succeeded :=
    ⟨_, _, rfl, rfl⟩
  have hunresolved : ¬ engine.Resolves steps 0 := by
    intro hresolves
    have hfirst := hresolves 0 _ (Nat.le_refl _) rfl
    revert hfirst
    decide
  exact ⟨i, w', hi, hequal.trans hi, hunresolved, hs, (hindex i w' hi).1⟩

end Migrated
end Delivery
