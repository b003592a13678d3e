import Delivery.Proofs.Directories
import Delivery.Proofs.Promotion.Cancellation
import Delivery.Proofs.Promotion.Records
import Delivery.Proofs.Promotion.Refusal
import Delivery.Proofs.Promotion.Repetition
import Mathlib.Data.List.Forall2

/-! Splitting a run at the end of a step. A promotion that is cancelled in the course of a step which succeeds, and
then resumed, comes to what it would have come to without the cancellation. -/

namespace Delivery

variable {σ : Type}

namespace Invocation

lemma attempts_after_behind (i : Invocation σ) (done : List (Attempt σ)) (earlier : List StepRecord) :
    ((i.after done).behind earlier).attempts = done ++ i.attempts := rfl

lemma healthChecks_after_behind (i : Invocation σ) (done : List (Attempt σ))
    (earlier : List StepRecord) : ((i.after done).behind earlier).result.healthChecks =
      done.filterMap (·.result.healthCheck) ++ i.result.healthChecks := rfl

end Invocation

namespace Engine

variable {e e₁ : Engine σ} {request : PromotionRequest} {steps : List Step} {dir dir₁ : String}
  {w w₀ w₁ w' : World σ} {left left₁ : List (Assignment σ)} {p q m : Place σ} {a : Assignment σ}
  {t : Attempt σ} {done : List (Attempt σ)} {cause : Cause}

/-! ### Assignments -/

lemma assign_drop {index : Nat} {pairs : List (Step × StepRecord)}
    (h : e.assign index pairs = .ok left) (k : Nat) :
    e.assign (index + k) (pairs.drop k) = .ok (left.drop k) := by
  induction k generalizing index pairs left with
  | zero => exact h
  | succ k ih =>
    cases pairs with
    | nil =>
      obtain rfl : [] = left := by simpa [assign] using h
      rfl
    | cons pair rest =>
      simp only [assign] at h
      split at h
      · cases h
      · cases hrest : e.assign (index + 1) rest with
        | error u => simp [hrest, Except.map] at h
        | ok left' =>
          simp only [hrest, Except.map, Except.ok.injEq] at h
          subst h
          rw [List.drop_succ_cons, List.drop_succ_cons, ← Nat.add_assoc, Nat.add_right_comm]
          exact ih hrest

lemma Interrupted.assign (he : e.Interrupted e₁) {index : Nat} {pairs : List (Step × StepRecord)}
    (h : e.assign index pairs = .ok left) :
    ∃ left₁, e₁.assign index pairs = .ok left₁ ∧ List.Forall₂ Assignment.Interrupted left left₁ := by
  induction pairs generalizing index left with
  | nil =>
    obtain rfl : [] = left := by simpa [Engine.assign] using h
    exact ⟨[], rfl, .nil⟩
  | cons pair rest ih =>
    simp only [Engine.assign] at h ⊢
    split at h
    · cases h
    · next runner permissions hr =>
      obtain ⟨runner₁, hr₁, hi⟩ := he.stepRunner _ _ _ hr
      cases hrest : e.assign (index + 1) rest with
      | error u => simp [hrest, Except.map] at h
      | ok left' =>
        simp only [hrest, Except.map, Except.ok.injEq] at h
        subst h
        obtain ⟨left₁, hleft₁, hall⟩ := ih hrest
        refine ⟨⟨pair.1, pair.2, runner₁, permissions⟩ :: left₁, ?_, .cons ⟨rfl, rfl, rfl, hi⟩ hall⟩
        rw [hr₁, hleft₁]
        rfl

lemma Admits.fresh (h : e.Admits request steps w left dir w₀) (hrecords : request.records = []) :
    ∀ a ∈ left, a.Fresh := by
  intro a ha
  obtain ⟨k, hk⟩ := List.getElem?_of_mem ha
  have hrecord := (assigned_of_assign h.assigned hk).record_eq
  rw [hrecords] at hrecord
  rw [Assignment.Fresh, hrecord]
  rfl

/-! ### The working directory -/

lemma workDir_eq_ok : e.workDir request w = (.ok dir, w₀) ↔
    (request.workDir = some dir ∧ w₀ = w) ∨
      (request.workDir = none ∧ ∃ made files,
        WorkDir.prepare w.files e.workDirRoot request.project request.promotion = (.ok made, files) ∧
          dir = made.text ∧ w₀ = { w with files }) := by
  simp only [workDir]
  split
  · next given hg => simp [hg, eq_comm]
  · next hg =>
    obtain ⟨made | made, files⟩ :=
      WorkDir.prepare w.files e.workDirRoot request.project request.promotion
    · simp [hg]
    · constructor
      · intro h
        cases h
        exact .inr ⟨hg, made, files, rfl, rfl, rfl⟩
      · rintro (⟨h, _⟩ | ⟨_, made', files', h, rfl, rfl⟩)
        · simp [hg] at h
        · cases h
          rfl

lemma workDir_of_files (h : e.workDir request w = (.ok dir, w₀)) (hroot : e₁.workDirRoot = e.workDirRoot)
    (hfiles : w₁.files = w.files) :
    e₁.workDir request w₁ = (.ok dir, { w₁ with files := w₀.files }) := by
  rw [workDir_eq_ok, hroot, hfiles]
  rcases workDir_eq_ok.mp h with ⟨hg, rfl⟩ | ⟨hn, made, files, hmade, rfl, rfl⟩
  · exact .inl ⟨hg, by rw [← hfiles]⟩
  · exact .inr ⟨hn, made, files, hmade, rfl, rfl⟩

lemma workDir_again (h : e.workDir request w = (.ok dir, w₀)) (hfiles : w₁.files = w₀.files)
    (previous : PromotionResult) : e.workDir (request.resumeFrom previous) w₁ = (.ok dir, w₁) := by
  rw [workDir_eq_ok, hfiles]
  rcases workDir_eq_ok.mp h with ⟨hg, rfl⟩ | ⟨hn, made, files, hmade, rfl, rfl⟩
  · exact .inl ⟨hg, rfl⟩
  · obtain rfl : w₁.files = files := hfiles
    exact .inr ⟨hn, made, w₁.files, WorkDir.prepare_again hmade, rfl, rfl⟩

/-! ### What attempts leave alone -/

lemma Makes.files {index : Nat} {state : Payload} (h : e.Makes request dir index state a w t w') :
    w'.files = w.files := by
  obtain ⟨w₁, hi, _, _, rfl⟩ := h.answer
  have hrun (limit : Option Nat) : ((a.runner.run t.context).run limit w.now.2).2.files = w.files :=
    Behaviour.run_files _ _ _
  have hc := StepRunner.concludes_of_invoke hi
  generalize t.invoked = invoked, t.conclusion = conclusion at hc
  cases hc with
  | exhausted => rfl
  | answered _ _ hr => exact (congrArg (·.2.files) hr).symm.trans (hrun _)
  | cutOff _ _ hr => exact (congrArg (·.2.files) hr).symm.trans (hrun _)
  | unlimited _ hr => exact (congrArg (·.2.files) hr).symm.trans (hrun _)

lemma Passes.files (h : e.Passes request dir p done q) : q.world.files = p.world.files := by
  induction h with
  | here => rfl
  | pass _ _ hmade _ _ ih => exact ih.trans hmade.files

lemma Ends.files {last : Invocation σ} (h : e.Ends request dir q last w') :
    w'.files = q.world.files := by
  cases h with
  | completed => rfl
  | canceled => rfl
  | halted _ _ hmade => exact hmade.files

/-! ### The attempt in whose course the cancellation comes -/

lemma Moment.exists_made {n : Nat} {w₂ : World σ} (h : e.Moment request steps w (n + 1) w₂)
    (hc : w₂.signal.cause = some cause) :
    ∃ dir done p a t w', e.Starts request steps w dir done p a ∧ done.length = n ∧
      e.Makes request dir p.index p.state a p.world t w' ∧ w'.signal.cause = some cause := by
  generalize hn : n + 1 = started at h
  cases h with
  | before => cases hn
  | during hs hl hm =>
    obtain ⟨t, w', ht, hcause⟩ := makes_of_reaches hl hm hc
    exact ⟨_, _, _, _, t, w', hs, (Nat.succ.inj hn).symm, ht, hcause⟩
  | after hs hm => exact ⟨_, _, _, _, _, _, hs, (Nat.succ.inj hn).symm, hm, hc⟩

lemma exists_ends_of_canceled (hc : q.world.signal.cause = some cause) :
    ∃ last, e.Ends request dir q last q.world ∧ last.attempts = [] ∧
      last.result.records = q.left.map (·.record) := by
  cases hleft : q.left with
  | nil => exact ⟨_, .completed hleft, rfl, rfl⟩
  | cons a rest => exact ⟨_, .canceled hleft hc, rfl, by rw [← hleft]; rfl⟩

lemma records_of_interrupted (h : LeftInterrupted p q) :
    q.left.map (·.record) = p.left.map (·.record) := by
  unfold LeftInterrupted at h
  generalize p.left = left, q.left = left₁ at h
  induction h with
  | nil => rfl
  | cons hi _ ih => rw [List.map_cons, List.map_cons, hi.2.record, ih]

/-- A call that is cancelled in the course of an attempt passes its step if the run without the cancellation does,
and has then come to the same. -/
lemma Starts.exists_cut {left : List (Assignment σ)} {done₁ : List (Attempt σ)} {p₁ : Place σ}
    {a₁ : Assignment σ} {t₁ : Attempt σ} {w₁' : World σ}
    (h₁ : e₁.Starts request steps w₁ dir₁ done₁ p₁ a₁)
    (hmade₁ : e₁.Makes request dir₁ p₁.index p₁.state a₁ p₁.world t₁ w₁') (he : e.Interrupted e₁)
    (ho : e.Oblivious) (hrecords : request.records = []) (hmemory : w₁.memory = w.memory)
    (hfiles : w₁.files = w.files) (ha : e.Admits request steps w left dir w₀)
    (hp : e.Passes request dir ⟨request.startFromStep, request.state, left, w₀⟩ done q)
    (hlength : done₁.length < done.length) :
    ∃ left₁ w₁₀ passed q₁ m, e₁.Admits request steps w₁ left₁ dir w₁₀ ∧
      e₁.Passes request dir ⟨request.startFromStep, request.state, left₁, w₁₀⟩ passed q₁ ∧
      q₁.world = w₁' ∧ w₁'.files = w₀.files ∧ InStep m q₁ ∧ LeftInterrupted m q₁ ∧
      e.Passes request dir ⟨request.startFromStep, request.state, left, w₀⟩
        (done.take (done₁.length + 1)) m ∧
      e.Passes request dir m (done.drop (done₁.length + 1)) q ∧
      passed.map Attempt.untimed = (done.take (done₁.length + 1)).map Attempt.untimed := by
  obtain ⟨⟨left₁, w₁₀, ha₁, hp₁⟩, ⟨rest₁, hleft₁⟩, hidle₁⟩ := h₁
  have hdir := workDir_of_files ha.prepared he.workDirRoot hfiles
  rw [ha₁.prepared, Prod.mk.injEq, Except.ok.injEq] at hdir
  obtain ⟨rfl, rfl⟩ := hdir
  obtain ⟨left', hassign, hall⟩ := he.assign ha.assigned
  obtain rfl : left' = left₁ := Except.ok.inj (hassign.symm.trans ha₁.assigned)
  have hl : LeftInterrupted ⟨request.startFromStep, request.state, left, w₀⟩
      ⟨request.startFromStep, request.state, left', { w₁ with files := w₀.files }⟩ :=
    (List.forall₂_and_left _ _).mpr ⟨ha.fresh hrecords, hall⟩
  have hstart : InStep ⟨request.startFromStep, request.state, left, w₀⟩
      ⟨request.startFromStep, request.state, left', { w₁ with files := w₀.files }⟩ := by
    have hkept := (workDir_frame e request w).1
    rw [ha.prepared] at hkept
    exact ⟨rfl, rfl, hmemory.trans hkept.symm⟩
  have ho : ∀ a ∈ left, ∀ context, (a.runner.run context).Oblivious :=
    fun a hmem => ho _ _ _ ((assign_ok ha.assigned).2 a hmem)
  have hs₁ : t₁.succeeded = true := by
    obtain ⟨_, m, hpm, hmq, hm, hlm⟩ := hp.agree hp₁ hstart hl he ho (Nat.le_of_lt hlength)
    rw [List.drop_eq_getElem_cons hlength] at hmq
    cases hmq with
    | @pass _ _ a rest _ _ _ hleft _ hmade hs =>
      have hmem : a ∈ left := by
        rw [hpm.left_eq] at hleft
        exact List.mem_of_mem_drop (hleft ▸ List.mem_cons_self)
      rw [LeftInterrupted, hleft, hleft₁, List.forall₂_cons] at hlm
      obtain ⟨⟨hf, hi⟩, _⟩ := hlm
      rw [Attempt.succeeded_of_untimed (hmade.agree hmade₁ hm he hf hi (ho a hmem)).1, hs]
  have hpassed := hp₁.concat hleft₁ hidle₁ hmade₁ hs₁
  obtain ⟨hmap, m, hpm, hmq, hm, hlm⟩ := hp.agree hpassed hstart hl he ho (by simpa using Nat.succ_le_of_lt hlength)
  have hsucc : (done₁ ++ [t₁]).length = done₁.length + 1 := by simp
  rw [hsucc] at hmap hpm hmq
  exact ⟨left', _, _, _, m, ha₁, hpassed, rfl, hmade₁.files.trans hp₁.files, hm, hlm, hpm, hmq, hmap⟩

/-! ### The call that resumes -/

lemma Admits.resumed {previous : PromotionResult} {w₂ : World σ}
    (ha : e.Admits request steps w left dir w₀) (hstart : request.startFromStep = 0)
    (hp : e.Passes request dir ⟨request.startFromStep, request.state, left, w₀⟩ done m)
    (hcurrent : previous.currentStep = m.index)
    (haliases : previous.records.map (·.stepAlias) = Step.aliases steps)
    (hrecords : previous.records.drop m.index = m.left.map (·.record))
    (hfiles : w₂.files = w₀.files) :
    e.Admits (request.resumeFrom previous) steps w₂ m.left dir w₂ := by
  have hindex : m.index = done.length := by
    rw [hp.index_eq, hstart, Nat.zero_add]
  have hleft : m.left = left.drop m.index := by rw [hp.left_eq, hindex]
  have hlength := length_of_assign ha.assigned
  have hle := hp.length_le
  dsimp only at hle
  refine ⟨ha.valid, ?_, ?_, workDir_again ha.prepared hfiles previous⟩
  · show previous.currentStep ≤ steps.length
    omega
  · have hpairs : (request.resumeFrom previous).remaining steps =
        (request.remaining steps).drop m.index := by
      have hsnd := congrArg (List.map (·.2)) (assign_ok ha.assigned).1
      rw [request.remaining_snd, List.map_map, hstart, List.drop_zero] at hsnd
      have hkept : previous.records.drop m.index = (request.recordsFor steps).drop m.index := by
        rw [hrecords, hleft, List.map_drop, ← hsnd]
        rfl
      have hown : (request.resumeFrom previous).recordsFor steps = previous.records :=
        PromotionRequest.recordsFor_eq_self haliases
      show ((steps.zip _).drop previous.currentStep) = _
      rw [hown, hcurrent, PromotionRequest.remaining, hstart, List.drop_zero, List.zip,
        List.drop_zipWith, List.drop_zipWith, hkept]
    rw [hpairs, hleft]
    have hdrop := assign_drop ha.assigned m.index
    rw [hstart, Nat.zero_add] at hdrop
    show e.assign previous.currentStep _ = _
    rw [hcurrent]
    exact hdrop

lemma Ends.idle {last : Invocation σ} (h : e.Ends request dir q last w')
    (hc : w'.signal.cause = none) : q.world.signal.cause = none := by
  cases h with
  | completed => exact hc
  | canceled _ hcause => simp [hcause] at hc
  | halted _ hidle => exact hidle

lemma Passes.index_bounds (h : e.Passes request dir p done q) :
    ∀ t ∈ done, p.index ≤ t.index ∧ t.index < q.index := by
  intro t ht
  have hmem : t.index ∈ done.map (·.index) := List.mem_map_of_mem ht
  rw [h.indices, List.mem_range'_1] at hmem
  rwa [h.index_eq]

lemma attempts_around {earlier later : List (Attempt σ)} {last : Invocation σ} {n : Nat}
    (hpm : e.Passes request dir p earlier m) (hmq : e.Passes request dir m later q)
    (hend : e.Ends request dir q last w') (hn : m.index = n + 1) :
    (earlier ++ (later ++ last.attempts)).filter (·.index ≤ n) = earlier ∧
      (earlier ++ (later ++ last.attempts)).filter (n < ·.index) = later ++ last.attempts := by
  have hearlier : ∀ t ∈ earlier, t.index ≤ n := by
    intro t ht
    have := (hpm.index_bounds t ht).2
    omega
  have hlater : ∀ t ∈ later ++ last.attempts, n < t.index := by
    intro t ht
    rcases List.mem_append.mp ht with hmem | hmem
    · have := (hmq.index_bounds t hmem).1
      omega
    · obtain hnone | ⟨t', a, hone, _, _, hmade⟩ := hend.attempts_cases
      · simp [hnone] at hmem
      · obtain rfl : t = t' := by simpa [hone] using hmem
        have hq := hmq.index_eq
        rw [hmade.index_eq]
        omega
  constructor
  · rw [List.filter_append, List.filter_eq_self.mpr (by simpa using hearlier),
      List.filter_eq_nil_iff.mpr (by simpa using hlater), List.append_nil]
  · rw [List.filter_append, List.filter_eq_nil_iff.mpr (by simpa using hearlier),
      List.filter_eq_self.mpr (by simpa using hlater), List.nil_append]

lemma exists_resumed (previous : PromotionResult) {earlier later : List (Attempt σ)}
    {last : Invocation σ} {w₃ : World σ} (ha : e.Admits request steps w left dir w₀)
    (hstart : request.startFromStep = 0) (hfresh : request.records = [])
    (hpm : e.Passes request dir ⟨request.startFromStep, request.state, left, w₀⟩ earlier m)
    (hmq : e.Passes request dir m later q) (hend : e.Ends request dir q last w')
    (hidle : w'.signal.cause = none) (hcurrent : previous.currentStep = m.index)
    (hstate : previous.state = m.state)
    (haliases : previous.records.map (·.stepAlias) = Step.aliases steps)
    (hrecords : previous.records.drop m.index = m.left.map (·.record))
    (hsignal : w₃.signal = .idle) (hmemory : w₃.memory = m.world.memory)
    (hfiles : w₃.files = w₀.files) :
    ∃ done₂ last₂ w₃', e.promote (request.resumeFrom previous) steps w₃ =
        some ((Invocation.after last₂ done₂).behind (previous.records.take m.index), w₃') ∧
      done₂.map Attempt.untimed = later.map Attempt.untimed ∧
      last₂.attempts.map Attempt.untimed = last.attempts.map Attempt.untimed ∧
      last₂.result.status = last.result.status ∧ last₂.result.message = last.result.message ∧
      last₂.result.currentStep = last.result.currentStep ∧ last₂.result.state = last.result.state ∧
      last₂.result.records.map StepRecord.untimed = last.result.records.map StepRecord.untimed ∧
      last₂.result.healthChecks = last.result.healthChecks := by
  have hfresh : ∀ a ∈ m.left, a.Fresh := by
    rw [hpm.left_eq]
    exact fun a hmem => ha.fresh hfresh a (List.mem_of_mem_drop hmem)
  have ha₂ := ha.resumed hstart hpm hcurrent haliases hrecords hfiles
  have hstep : InStep m ⟨previous.currentStep, previous.state, m.left, w₃⟩ := ⟨hcurrent, hstate, hmemory⟩
  obtain ⟨done₂, q₂, hp₂, hmap, hq, hleft, hsignal₂⟩ :=
    hmq.again previous (hend.idle hidle) hfresh hstep rfl hsignal
  have hfresh₂ : ∀ a ∈ q.left, a.Fresh := by
    rw [hmq.left_eq]
    exact fun a hmem => hfresh a (List.mem_of_mem_drop hmem)
  obtain ⟨last₂, w₃', hend₂, hstatus, hmessage, hrest, hattempts⟩ :=
    hend.again previous hidle hfresh₂ hq hleft hsignal₂
  have hown : (request.resumeFrom previous).recordsFor steps = previous.records :=
    PromotionRequest.recordsFor_eq_self haliases
  have hr₂ := promote_of_ends ha₂ hp₂ hend₂
  rw [hown] at hr₂
  refine ⟨done₂, last₂, w₃', hcurrent ▸ hr₂, hmap, hattempts, hstatus, hmessage, ?_, ?_, hrest, ?_⟩
  · rw [hend₂.currentStep_eq, hend.currentStep_eq, hq.index]
  · rw [hend₂.state_eq, hend.state_eq, hq.state]
  · rw [hend₂.healthChecks_eq, hend.healthChecks_eq]

theorem promote_split {u : Invocation σ} {wU w₂ : World σ} (hstart : request.startFromStep = 0)
    (hrecords : request.records = []) (ho : e.Oblivious) (he : e.Interrupted e₁)
    (hu : e.promote request steps w = some (u, wU)) (hidle : wU.signal.cause = none)
    (ht : t ∈ u.attempts) (hs : t.succeeded = true) (hmemory : w₁.memory = w.memory)
    (hfiles : w₁.files = w.files) (hm : e₁.Moment request steps w₁ (t.index + 1) w₂)
    (hc : w₂.signal.cause = some cause) :
    ∃ r₁ w₁', e₁.promote request steps w₁ = some (r₁, w₁') ∧
      r₁.attempts.map Attempt.untimed =
        (u.attempts.filter (·.index ≤ t.index)).map Attempt.untimed ∧
      ∀ w₃ : World σ, w₃.signal = .idle → w₃.memory = w₁'.memory → w₃.files = w₁'.files →
        ∃ r₂ w₃', e.promote (request.resumeFrom r₁.result) steps w₃ = some (r₂, w₃') ∧
          r₂.result.status = u.result.status ∧ r₂.result.message = u.result.message ∧
          r₂.result.currentStep = u.result.currentStep ∧ r₂.result.state = u.result.state ∧
          r₂.result.records.map StepRecord.untimed = u.result.records.map StepRecord.untimed ∧
          r₂.attempts.map Attempt.untimed =
            (u.attempts.filter (t.index < ·.index)).map Attempt.untimed ∧
          r₁.result.healthChecks ++ r₂.result.healthChecks = u.result.healthChecks := by
  cases promote_concludes hu with
  | refused => cases ht
  | @walked left dir w₀ _ done q last ha hp hend =>
    have hdone : t ∈ done := by
      rcases List.mem_append.mp ht with hmem | hmem
      · exact hmem
      · obtain hnone | ⟨t', a, hone, hn, _⟩ := hend.attempts_cases
        · simp [hnone] at hmem
        · obtain rfl : t = t' := by simpa [hone] using hmem
          simp [hs] at hn
    obtain ⟨k, hk⟩ := List.getElem?_of_mem hdone
    have hindex : t.index = k := by
      have hi := hp.index_of_getElem? hk
      rwa [hstart, Nat.zero_add] at hi
    have hlt : k < done.length := (List.getElem?_eq_some_iff.mp hk).1
    obtain ⟨dir₁, done₁, p₁, a₁, t₁, w₁', h₁, hlength, hmade₁, hcause⟩ := hm.exists_made hc
    obtain rfl : done₁.length = k := hlength.trans hindex
    obtain ⟨left₁, w₁₀, passed, q₁, m, ha₁, hp₁, rfl, hfiles₁, hstep, hleft, hpm, hmq, hmap⟩ :=
      h₁.exists_cut hmade₁ he ho hrecords hmemory hfiles ha hp hlt
    obtain ⟨last₁, hend₁, hnone₁, hrest₁⟩ :
        ∃ last, e₁.Ends request dir q₁ last q₁.world ∧ last.attempts = [] ∧
          last.result.records = q₁.left.map (·.record) := exists_ends_of_canceled hcause
    have hr₁ := promote_of_ends ha₁ hp₁ hend₁
    have hmindex : m.index = done₁.length + 1 := by
      rw [hpm.index_eq, hstart, Nat.zero_add, List.length_take, Nat.min_eq_left hlt]
    obtain ⟨hbefore, hbehind⟩ := attempts_around hpm hmq hend hmindex
    rw [← List.append_assoc, List.take_append_drop] at hbefore hbehind
    rw [hindex]
    have hrecords₁ : q₁.left.map (·.record) = m.left.map (·.record) := records_of_interrupted hleft
    -- What the first call leaves: the steps that it passed are closed, and the rest are as they were.
    have hprevious : ((last₁.after passed).behind ((request.recordsFor steps).take
        request.startFromStep)).result.records =
          passed.map Attempt.closed ++ m.left.map (·.record) := by
      rw [Invocation.records_after_behind, hstart, List.take_zero, List.nil_append, hrest₁, hrecords₁]
    have hpassed : (passed.map Attempt.closed).length = m.index := by
      rw [List.length_map, ← hstep.index, hp₁.index_eq, hstart, Nat.zero_add]
    refine ⟨_, _, hr₁, ?_, ?_⟩
    · rw [Invocation.attempts_after_behind, Invocation.attempts_after_behind, hnone₁, hbefore,
        List.append_nil, hmap]
    intro w₃ hsignal hmemory₃ hfiles₃
    obtain ⟨done₂, last₂, w₃', hr₂, hmap₂, hattempts₂, hstatus, hmessage, hcurrent, hstate, hrest₂, hhealth⟩ :=
      exists_resumed ((last₁.after passed).behind ((request.recordsFor steps).take
          request.startFromStep)).result ha hstart hrecords hpm hmq hend hidle
        (hend₁.currentStep_eq.trans hstep.index) (hend₁.state_eq.trans hstep.state)
        (promote_records_aliases hr₁) (by rw [hprevious, List.drop_left' hpassed]) hsignal
        (hmemory₃.trans hstep.memory) (hfiles₃.trans hfiles₁)
    refine ⟨_, w₃', hr₂, hstatus, hmessage, hcurrent, hstate, ?_, ?_, ?_⟩
    · rw [hprevious, List.take_left' hpassed, Invocation.records_after_behind,
        Invocation.records_after_behind, hstart, List.take_zero, List.nil_append, List.map_append,
        List.map_append, List.map_append, hrest₂]
      rw [List.map_map, List.map_map, List.map_map,
        Attempt.map_of_untimed _ (fun _ => rfl) hmap, Attempt.map_of_untimed _ (fun _ => rfl) hmap₂,
        ← List.append_assoc, ← List.map_append, List.take_append_drop]
    · rw [Invocation.attempts_after_behind, Invocation.attempts_after_behind, hbehind, List.map_append,
        List.map_append, hmap₂, hattempts₂]
    · rw [Invocation.healthChecks_after_behind, Invocation.healthChecks_after_behind,
        Invocation.healthChecks_after_behind, hend₁.healthChecks_eq, hhealth, List.append_nil,
        Attempt.filterMap_of_untimed _ (fun _ => rfl) hmap,
        Attempt.filterMap_of_untimed _ (fun _ => rfl) hmap₂, ← List.append_assoc,
        ← List.filterMap_append, List.take_append_drop]

end Engine

/-! ### A promotion that is cancelled while its second step is going on -/

namespace Approval

def report : Behaviour (List StepResult) (Except RunnerError StepResult) :=
  .fetch fun
    | [] => .answer (.ok { status := .running })
    | result :: rest => .sleep ⟨5⟩ (.store rest (.answer (.ok result)))

def runner (canceled : Option String) : StepRunner (List StepResult) where
  run c := if canceled = some c.stepAlias then .cancel .canceled report else report

def engine (canceled : Option String) : Engine (List StepResult) where
  registry := Registry.empty.register "report" { runner := { step := some (runner canceled) } }
  workDirRoot := ⟨"/tmp"⟩

def steps : List Step :=
  [{ kind := "report", givenAlias := some "build" },
    { kind := "report", givenAlias := some "approve", retry := some { timeoutSecs := some 1 } },
    { kind := "report", givenAlias := some "deploy", retry := some { errorThreshold := some 2 } }]

def request : PromotionRequest where
  project := "payments"
  stage := "prod"
  promotion := "prod.01"
  workDir := some "/work"

def world : World (List StepResult) where
  time := 0
  signal := .idle
  memory := [{ status := .succeeded }, { status := .succeeded }, { status := .failed }]
  files := default
  clock _ := ⟨0, 0⟩
  readings := 0

lemma stepRunner_eq {canceled : Option String} {kind : String}
    {r : StepRunner (List StepResult)} {permissions : Permissions}
    (h : (engine canceled).registry.stepRunner kind = some (r, permissions)) :
    kind = "report" ∧ r = runner canceled ∧ permissions = .none := by
  simp only [engine, Registry.stepRunner, Registry.lookup_register] at h
  by_cases hk : kind = "report"
  · simp_all [Registration.narrow]
  · simp_all [Registry.lookup, Registry.empty]

lemma report_blind : report.Blind := by
  intro memory
  cases memory <;> trivial

end Approval

namespace Engine
open Approval

theorem promote_split_approval :
    ∃ u wU r₁ w₁' r₂ w₃', (engine none).promote request steps world = some (u, wU) ∧
      (engine (some "approve")).promote request steps world = some (r₁, w₁') ∧
      r₁.result.status = .errored ∧ r₁.result.currentStep = 2 ∧
      (engine none).promote (request.resumeFrom r₁.result) steps { w₁' with signal := .idle } =
        some (r₂, w₃') ∧
      r₂.result.status = .running ∧ r₂.result.message = u.result.message ∧
      r₂.result.records.map StepRecord.untimed = u.result.records.map StepRecord.untimed := by
  have ho : (engine none).Oblivious := by
    intro kind r permissions hr context
    obtain ⟨_, rfl, _⟩ := stepRunner_eq hr
    exact report_blind.oblivious
  have he : (engine none).Interrupted (engine (some "approve")) := by
    refine ⟨rfl, rfl, rfl, rfl, ?_⟩
    intro kind r permissions hr
    obtain ⟨rfl, rfl, rfl⟩ := stepRunner_eq hr
    refine ⟨runner (some "approve"), rfl, rfl, rfl, ?_⟩
    intro context
    by_cases hc : some "approve" = some context.stepAlias
    · simp only [runner, if_pos hc]
      exact .interrupt _ (.refl _)
    · simp only [runner, if_neg hc]
      exact .refl _
  obtain ⟨left, hassign⟩ : ∃ left, (engine (some "approve")).assign request.startFromStep
      (request.remaining steps) = .ok left := ⟨_, rfl⟩
  have hadmits : (engine (some "approve")).Admits request steps world left "/work" world :=
    ⟨rfl, by decide, hassign, rfl⟩
  cases hassign
  have hstarts : (engine (some "approve")).Starts request steps world "/work" _ _ _ :=
    ⟨⟨_, _, hadmits, .pass rfl rfl (makes_of_attempt rfl) rfl (.here _)⟩, ⟨_, rfl⟩, rfl⟩
  obtain ⟨⟨u, wU⟩, hu⟩ : ∃ x, (engine none).promote request steps world = some x := ⟨_, rfl⟩
  obtain ⟨t, ht⟩ : ∃ t, u.attempts[1]? = some t := by cases hu; exact ⟨_, rfl⟩
  have hindex : t.index = 1 := by cases hu; cases ht; rfl
  have hs : t.succeeded = true := by cases hu; cases ht; rfl
  have hidle : wU.signal.cause = none := by cases hu; rfl
  obtain ⟨m, hmoment, hcause⟩ : ∃ m, (engine (some "approve")).Moment request steps world 2 m ∧
      m.signal.cause = some .canceled := ⟨_, .after hstarts (makes_of_attempt rfl), rfl⟩
  rw [show 2 = t.index + 1 by rw [hindex]] at hmoment
  obtain ⟨r₁, w₁', hr₁, _, hresume⟩ := promote_split rfl rfl ho he hu hidle (List.mem_of_getElem? ht) hs
    rfl rfl hmoment hcause
  obtain ⟨r₂, w₃', hr₂, hstatus, hmessage, _, _, hrecords, _⟩ :=
    hresume { w₁' with signal := .idle } rfl rfl rfl
  have hcanceled : ((engine (some "approve")).promote request steps world).map
      (fun x => (x.1.result.status, x.1.result.currentStep)) = some (.errored, 2) := rfl
  rw [hr₁, Option.map_some, Option.some.injEq, Prod.mk.injEq] at hcanceled
  have hrunning : u.result.status = .running := by cases hu; rfl
  exact ⟨u, wU, r₁, w₁', r₂, w₃', hu, hr₁, hcanceled.1, hcanceled.2, hr₂, hstatus.trans hrunning,
    hmessage, hrecords⟩

end Engine
end Delivery
