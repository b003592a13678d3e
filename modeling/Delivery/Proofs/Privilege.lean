import Delivery.Proofs.Health.Aggregate
import Delivery.Proofs.Promotion.Course
import Delivery.Proofs.Registrations

/-! Least privilege. What a runner may use is decided by the last registration under its kind, and a collaborator
that no kind in use may use makes no difference to a run. -/

namespace Delivery

variable {σ : Type}

/-! ### Registrations -/

namespace Registry

lemma last?_of_stepRunner {r : Registry σ} {registrations : List (String × Registration σ)}
    (hr : r.Holds registrations) {kind : String} {runner : StepRunner σ}
    {permissions : Permissions} (h : r.stepRunner kind = some (runner, permissions)) :
    ∃ last, Registration.last? registrations kind = some last ∧ last.permissions = permissions := by
  simp only [stepRunner, lookup_eq hr] at h
  cases hl : Registration.last? registrations kind with
  | none => simp [hl] at h
  | some last =>
    refine ⟨last, rfl, ?_⟩
    cases hs : last.runner.step <;> simp_all [Registration.narrow]

lemma last?_of_healthChecker {r : Registry σ} {registrations : List (String × Registration σ)}
    (hr : r.Holds registrations) {kind : String} {checker : Checker σ}
    {permissions : Permissions} (h : r.healthChecker kind = some (checker, permissions)) :
    ∃ last, Registration.last? registrations kind = some last ∧ last.permissions = permissions := by
  simp only [healthChecker, lookup_eq hr] at h
  cases hl : Registration.last? registrations kind with
  | none => simp [hl] at h
  | some last =>
    refine ⟨last, rfl, ?_⟩
    cases hs : last.runner.check <;> simp_all [Registration.narrow]

end Registry

/-! ### Grants -/

/-- Grants hold a collaborator exactly if it is allowed and there, and then it is the one that is there. -/
structure Grants.Scoped (g : Grants σ) (p : Permissions) (ambient : Collaborators σ) : Prop where
  credentials : ∀ c, g.credentials = some c ↔ p.credentials = true ∧ ambient.credentials = some c
  primary : ∀ c, g.primary = some c ↔ p.primary = true ∧ ambient.primary = some c
  target : ∀ c, g.target = some c ↔ p.target = true ∧ ambient.target = some c

lemma Option.filter_const_eq_some_iff {α : Type} (o : Option α) (b : Bool) (a : α) :
    o.filter (fun _ => b) = some a ↔ b = true ∧ o = some a := by
  cases o <;> cases b <;> simp [Option.filter]

lemma Grants.restrict_scoped (p : Permissions) (ambient : Collaborators σ) :
    (Grants.restrict p ambient).Scoped p ambient where
  credentials := Option.filter_const_eq_some_iff _ _
  primary := Option.filter_const_eq_some_iff _ _
  target := Option.filter_const_eq_some_iff _ _

/-- Two sets of collaborators have the same ones among those that are allowed. -/
structure Permissions.Agree (p : Permissions) (c c' : Collaborators σ) : Prop where
  credentials : p.credentials = true → c.credentials = c'.credentials
  primary : p.primary = true → c.primary = c'.primary
  target : p.target = true → c.target = c'.target

lemma Permissions.Agree.restrict_eq {p : Permissions} {c c' : Collaborators σ} (h : p.Agree c c') :
    Grants.restrict p c' = Grants.restrict p c := by
  obtain ⟨hcredentials, hprimary, htarget⟩ := h
  obtain ⟨credentials, primary, target⟩ := p
  cases credentials <;> cases primary <;> cases target <;> simp_all [Grants.restrict]

lemma Attempt.follow_context {t : Attempt σ} {context : StepContext σ}
    (h : context.stepAlias = t.context.stepAlias) (r : StepRecord) :
    Attempt.follow { t with context } r = t.follow r := by
  simp only [Attempt.follow, Attempt.enter, Attempt.succeeded, Attempt.result, h]

/-! ### Calls of runners -/

namespace Engine

def Calls (e : Engine σ) (request : PromotionRequest) (dir : String) (p q : Place σ)
    (a : Assignment σ) : Prop :=
  ∃ done rest limit, e.Passes request dir p done q ∧ q.left = a :: rest ∧
    q.world.signal.cause = none ∧ a.limit? e.defaults q.world = some limit

def StepCall (e : Engine σ) (request : PromotionRequest) (steps : List Step) (w : World σ)
    (kind : String) (context : StepContext σ) : Prop :=
  ∃ dir done p a limit, e.Starts request steps w dir done p a ∧
    a.limit? e.defaults p.world = some limit ∧ a.step.kind = kind ∧
    a.contextAt e request dir p = context

def CheckCall (e : Engine σ) (project stage : String) (criteria : List Criterion) (w : World σ)
    (kind : String) (context : CheckContext σ) : Prop :=
  ∃ visits c rest w₁ checker permissions, criteria = visits.map Visit.criterion ++ c :: rest ∧
    e.Visits project stage w visits w₁ ∧ w₁.signal.cause = none ∧ c.kind = kind ∧
    e.registry.healthChecker kind = some (checker, permissions) ∧
    e.checkContext project stage c permissions = context

variable {e : Engine σ} {request : PromotionRequest} {steps : List Step} {dir : String}
  {w w' : World σ} {p q : Place σ} {a : Assignment σ} {t : Attempt σ}

lemma Makes.limit?_of_invoked {index : Nat} {state : Payload}
    (h : e.Makes request dir index state a w t w') (hi : t.invoked = true) :
    ∃ limit, a.limit? e.defaults w = some limit := by
  cases hl : a.limit? e.defaults w with
  | some limit => exact ⟨limit, rfl⟩
  | none =>
    obtain ⟨w₁, hinvoke, _⟩ := h.answer
    rw [h.timeout_eq, h.windowStart_eq, h.began_eq, hi] at hinvoke
    obtain ⟨timeout, hexhausted⟩ := Assignment.invoke_of_exhausted hl
    simpa using (hexhausted t.context).symm.trans hinvoke

theorem stepCall_of_invoked {i : Invocation σ} (h : e.promote request steps w = some (i, w'))
    (ht : t ∈ i.attempts) (hi : t.invoked = true) :
    ∃ step, steps[t.index]? = some step ∧ e.StepCall request steps w step.kind t.context := by
  obtain ⟨dir, done, p, a, w₁, hstarts, hmade⟩ := exists_starts h ht
  obtain ⟨limit, hl⟩ := hmade.limit?_of_invoked hi
  refine ⟨a.step, ?_, dir, done, p, a, limit, hstarts, hl, rfl, hmade.context_eq.symm⟩
  rw [hmade.index_eq]
  exact hstarts.assigned.step_eq

def withCollaborators (e : Engine σ) (ambient : Collaborators σ) : Engine σ :=
  { e with collaborators := ambient }

variable {ambient : Collaborators σ}

/-! ### Promotions -/

/-- What a promotion shows of itself: its result, the attempts in which a runner was called, and the world that it
leaves. -/
def visible (i : Invocation σ × World σ) : PromotionResult × List (Attempt σ) × World σ :=
  (i.1.result, i.1.attempts.filter (·.invoked), i.2)

lemma visible_through {i i' : Invocation σ × World σ} (h : visible i = visible i') (t : Attempt σ)
    (r : StepRecord) (check : Option Criterion) :
    visible (i.1.through t r check, i.2) = visible (i'.1.through t r check, i'.2) := by
  simp only [visible, Prod.mk.injEq] at h
  obtain ⟨hresult, hattempts, hworld⟩ := h
  simp [visible, Invocation.through, List.filter_cons, hresult, hattempts, hworld]

lemma visible_behind {i i' : Invocation σ × World σ} (h : visible i = visible i')
    (records : List StepRecord) :
    visible (i.1.behind records, i.2) = visible (i'.1.behind records, i'.2) := by
  simp only [visible, Prod.mk.injEq] at h
  obtain ⟨hresult, hattempts, hworld⟩ := h
  simp [visible, Invocation.behind, hresult, hattempts, hworld]

lemma visible_map {o o' : Option (Invocation σ × World σ)} (h : o.map visible = o'.map visible)
    {f : Invocation σ × World σ → Invocation σ × World σ}
    (hf : ∀ i i', visible i = visible i' → visible (f i) = visible (f i')) :
    (o.map f).map visible = (o'.map f).map visible := by
  cases o with
  | none =>
    cases o' with
    | none => rfl
    | some i' => simp at h
  | some i =>
    cases o' with
    | none => simp at h
    | some i' =>
      simp only [Option.map_some, Option.some.injEq] at h
      exact congrArg some (hf i i' h)

lemma attempt_withCollaborators {index : Nat} {state : Payload}
    (h : a.permissions.Agree e.collaborators ambient) :
    (e.withCollaborators ambient).attempt request dir index state a w =
      e.attempt request dir index state a w := by
  have hc : (ContextBuilder.mk ambient e.uiBaseUrl).step a.permissions request dir a.step
      a.record.stepAlias state = (ContextBuilder.mk e.collaborators e.uiBaseUrl).step a.permissions
        request dir a.step a.record.stepAlias state := by
    simp only [ContextBuilder.step, h.restrict_eq]
  simp only [attempt, withCollaborators, hc]

/-- Where no time is left for an attempt no runner is called, and only the context depends on the collaborators. -/
lemma attempt_of_exhausted {index : Nat} {state : Payload} (h : a.limit? e.defaults w = none) :
    ∃ (t : Attempt σ) (w' : World σ), t.invoked = false ∧ t.succeeded = false ∧
      ∀ c, ∃ context : StepContext σ, context.stepAlias = t.context.stepAlias ∧
        (e.withCollaborators c).attempt request dir index state a w = some ({ t with context }, w') := by
  obtain ⟨timeout, hinvoke⟩ := Assignment.invoke_of_exhausted h
  refine ⟨⟨index, a.contextAt e request dir ⟨index, state, [a], w⟩, w.now.1, a.windowStart w.now.1,
    a.timeout e.defaults, a.threshold e.defaults, false, .timedOut timeout, w.signal.cause, _⟩, _,
    rfl, rfl, fun c => ⟨a.contextAt (e.withCollaborators c) request dir ⟨index, state, [a], w⟩, rfl,
      Option.bind_eq_some_iff.mpr ⟨_, hinvoke _, rfl⟩⟩⟩

theorem walk_withCollaborators {index : Nat} {state : Payload} {left : List (Assignment σ)}
    (h : ∀ q a, e.Calls request dir ⟨index, state, left, w⟩ q a →
      a.permissions.Agree e.collaborators ambient) :
    ((e.withCollaborators ambient).walk request dir index state left w).map visible =
      (e.walk request dir index state left w).map visible := by
  induction left generalizing index state w with
  | nil => rfl
  | cons a rest ih =>
    simp only [walk]
    cases hc : w.signal.cause with
    | some cause => rfl
    | none =>
      cases hl : a.limit? e.defaults w with
      | some limit =>
        rw [attempt_withCollaborators (h _ a ⟨[], rest, limit, .here _, rfl, hc, hl⟩)]
        cases ht : e.attempt request dir index state a w with
        | none => rfl
        | some made =>
          obtain ⟨t, w₁⟩ := made
          have hmade := makes_of_attempt ht
          simp only [Option.bind_eq_bind, Option.bind_some]
          cases hf : t.follow a.record with
          | stop => rfl
          | advance r result =>
            have hs := Attempt.succeeded_of_follow hf
            rw [Attempt.follow_of_succeeded hs hmade.stepAlias, Move.advance.injEq] at hf
            obtain ⟨rfl, rfl⟩ := hf
            have hlater : ((e.withCollaborators ambient).walk request dir (index + 1)
                (t.publish state) rest w₁).map visible =
                (e.walk request dir (index + 1) (t.publish state) rest w₁).map visible := by
              refine ih ?_
              rintro q b ⟨done, rest', limit, hp, hcall⟩
              exact h q b ⟨t :: done, rest', limit, .pass rfl hc hmade hs hp, hcall⟩
            rw [Attempt.publish, hmade.stepAlias] at hlater
            have hmap := visible_map hlater fun i i' hi =>
              visible_through hi t t.closed t.result.healthCheck
            simp only [Option.map_eq_bind] at hmap ⊢
            exact hmap
      | none =>
        obtain ⟨t, w₁, hinvoked, hs, hattempt⟩ := attempt_of_exhausted hl
        obtain ⟨context, halias, ht⟩ := hattempt ambient
        obtain ⟨context', halias', ht'⟩ := hattempt e.collaborators
        have ht' : e.attempt request dir index state a w = _ := ht'
        have hf := Attempt.follow_context halias a.record
        have hf' := Attempt.follow_context halias' a.record
        rw [ht, ht']
        simp only [Option.bind_eq_bind, Option.bind_some, hf, hf']
        cases hstop : t.follow a.record with
        | stop => simp [visible, hinvoked]
        | advance => simp [Attempt.succeeded_of_follow hstop] at hs

lemma assign_withCollaborators (index : Nat) (pairs : List (Step × StepRecord)) :
    (e.withCollaborators ambient).assign index pairs = e.assign index pairs := by
  induction pairs generalizing index with
  | nil => rfl
  | cons pair rest ih =>
    simp only [assign, ih]
    rfl

theorem promote_withCollaborators
    (h : ∀ dir done p a limit, e.Starts request steps w dir done p a →
      a.limit? e.defaults p.world = some limit → a.permissions.Agree e.collaborators ambient) :
    ((e.withCollaborators ambient).promote request steps w).map visible =
      (e.promote request steps w).map visible := by
  simp only [promote, assign_withCollaborators]
  split
  · rfl
  · next hv =>
    split
    · rfl
    · next hs =>
      cases ha : e.assign request.startFromStep
          (((steps.zip (StepRecord.normalize request.records steps))).drop request.startFromStep) with
      | error u => rfl
      | ok left =>
        have hd : (e.withCollaborators ambient).workDir request w = e.workDir request w := by
          simp only [workDir, withCollaborators]
        simp only [hd]
        cases hdir : e.workDir request w with
        | mk made w₀ =>
          cases made with
          | error setback => rfl
          | ok dir =>
            have hadmits : e.Admits request steps w left dir w₀ :=
              ⟨by simpa using hv, Nat.not_lt.mp hs, ha, hdir⟩
            have hwalk : ((e.withCollaborators ambient).walk request dir request.startFromStep
                request.state left w₀).map visible =
                (e.walk request dir request.startFromStep request.state left w₀).map visible := by
              refine walk_withCollaborators ?_
              rintro q a ⟨done, rest, limit, hp, hleft, hidle, hl⟩
              exact h dir done q a limit ⟨⟨left, w₀, hadmits, hp⟩, ⟨rest, hleft⟩, hidle⟩ hl
            have hbehind := visible_map hwalk fun i i' hi =>
              visible_behind hi ((StepRecord.normalize request.records steps).take request.startFromStep)
            exact hbehind

/-! ### Health checks -/

theorem runChecks_withCollaborators {project stage : String} {criteria : List Criterion}
    (h : ∀ visits c rest w₁ checker permissions, criteria = visits.map Visit.criterion ++ c :: rest →
      e.Visits project stage w visits w₁ → w₁.signal.cause = none →
      e.registry.healthChecker c.kind = some (checker, permissions) →
      permissions.Agree e.collaborators ambient) :
    (e.withCollaborators ambient).runChecks project stage criteria w =
      e.runChecks project stage criteria w := by
  induction criteria generalizing w with
  | nil => rfl
  | cons c rest ih =>
    have hregistry : (e.withCollaborators ambient).registry = e.registry := rfl
    simp only [runChecks, hregistry]
    cases hidle : w.signal.cause with
    | some cause => rfl
    | none =>
      cases hkind : e.registry.healthChecker c.kind with
      | none =>
        have hrest := ih (w := w) fun visits d left w₁ checker permissions hsplit hvisits =>
          h _ d left w₁ checker permissions (by rw [hsplit]; rfl) (.unknown hidle hkind hvisits)
        simp only [hrest]
      | some found =>
        obtain ⟨checker, permissions⟩ := found
        have hagree := h [] c rest w checker permissions rfl (.none w) hidle hkind
        have hcontext : (ContextBuilder.mk (e.withCollaborators ambient).collaborators "").check
            permissions { c with project, stage } = e.checkContext project stage c permissions := by
          simp [ContextBuilder.check, checkContext, withCollaborators, hagree.restrict_eq]
        have hcontext' : (ContextBuilder.mk e.collaborators "").check permissions
            { c with project, stage } = e.checkContext project stage c permissions := rfl
        simp only [hcontext, hcontext']
        cases hrun : (checker.check (e.checkContext project stage c permissions)).run none w with
        | mk ending w₁ =>
          cases ending with
          | answered result =>
            have hrest := ih (w := w₁) fun visits d left w₂ checker' permissions' hsplit hvisits =>
              h _ d left w₂ checker' permissions' (by rw [hsplit]; rfl)
                (.checked hidle hkind hrun hvisits)
            simp only [hrest]
          | cutOff => rfl
          | stuck => rfl

lemma Visits.exists_checkCall {project stage : String} {visits : List (Visit σ)}
    (h : e.Visits project stage w visits w') {context : CheckContext σ}
    (hc : context ∈ visits.filterMap Visit.context) (rest : List Criterion) :
    ∃ kind, e.CheckCall project stage (visits.map Visit.criterion ++ rest) w kind context := by
  induction h with
  | none => cases hc
  | unknown hidle hkind _ ih =>
    obtain ⟨kind, earlier, c, left, w₁, checker, permissions, hsplit, hvisits, hcall⟩ := ih hc
    exact ⟨kind, _, c, left, w₁, checker, permissions, by rw [List.map_cons, List.cons_append, hsplit]; rfl,
      .unknown hidle hkind hvisits, hcall⟩
  | @checked w w₁ w' c checker permissions result visits hidle hkind hrun _ ih =>
    simp only [List.filterMap_cons, List.mem_cons] at hc
    rcases hc with rfl | hc
    · exact ⟨c.kind, [], c, _, w, checker, permissions, rfl, .none w, hidle, rfl, hkind, rfl⟩
    · obtain ⟨kind, earlier, d, left, w₂, checker', permissions', hsplit, hvisits, hcall⟩ := ih hc
      exact ⟨kind, _, d, left, w₂, checker', permissions',
        by rw [List.map_cons, List.cons_append, hsplit]; rfl,
        .checked hidle hkind hrun hvisits, hcall⟩

/-! ### Both together -/

lemma StepCall.scoped {registrations : List (String × Registration σ)} (hr : e.registry.Holds registrations)
    {kind : String} {context : StepContext σ}
    (h : e.StepCall request steps w kind context) :
    ∃ last, Registration.last? registrations kind = some last ∧
      context.grants.Scoped last.permissions e.collaborators := by
  obtain ⟨dir, done, p, a, limit, hstarts, _, rfl, rfl⟩ := h
  obtain ⟨last, hlast, hp⟩ := Registry.last?_of_stepRunner hr hstarts.assigned.runner_eq
  exact ⟨last, hlast, hp ▸ Grants.restrict_scoped _ _⟩

lemma CheckCall.scoped {registrations : List (String × Registration σ)} (hr : e.registry.Holds registrations)
    {project stage : String}
    {criteria : List Criterion} {kind : String} {context : CheckContext σ}
    (h : e.CheckCall project stage criteria w kind context) :
    ∃ last, Registration.last? registrations kind = some last ∧
      context.grants.Scoped last.permissions e.collaborators := by
  obtain ⟨visits, c, rest, w₁, checker, permissions, _, _, _, rfl, hkind, rfl⟩ := h
  obtain ⟨last, hlast, hp⟩ := Registry.last?_of_healthChecker hr hkind
  exact ⟨last, hlast, hp ▸ Grants.restrict_scoped _ _⟩

theorem least_privilege (registrations : List (String × Registration σ)) (e : Engine σ)
    (hr : e.registry = .registerAll .empty registrations) :
    (∀ request steps w kind context, e.StepCall request steps w kind context →
      ∃ last, Registration.last? registrations kind = some last ∧
        context.grants.Scoped last.permissions e.collaborators) ∧
    (∀ request steps w i w', e.promote request steps w = some (i, w') →
      ∀ t ∈ i.attempts, t.invoked = true →
        ∃ step, steps[t.index]? = some step ∧ e.StepCall request steps w step.kind t.context) ∧
    (∀ project stage criteria w kind context, e.CheckCall project stage criteria w kind context →
      ∃ last, Registration.last? registrations kind = some last ∧
        context.grants.Scoped last.permissions e.collaborators) ∧
    (∀ project stage criteria w run w', e.runChecks project stage criteria w = some (run, w') →
      ∀ context ∈ run.contexts, ∃ kind, e.CheckCall project stage criteria w kind context) ∧
    (∀ ambient request steps w,
      (∀ kind context last, e.StepCall request steps w kind context →
        Registration.last? registrations kind = some last →
          last.permissions.Agree e.collaborators ambient) →
      ((e.withCollaborators ambient).promote request steps w).map visible =
        (e.promote request steps w).map visible) ∧
    ∀ ambient project stage criteria w,
      (∀ kind context last, e.CheckCall project stage criteria w kind context →
        Registration.last? registrations kind = some last →
          last.permissions.Agree e.collaborators ambient) →
      (e.withCollaborators ambient).runChecks project stage criteria w =
          e.runChecks project stage criteria w ∧
        (e.withCollaborators ambient).checkHealth project stage criteria w =
          e.checkHealth project stage criteria w := by
  replace hr : e.registry.Holds registrations := hr ▸ Registry.Holds.empty.registerAll registrations
  refine ⟨?_, ?_, ?_, ?_, ?_, ?_⟩
  · exact fun _ _ _ _ _ h => h.scoped hr
  · exact fun _ _ _ _ _ h _ ht hi => stepCall_of_invoked h ht hi
  · exact fun _ _ _ _ _ _ h => h.scoped hr
  · intro project stage criteria w run w' h context hc
    obtain ⟨visits, rest, _, rfl, hvisits, _, hcontexts, _⟩ := visits_of_runChecks h
    exact hvisits.exists_checkCall (hcontexts ▸ hc) rest
  · intro ambient request steps w h
    apply promote_withCollaborators
    intro dir done p a limit hstarts hl
    obtain ⟨last, hlast, hp⟩ := Registry.last?_of_stepRunner hr hstarts.assigned.runner_eq
    exact hp ▸ h _ _ last ⟨dir, done, p, a, limit, hstarts, hl, rfl, rfl⟩ hlast
  · intro ambient project stage criteria w h
    have hrun : (e.withCollaborators ambient).runChecks project stage criteria w =
        e.runChecks project stage criteria w := by
      apply runChecks_withCollaborators
      intro visits c rest w₁ checker permissions hsplit hvisits hidle hkind
      obtain ⟨last, hlast, hp⟩ := Registry.last?_of_healthChecker hr hkind
      exact hp ▸ h _ _ last
        ⟨visits, c, rest, w₁, checker, permissions, hsplit, hvisits, hidle, rfl, hkind, rfl⟩ hlast
    exact ⟨hrun, by simp only [checkHealth, hrun]⟩

end Engine

/-! ### A kind that is registered twice -/

namespace Demotion

def runner : StepRunner Unit where
  run context := .answer (.ok {
    status := .succeeded
    message := (context.grants.primary <|> context.grants.target).map (·.name) })

def registrations : List (String × Registration Unit) :=
  [("sync", { runner := { step := some runner }, permissions := .all }),
    ("sync", { runner := { step := some runner }, permissions := { target := true } })]

def client (name : String) : ClusterClient Unit :=
  ⟨name, fun _ _ => none, fun _ _ memory => .ok memory⟩

def ambient (primary : String) : Collaborators Unit where
  primary := some (client primary)
  target := some (client "argo")

def engine : Engine Unit where
  registry := .registerAll .empty registrations
  collaborators := ambient "hub"
  workDirRoot := ⟨"/tmp"⟩

def steps : List Step := [{ kind := "sync" }]

def request : PromotionRequest where
  project := "payments"
  stage := "prod"
  promotion := "prod.01"
  workDir := some "/work"

def world : World Unit := ⟨0, .idle, (), default, fun _ => ⟨0, 0⟩, 0⟩

end Demotion

namespace Engine
open Demotion

theorem least_privilege_demoted :
    (∃ context, engine.StepCall request steps world "sync" context ∧
      context.grants.primary = none ∧ context.grants.target = some (client "argo")) ∧
    ((engine.withCollaborators (ambient "edge")).promote request steps world).map visible =
      (engine.promote request steps world).map visible := by
  obtain ⟨hscoped, hjournal, _, _, hagree, _⟩ := least_privilege registrations engine rfl
  have hlast (kind : String) (last : Registration Unit)
      (h : Registration.last? registrations kind = some last) :
      last.permissions = { target := true } := by
    by_cases hk : "sync" = kind
    · subst hk
      cases h
      rfl
    · simp [Registration.last?, registrations, hk] at h
  constructor
  · obtain ⟨i, w', t, h, ht, hi, hstep⟩ : ∃ i w' t, engine.promote request steps world = some (i, w') ∧
        t ∈ i.attempts ∧ t.invoked = true ∧ t.index = 0 := ⟨_, _, _, rfl, .head _, rfl, rfl⟩
    obtain ⟨step, hs, hcall⟩ := hjournal request steps world i w' h t ht hi
    rw [hstep] at hs
    cases hs
    obtain ⟨last, hl, hg⟩ := hscoped request steps world _ _ hcall
    rw [hlast _ _ hl] at hg
    refine ⟨t.context, hcall, ?_, (hg.target _).mpr ⟨rfl, rfl⟩⟩
    rw [Option.eq_none_iff_forall_ne_some]
    intro c hc
    simpa using ((hg.primary c).mp hc).1
  · apply hagree
    intro kind context last _ hl
    rw [hlast kind last hl]
    exact ⟨by simp, by simp, fun _ => rfl⟩

end Engine
end Delivery
