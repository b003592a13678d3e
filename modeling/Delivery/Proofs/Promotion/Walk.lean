import Delivery.Promotion.Run
import Delivery.Proofs.Promotion.Attempts

/-! The run of a promotion's steps. It passes steps that succeed, each once and in order, and then it ends: no
step is left, the promotion is cancelled, or the attempt of a step stops it. Or else a step keeps it waiting. -/

namespace Delivery

variable {σ : Type}

structure Place (σ : Type) where
  index : Nat
  state : Payload
  left : List (Assignment σ)
  world : World σ

def Attempt.publishAll (done : List (Attempt σ)) (state : Payload) : Payload :=
  done.foldl (fun state t => t.publish state) state

def Invocation.after (i : Invocation σ) (done : List (Attempt σ)) : Invocation σ where
  result :=
    { i.result with
      records := done.map Attempt.closed ++ i.result.records
      healthChecks := done.filterMap (·.result.healthCheck) ++ i.result.healthChecks }
  attempts := done ++ i.attempts

lemma Invocation.after_cons (i : Invocation σ) (t : Attempt σ) (done : List (Attempt σ)) :
    i.after (t :: done) = (i.after done).through t t.closed t.result.healthCheck := by
  cases h : t.result.healthCheck <;> simp [after, through, h]

lemma Invocation.records_after_behind (i : Invocation σ) (done : List (Attempt σ))
    (earlier : List StepRecord) : ((i.after done).behind earlier).result.records =
      earlier ++ (done.map Attempt.closed ++ i.result.records) := rfl

namespace Engine

variable (e : Engine σ) (request : PromotionRequest) (dir : String)

inductive Passes : Place σ → List (Attempt σ) → Place σ → Prop
  | here (p : Place σ) : Passes p [] p
  | pass {p q : Place σ} {a : Assignment σ} {rest : List (Assignment σ)} {t : Attempt σ}
      {w : World σ} {done : List (Attempt σ)} (hleft : p.left = a :: rest)
      (hidle : p.world.signal.cause = none)
      (hmade : e.Makes request dir p.index p.state a p.world t w) (hs : t.succeeded = true)
      (hrest : Passes ⟨p.index + 1, t.publish p.state, rest, w⟩ done q) : Passes p (t :: done) q

inductive Ends (p : Place σ) : Invocation σ → World σ → Prop
  | completed (hleft : p.left = []) :
      Ends p (.stopped .succeeded none p.index p.state []) p.world
  | canceled {a : Assignment σ} {rest : List (Assignment σ)} {cause : Cause}
      (hleft : p.left = a :: rest) (hc : p.world.signal.cause = some cause) :
      Ends p (.errored (.canceled cause) p.index p.state (p.left.map (·.record))) p.world
  | halted {a : Assignment σ} {rest : List (Assignment σ)} {t : Attempt σ} {w : World σ}
      {status : Status} {message : Option String} {r : StepRecord} (hleft : p.left = a :: rest)
      (hidle : p.world.signal.cause = none)
      (hmade : e.Makes request dir p.index p.state a p.world t w)
      (hstop : t.follow a.record = .stop status message r) :
      Ends p
        { result := (Invocation.stopped (σ := σ) status message p.index p.state
            (r :: rest.map (·.record))).result
          attempts := [t] } w

def Waits (p : Place σ) : Prop :=
  ∃ a rest, p.left = a :: rest ∧ p.world.signal.cause = none ∧
    e.attempt request dir p.index p.state a p.world = none

variable {e : Engine σ} {request : PromotionRequest} {dir : String}

theorem walk_ends {index : Nat} {state : Payload} {left : List (Assignment σ)} {w w' : World σ}
    {i : Invocation σ} (h : e.walk request dir index state left w = some (i, w')) :
    ∃ done q last, e.Passes request dir ⟨index, state, left, w⟩ done q ∧
      e.Ends request dir q last w' ∧ i = last.after done := by
  induction left generalizing index state w i with
  | nil =>
    simp only [walk, Option.some.injEq, Prod.mk.injEq] at h
    obtain ⟨rfl, rfl⟩ := h
    exact ⟨[], _, _, .here _, .completed rfl, rfl⟩
  | cons a rest ih =>
    simp only [walk] at h
    split at h
    · next cause hc =>
      simp only [Option.some.injEq, Prod.mk.injEq] at h
      obtain ⟨rfl, rfl⟩ := h
      exact ⟨[], _, _, .here _, .canceled rfl hc, rfl⟩
    · next hidle =>
      simp only [Option.bind_eq_bind, Option.bind_eq_some_iff] at h
      obtain ⟨⟨t, w₁⟩, ht, h⟩ := h
      have hmade := makes_of_attempt ht
      split at h
      · next status message r hstop =>
        simp only [Option.pure_def, Option.some.injEq, Prod.mk.injEq] at h
        obtain ⟨rfl, rfl⟩ := h
        exact ⟨[], _, _, .here _, .halted rfl hidle hmade hstop, rfl⟩
      · next r result hadvance =>
        have hs := Attempt.succeeded_of_follow hadvance
        rw [Attempt.follow_of_succeeded hs hmade.stepAlias, Move.advance.injEq] at hadvance
        obtain ⟨rfl, rfl⟩ := hadvance
        obtain ⟨⟨later, w₂⟩, hlater, h⟩ := Option.bind_eq_some_iff.mp h
        simp only [Option.pure_def, Option.some.injEq, Prod.mk.injEq] at h
        obtain ⟨rfl, rfl⟩ := h
        rw [← hmade.stepAlias] at hlater
        obtain ⟨done, q, last, hp, he, rfl⟩ := ih hlater
        exact ⟨t :: done, q, last, .pass rfl hidle hmade hs hp, he, (last.after_cons t done).symm⟩

theorem walk_waits {index : Nat} {state : Payload} {left : List (Assignment σ)} {w : World σ}
    (h : e.walk request dir index state left w = none) :
    ∃ done q, e.Passes request dir ⟨index, state, left, w⟩ done q ∧ e.Waits request dir q := by
  induction left generalizing index state w with
  | nil => simp [walk] at h
  | cons a rest ih =>
    simp only [walk] at h
    split at h
    · simp at h
    · next hidle =>
      cases ht : e.attempt request dir index state a w with
      | none => exact ⟨[], _, .here _, a, rest, rfl, hidle, ht⟩
      | some made =>
        obtain ⟨t, w₁⟩ := made
        have hmade := makes_of_attempt ht
        simp only [ht, Option.bind_eq_bind, Option.bind_some] at h
        split at h
        · simp at h
        · next r result hadvance =>
          have hs := Attempt.succeeded_of_follow hadvance
          rw [Attempt.follow_of_succeeded hs hmade.stepAlias, Move.advance.injEq] at hadvance
          obtain ⟨rfl, rfl⟩ := hadvance
          simp only [Option.bind_eq_none_iff, Option.pure_def] at h
          have hlater : e.walk request dir (index + 1) (t.publish state) rest w₁ = none := by
            rw [Attempt.publish, hmade.stepAlias]
            by_contra hn
            obtain ⟨later, hlater⟩ := Option.ne_none_iff_exists'.mp hn
            simpa using h later hlater
          obtain ⟨done, q, hp, hq⟩ := ih hlater
          exact ⟨t :: done, q, .pass rfl hidle hmade hs hp, hq⟩

variable {p q : Place σ} {done : List (Attempt σ)}

theorem walk_of_ends {last : Invocation σ} {w : World σ} (hp : e.Passes request dir p done q)
    (he : e.Ends request dir q last w) :
    e.walk request dir p.index p.state p.left p.world = some (last.after done, w) := by
  induction hp with
  | here =>
    cases he with
    | completed hleft => rw [hleft]; rfl
    | canceled hleft hc =>
      rw [hleft]
      simp only [walk, hc]
      rfl
    | halted hleft hidle hmade hstop =>
      rw [hleft]
      simp only [walk, hidle, hmade.attempt_eq, Option.bind_eq_bind, Option.bind_some, hstop]
      rfl
  | pass hleft hidle hmade hs _ ih =>
    have hlater := ih he
    dsimp only at hlater
    rw [Attempt.publish, hmade.stepAlias] at hlater
    rw [hleft, last.after_cons]
    simp only [walk, hidle, hmade.attempt_eq, Option.bind_eq_bind, Option.bind_some,
      Attempt.follow_of_succeeded hs hmade.stepAlias, hlater]
    rfl

/-! ### The steps that are passed -/

namespace Passes

lemma index_eq (h : e.Passes request dir p done q) : q.index = p.index + done.length := by
  induction h with
  | here => rfl
  | pass _ _ _ _ _ ih =>
    simp only [ih, List.length_cons]
    omega

lemma concat (h : e.Passes request dir p done q) {a : Assignment σ} {rest : List (Assignment σ)}
    {t : Attempt σ} {w : World σ} (hleft : q.left = a :: rest) (hidle : q.world.signal.cause = none)
    (hmade : e.Makes request dir q.index q.state a q.world t w) (hs : t.succeeded = true) :
    e.Passes request dir p (done ++ [t]) ⟨q.index + 1, t.publish q.state, rest, w⟩ := by
  induction h with
  | here => exact .pass hleft hidle hmade hs (.here _)
  | pass hl hi hm ht _ ih => exact .pass hl hi hm ht (ih hleft hidle hmade)

lemma state_eq (h : e.Passes request dir p done q) :
    q.state = Attempt.publishAll done p.state := by
  induction h with
  | here => rfl
  | pass _ _ _ _ _ ih => exact ih

lemma left_eq (h : e.Passes request dir p done q) : q.left = p.left.drop done.length := by
  induction h with
  | here => rfl
  | pass hleft _ _ _ _ ih => rw [ih, hleft, List.length_cons, List.drop_succ_cons]

lemma length_le (h : e.Passes request dir p done q) : done.length ≤ p.left.length := by
  induction h with
  | here => exact Nat.zero_le _
  | pass hleft _ _ _ _ ih =>
    rw [hleft, List.length_cons, List.length_cons]
    exact Nat.succ_le_succ ih

lemma indices (h : e.Passes request dir p done q) :
    done.map (·.index) = List.range' p.index done.length := by
  induction h with
  | here => rfl
  | pass _ _ hmade _ _ ih =>
    simp only [List.map_cons, List.length_cons, List.range'_succ, hmade.index_eq, ih]

lemma succeeded (h : e.Passes request dir p done q) : ∀ t ∈ done, t.succeeded = true := by
  induction h with
  | here => simp
  | pass _ _ _ hs _ ih => simpa using ⟨hs, ih⟩

lemma made (h : e.Passes request dir p done q) {j : Nat} {t : Attempt σ} (ht : done[j]? = some t) :
    ∃ a w w', p.left[j]? = some a ∧ e.Makes request dir (p.index + j)
      (Attempt.publishAll (done.take j) p.state) a w t w' := by
  induction h generalizing j with
  | here => simp at ht
  | @pass p q a rest t₀ w₀ done hleft hidle hmade hs hrest ih =>
    cases j with
    | zero =>
      obtain rfl : t₀ = t := by simpa using ht
      exact ⟨a, p.world, w₀, by simp [hleft], hmade⟩
    | succ j =>
      obtain ⟨b, w, w', hb, hm⟩ := ih (by simpa using ht)
      refine ⟨b, w, w', by simpa [hleft] using hb, ?_⟩
      rw [Nat.add_right_comm, Nat.add_assoc] at hm
      exact hm

lemma index_of_getElem? (h : e.Passes request dir p done q) {j : Nat} {t : Attempt σ}
    (ht : done[j]? = some t) : t.index = p.index + j := by
  obtain ⟨a, w, w', _, hm⟩ := h.made ht
  exact hm.index_eq

lemma exists_place (h : e.Passes request dir p done q) {t : Attempt σ} (ht : t ∈ done) :
    ∃ earlier m a rest w', e.Passes request dir p earlier m ∧ m.left = a :: rest ∧
      m.world.signal.cause = none ∧ e.Makes request dir m.index m.state a m.world t w' := by
  induction h with
  | here => cases ht
  | pass hleft hidle hmade hs _ ih =>
    rcases List.mem_cons.mp ht with rfl | ht
    · exact ⟨[], _, _, _, _, .here _, hleft, hidle, hmade⟩
    · obtain ⟨earlier, m, b, rest, w', hp, hm⟩ := ih ht
      exact ⟨_, m, b, rest, w', .pass hleft hidle hmade hs hp, hm⟩

lemma invoked (h : e.Passes request dir p done q) : ∀ t ∈ done, t.invoked = true := by
  induction h with
  | here => simp
  | pass _ _ hmade hs _ ih => simpa using ⟨hmade.invoked_of_succeeded hs, ih⟩

end Passes

/-! ### The end -/

namespace Ends

variable {i : Invocation σ} {w : World σ}

lemma currentStep_eq (h : e.Ends request dir p i w) : i.result.currentStep = p.index := by
  cases h <;> rfl

lemma state_eq (h : e.Ends request dir p i w) : i.result.state = p.state := by
  cases h <;> rfl

lemma healthChecks_eq (h : e.Ends request dir p i w) : i.result.healthChecks = [] := by
  cases h <;> rfl

/-- At most one attempt more is made, of the next step, and it does not succeed. -/
lemma attempts_cases (h : e.Ends request dir p i w) :
    i.attempts = [] ∨ ∃ t a, i.attempts = [t] ∧ t.succeeded = false ∧ p.left.head? = some a ∧
      e.Makes request dir p.index p.state a p.world t w := by
  cases h with
  | completed => exact .inl rfl
  | canceled => exact .inl rfl
  | halted hleft _ hmade hstop =>
    exact .inr ⟨_, _, rfl, Attempt.not_succeeded_of_follow hstop, by rw [hleft]; rfl, hmade⟩

lemma left_of_succeeded (h : e.Ends request dir p i w) (hs : i.result.status = .succeeded) :
    p.left = [] := by
  cases h with
  | completed hleft => exact hleft
  | canceled => cases hs
  | halted _ _ _ hstop => exact absurd hs (Attempt.status_ne_of_follow hstop)

lemma attempts_elsewhere (h : e.Ends request dir p i w) {index : Nat}
    (hne : p.index ≠ index) :
    i.attempts.filter (·.index = index) = [] := by
  obtain hi | ⟨t, a, hi, _, _, hm⟩ := h.attempts_cases
  · rw [hi, List.filter_nil]
  · simpa [hi, hm.index_eq] using hne

lemma records_behind (h : e.Ends request dir p i w) (k : Nat) :
    i.result.records[k + 1]? = p.left[k + 1]?.map (·.record) := by
  rw [← List.getElem?_map]
  cases h with
  | completed hleft => rw [hleft]; rfl
  | canceled => rfl
  | halted hleft => rw [hleft]; rfl

end Ends
end Engine
end Delivery
