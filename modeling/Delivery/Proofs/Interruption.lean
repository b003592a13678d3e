import Delivery.Proofs.Behaviours

/-! The same behaviour in another world. As long as it is not cancelled it does again what it did, whatever the
time is and whatever deadlines there were; and if its result depends neither on the time nor on the signal, it
comes to the same wherever it is cancelled from outside. -/

namespace Delivery

variable {σ α : Type}

namespace Behaviour

/-- The second behaviour does what the first does and is cancelled from outside on the way, any number of times. -/
inductive Interrupted : Behaviour σ α → Behaviour σ α → Prop
  | answer (a : α) : Interrupted (.answer a) (.answer a)
  | fetch {k k' : σ → Behaviour σ α} (h : ∀ memory, Interrupted (k memory) (k' memory)) :
      Interrupted (.fetch k) (.fetch k')
  | store {rest rest' : Behaviour σ α} (memory : σ) (h : Interrupted rest rest') :
      Interrupted (.store memory rest) (.store memory rest')
  | sleep {rest rest' : Behaviour σ α} (length : Span) (h : Interrupted rest rest') :
      Interrupted (.sleep length rest) (.sleep length rest')
  | cancel {rest rest' : Behaviour σ α} (cause : Cause) (h : Interrupted rest rest') :
      Interrupted (.cancel cause rest) (.cancel cause rest')
  | poll {k k' : Option Cause → Behaviour σ α} (h : ∀ cause, Interrupted (k cause) (k' cause)) :
      Interrupted (.poll k) (.poll k')
  | awaitCancel {k k' : Cause → Behaviour σ α} (h : ∀ cause, Interrupted (k cause) (k' cause)) :
      Interrupted (.awaitCancel k) (.awaitCancel k')
  | interrupt {b b' : Behaviour σ α} (cause : Cause) (h : Interrupted b b') :
      Interrupted b (.cancel cause b')

lemma Interrupted.refl (b : Behaviour σ α) : b.Interrupted b := by
  induction b with
  | answer a => exact .answer a
  | fetch k ih => exact .fetch ih
  | store memory rest ih => exact .store memory ih
  | sleep length rest ih => exact .sleep length ih
  | cancel cause rest ih => exact .cancel cause ih
  | poll k ih => exact .poll ih
  | awaitCancel k ih => exact .awaitCancel ih

def Agree (x y : Ending α × World σ) : Prop := x.1 = y.1 ∧ x.2.memory = y.2.memory

/-- How the behaviour ends and what it leaves in the memory depends on the memory alone and on how much time it is
given; not on when that is, and not on whether and when it is cancelled. -/
def Oblivious (b : Behaviour σ α) : Prop :=
  ∀ b', b.Interrupted b' → ∀ (budget : Option Nat) (w w' : World σ), w'.memory = w.memory →
    Agree (b'.run (budget.map (w'.time + ·)) w') (b.run (budget.map (w.time + ·)) w)

/-- The behaviour never looks at the signal. -/
def Blind : Behaviour σ α → Prop
  | answer _ => True
  | fetch k => ∀ memory, (k memory).Blind
  | store _ rest => rest.Blind
  | sleep _ rest => rest.Blind
  | cancel _ rest => rest.Blind
  | poll _ => False
  | awaitCancel _ => False

def SameBudget (limit limit' : Option Nat) (w w' : World σ) : Prop :=
  limit.map (· + w'.time) = limit'.map (· + w.time)

variable {limit limit' : Option Nat} {w w' : World σ}

lemma sameBudget_map (budget : Option Nat) (w w' : World σ) :
    SameBudget (budget.map (w.time + ·)) (budget.map (w'.time + ·)) w w' := by
  cases budget with
  | none => rfl
  | some n =>
    simp only [SameBudget, Option.map_some, Option.some.injEq]
    omega

lemma SameBudget.advance (h : SameBudget limit limit' w w') (n : Nat) :
    SameBudget limit limit' (w.advance (w.time + n)) (w'.advance (w'.time + n)) := by
  cases limit <;> cases limit' <;>
    simp only [SameBudget, World.advance, Option.map_some, Option.map_none, Option.some.injEq,
      reduceCtorEq] at h ⊢
  omega

lemma SameBudget.wait (h : SameBudget limit limit' w w') (n : Nat) :
    (Behaviour.wait limit w (w.time + n) = (true, w.advance (w.time + n)) ∧
      Behaviour.wait limit' w' (w'.time + n) = (true, w'.advance (w'.time + n))) ∨
    ∃ l l', Behaviour.wait limit w (w.time + n) = (false, w.advance l) ∧
      Behaviour.wait limit' w' (w'.time + n) = (false, w'.advance l') := by
  cases limit with
  | none =>
    cases limit' with
    | none => exact .inl ⟨rfl, rfl⟩
    | some l' => simp [SameBudget] at h
  | some l =>
    cases limit' with
    | none => simp [SameBudget] at h
    | some l' =>
      simp only [SameBudget, Option.map_some, Option.some.injEq] at h
      by_cases hl : l < w.time + n
      · have hl' : l' < w'.time + n := by omega
        exact .inr ⟨l, l', by simp only [Behaviour.wait, if_pos hl],
          by simp only [Behaviour.wait, if_pos hl']⟩
      · have hl' : ¬ l' < w'.time + n := by omega
        exact .inl ⟨by simp only [Behaviour.wait, if_neg hl], by simp only [Behaviour.wait, if_neg hl']⟩

lemma Blind.agree {b b' : Behaviour σ α} (hb : b.Blind) (hi : b.Interrupted b')
    (hbudget : SameBudget limit limit' w w') (hm : w'.memory = w.memory) :
    Agree (b'.run limit' w') (b.run limit w) := by
  induction hi generalizing w w' with
  | answer a => exact ⟨rfl, hm⟩
  | fetch _ ih =>
    simp only [run, hm]
    exact ih _ (hb _) hbudget hm
  | store memory _ ih => exact ih hb hbudget rfl
  | sleep length _ ih =>
    simp only [run]
    split
    · exact ih hb hbudget hm
    · rcases hbudget.wait length.nanoseconds with ⟨hw, hw'⟩ | ⟨l, l', hw, hw'⟩
      · rw [hw, hw']
        exact ih hb (hbudget.advance _) hm
      · rw [hw, hw']
        exact ⟨rfl, hm⟩
  | cancel cause _ ih => exact ih hb hbudget hm
  | poll => exact hb.elim
  | awaitCancel => exact hb.elim
  | interrupt cause _ ih => exact ih hb hbudget hm

theorem Blind.oblivious {b : Behaviour σ α} (h : b.Blind) : b.Oblivious :=
  fun _ hi budget w w' hm => h.agree hi (sameBudget_map budget w w') hm

/-! ### Once more without a cancellation -/

structure Again (limit limit' : Option Nat) (s r : Stage σ α) : Prop where
  behaviour : r.1 = s.1
  memory : r.2.memory = s.2.memory
  budget : SameBudget limit limit' s.2 r.2
  idle : r.2.signal = .idle

lemma Acts.again {s s' r : Stage σ α} (h : Acts limit s s') (ha : Again limit limit' s r)
    (hs : s'.2.signal.cause = none) : ∃ r', Acts limit' r r' ∧ Again limit limit' s' r' := by
  obtain ⟨b, w'⟩ := r
  obtain ⟨hb, hm, hbudget, hidle⟩ := ha
  dsimp only at hb hm hbudget hidle
  cases h with
  | fetch =>
    subst hb
    exact ⟨_, .fetch, by rw [hm], hm, hbudget, hidle⟩
  | store =>
    subst hb
    exact ⟨_, .store, rfl, rfl, hbudget, hidle⟩
  | doze h0 =>
    subst hb
    exact ⟨_, .doze h0, rfl, hm, hbudget, hidle⟩
  | @sleep length rest w h0 hl =>
    subst hb
    refine ⟨_, .sleep h0 ?_, rfl, hm, hbudget.advance _, by rw [World.advance, hidle]; rfl⟩
    intro l' hl'
    obtain rfl : limit' = some l' := hl'
    cases limit with
    | none => simp [SameBudget] at hbudget
    | some l =>
      have hle := hl l rfl
      simp only [SameBudget, Option.map_some, Option.some.injEq] at hbudget
      omega
  | cancel => simp [World.cancel, Signal.cancel_cause] at hs
  | poll =>
    subst hb
    dsimp only at hs
    exact ⟨_, .poll, by rw [hs, hidle]; rfl, hm, hbudget, hidle⟩
  | notice hc => simp [hc] at hs
  | awaitDeadline => simp [World.cancel, Signal.cancel_cause] at hs

lemma Reaches.again {s s' r : Stage σ α} (h : Reaches limit s s') (ha : Again limit limit' s r)
    (hs : s'.2.signal.cause = none) : ∃ r', Reaches limit' r r' ∧ Again limit limit' s' r' := by
  induction h with
  | refl => exact ⟨r, .refl, ha⟩
  | @tail mid last _ hact ih =>
    have hmid : mid.2.signal.cause = none := by
      by_contra hn
      obtain ⟨cause, hc⟩ := Option.ne_none_iff_exists'.mp hn
      simp [hact.cause hc] at hs
    obtain ⟨r₁, hr₁, ha₁⟩ := ih hmid
    obtain ⟨r₂, hr₂, ha₂⟩ := hact.again ha₁ hs
    exact ⟨r₂, hr₁.tail hr₂, ha₂⟩

lemma Ceases.again {s r : Stage σ α} {x : Ending α × World σ} (h : Ceases limit s x)
    (ha : Again limit limit' s r) :
    Agree (r.1.run limit' r.2) x ∧ (r.1.run limit' r.2).2.signal = .idle := by
  obtain ⟨b, w'⟩ := r
  obtain ⟨hb, hm, hbudget, hidle⟩ := ha
  dsimp only at hb hm hbudget hidle
  subst hb
  cases h with
  | answer => exact ⟨⟨rfl, hm⟩, hidle⟩
  | @overslept length rest w l hlimit h0 hl =>
    subst hlimit
    simp only [run, if_neg h0]
    rcases hbudget.wait length.nanoseconds with ⟨hw, _⟩ | ⟨_, l', _, hw'⟩
    · simp [Behaviour.wait, hl] at hw
    · rw [hw']
      exact ⟨⟨rfl, hm⟩, by rw [World.advance, hidle]; rfl⟩
  | @unheard k _ _ hlimit =>
    subst hlimit
    cases limit' with
    | none => simp [SameBudget] at hbudget
    | some l' =>
      have hrun : (awaitCancel k).run (some l') w' = (.cutOff, w'.advance l') := by
        rw [run_awaitCancel, hidle]
        rfl
      rw [hrun]
      exact ⟨⟨rfl, hm⟩, by rw [World.advance, hidle]; rfl⟩
  | @stuck k _ hlimit =>
    subst hlimit
    cases limit' with
    | none =>
      have hrun : (awaitCancel k).run none w' = (.stuck, w') := by
        rw [run_awaitCancel, hidle]
        rfl
      rw [hrun]
      exact ⟨⟨rfl, hm⟩, hidle⟩
    | some l' => simp [SameBudget] at hbudget

lemma Ceases.cause {s : Stage σ α} {x : Ending α × World σ} (h : Ceases limit s x) {cause : Cause}
    (hc : s.2.signal.cause = some cause) : x.2.signal.cause = some cause := by
  cases h with
  | answer => exact hc
  | overslept => exact Signal.advance_cause hc _
  | unheard _ hn => simp [hn] at hc
  | stuck _ hn => simp [hn] at hc

theorem run_again {b : Behaviour σ α} (hbudget : SameBudget limit limit' w w')
    (hm : w'.memory = w.memory) (hidle : w'.signal = .idle)
    (hs : (b.run limit w).2.signal.cause = none) :
    Agree (b.run limit' w') (b.run limit w) ∧ (b.run limit' w').2.signal = .idle := by
  obtain ⟨s, hr, he⟩ := run_course limit b w
  have hlast : s.2.signal.cause = none := by
    by_contra hn
    obtain ⟨cause, hc⟩ := Option.ne_none_iff_exists'.mp hn
    simp [he.cause hc] at hs
  obtain ⟨r, hr', ha⟩ := hr.again (r := (b, w')) ⟨rfl, hm, hbudget, hidle⟩ hlast
  have hend := he.again ha
  rwa [← hr'.run_eq] at hend

/-! ### Files -/

lemma Acts.files {s s' : Stage σ α} (h : Acts limit s s') : s'.2.files = s.2.files := by
  cases h <;> rfl

theorem run_files (limit : Option Nat) (b : Behaviour σ α) (w : World σ) :
    (b.run limit w).2.files = w.files := by
  obtain ⟨s, hr, he⟩ := run_course limit b w
  have hfiles : s.2.files = w.files := by
    clear he
    induction hr with
    | refl => rfl
    | tail _ hact ih => exact hact.files.trans ih
  generalize b.run limit w = x at he
  cases he <;> exact hfiles

end Behaviour
end Delivery
