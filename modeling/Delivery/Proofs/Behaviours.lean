import Delivery.Behaviour
import Mathlib.Logic.Relation
import Mathlib.Tactic.Common

/-! The course of a behaviour: one action after another, and then an end. What is proved of one action holds along
the course: a cause of cancellation stays, deadlines stay, time does not go back. A limit makes a difference only
to a behaviour that is cut off at it. -/

namespace Delivery

variable {σ α : Type}

lemma Signal.idle_of_advance {s : Signal} {time : Nat} (h : (s.advance time).cause = none) :
    ∀ d ∈ s.deadlines, time ≤ d := by
  intro d hd
  by_contra hn
  have hany : s.deadlines.any (· < time) = true :=
    List.any_eq_true.mpr ⟨d, hd, by simpa using hn⟩
  simp [advance, hany, cancel_cause] at h

@[simp] lemma Signal.advance_deadlines (s : Signal) (time : Nat) :
    (s.advance time).deadlines = s.deadlines := by
  rw [advance]
  split <;> rfl

namespace Behaviour

abbrev Stage (σ α : Type) : Type := Behaviour σ α × World σ

/-- One action of a behaviour, under a limit of virtual time. -/
inductive Acts (limit : Option Nat) : Stage σ α → Stage σ α → Prop
  | fetch {k : σ → Behaviour σ α} {w : World σ} : Acts limit (.fetch k, w) (k w.memory, w)
  | store {memory : σ} {rest : Behaviour σ α} {w : World σ} :
      Acts limit (.store memory rest, w) (rest, { w with memory })
  | doze {length : Span} {rest : Behaviour σ α} {w : World σ} (h : length.nanoseconds = 0) :
      Acts limit (.sleep length rest, w) (rest, w)
  | sleep {length : Span} {rest : Behaviour σ α} {w : World σ} (h : length.nanoseconds ≠ 0)
      (hl : ∀ l ∈ limit, w.time + length.nanoseconds ≤ l) :
      Acts limit (.sleep length rest, w) (rest, w.advance (w.time + length.nanoseconds))
  | cancel {cause : Cause} {rest : Behaviour σ α} {w : World σ} :
      Acts limit (.cancel cause rest, w) (rest, w.cancel cause)
  | poll {k : Option Cause → Behaviour σ α} {w : World σ} :
      Acts limit (.poll k, w) (k w.signal.cause, w)
  | notice {k : Cause → Behaviour σ α} {w : World σ} {cause : Cause}
      (hc : w.signal.cause = some cause) : Acts limit (.awaitCancel k, w) (k cause, w)
  | awaitDeadline {k : Cause → Behaviour σ α} {w : World σ} {deadline : Nat}
      (hc : w.signal.cause = none) (hd : w.signal.firstDeadline? = some deadline)
      (hl : ∀ l ∈ limit, max w.time deadline < l) :
      Acts limit (.awaitCancel k, w)
        (k .deadlineExceeded, (w.advance (max w.time deadline)).cancel .deadlineExceeded)

inductive Ceases (limit : Option Nat) : Stage σ α → Ending α × World σ → Prop
  | answer {a : α} {w : World σ} : Ceases limit (.answer a, w) (.answered a, w)
  | overslept {length : Span} {rest : Behaviour σ α} {w : World σ} {l : Nat} (hlimit : limit = some l)
      (h : length.nanoseconds ≠ 0) (hl : l < w.time + length.nanoseconds) :
      Ceases limit (.sleep length rest, w) (.cutOff, w.advance l)
  | unheard {k : Cause → Behaviour σ α} {w : World σ} {l : Nat} (hlimit : limit = some l)
      (hc : w.signal.cause = none) (hl : ∀ d ∈ w.signal.firstDeadline?, l ≤ max w.time d) :
      Ceases limit (.awaitCancel k, w) (.cutOff, w.advance l)
  | stuck {k : Cause → Behaviour σ α} {w : World σ} (hlimit : limit = none)
      (hc : w.signal.cause = none) (hd : w.signal.firstDeadline? = none) :
      Ceases limit (.awaitCancel k, w) (.stuck, w)

abbrev Reaches (limit : Option Nat) : Stage σ α → Stage σ α → Prop :=
  Relation.ReflTransGen (Acts limit)

variable {limit : Option Nat} {s s' : Stage σ α}

lemma run_awaitCancel (limit : Option Nat) (k : Cause → Behaviour σ α) (w : World σ) :
    (awaitCancel k).run limit w =
      match w.signal.cause with
      | some cause => (k cause).run limit w
      | none =>
        match w.signal.firstDeadline?, limit with
        | some deadline, some l =>
          if max w.time deadline < l then
            (k .deadlineExceeded).run (some l)
              ((w.advance (max w.time deadline)).cancel .deadlineExceeded)
          else (.cutOff, w.advance l)
        | some deadline, none =>
          (k .deadlineExceeded).run none
            ((w.advance (max w.time deadline)).cancel .deadlineExceeded)
        | none, some l => (.cutOff, w.advance l)
        | none, none => (.stuck, w) :=
  (run.eq_def limit (awaitCancel k) w).trans rfl

theorem run_course (limit : Option Nat) (b : Behaviour σ α) (w : World σ) :
    ∃ s, Reaches limit (b, w) s ∧ Ceases limit s (b.run limit w) := by
  induction b generalizing w with
  | answer a => exact ⟨_, .refl, .answer⟩
  | fetch k ih =>
    obtain ⟨s, hr, he⟩ := ih w.memory w
    exact ⟨s, .head .fetch hr, he⟩
  | store memory rest ih =>
    obtain ⟨s, hr, he⟩ := ih { w with memory }
    exact ⟨s, .head .store hr, he⟩
  | sleep length rest ih =>
    simp only [run]
    split
    · next h0 =>
      obtain ⟨s, hr, he⟩ := ih w
      exact ⟨s, .head (.doze h0) hr, he⟩
    · next h0 =>
      obtain ⟨s, hr, he⟩ := ih (w.advance (w.time + length.nanoseconds))
      cases limit with
      | none => exact ⟨s, .head (.sleep h0 (by simp)) hr, he⟩
      | some l =>
        by_cases hl : l < w.time + length.nanoseconds
        · simp only [wait, if_pos hl]
          exact ⟨_, .refl, .overslept rfl h0 hl⟩
        · simp only [wait, if_neg hl]
          exact ⟨s, .head (.sleep h0 (by simpa using hl)) hr, he⟩
  | cancel cause rest ih =>
    obtain ⟨s, hr, he⟩ := ih (w.cancel cause)
    exact ⟨s, .head .cancel hr, he⟩
  | poll k ih =>
    obtain ⟨s, hr, he⟩ := ih w.signal.cause w
    exact ⟨s, .head .poll hr, he⟩
  | awaitCancel k ih =>
    rw [run_awaitCancel]
    split
    · next cause hc =>
      obtain ⟨s, hr, he⟩ := ih cause w
      exact ⟨s, .head (.notice hc) hr, he⟩
    · next hc =>
      split
      · next deadline l hd =>
        split
        · next hl =>
          obtain ⟨s, hr, he⟩ := ih .deadlineExceeded
            ((w.advance (max w.time deadline)).cancel .deadlineExceeded)
          exact ⟨s, .head (.awaitDeadline hc hd (by simpa using hl)) hr, he⟩
        · next hl =>
          refine ⟨_, .refl, .unheard rfl hc fun d hmem => ?_⟩
          obtain rfl := Option.some.inj (hd.symm.trans hmem)
          exact Nat.not_lt.mp hl
      · next deadline hd =>
        obtain ⟨s, hr, he⟩ := ih .deadlineExceeded
          ((w.advance (max w.time deadline)).cancel .deadlineExceeded)
        exact ⟨s, .head (.awaitDeadline hc hd (by simp)) hr, he⟩
      · next l hd => exact ⟨_, .refl, .unheard rfl hc (by simp [hd])⟩
      · next hd => exact ⟨_, .refl, .stuck rfl hc hd⟩

/-! ### One action -/

namespace Acts

lemma run_eq (h : Acts limit s s') : s.1.run limit s.2 = s'.1.run limit s'.2 := by
  cases h with
  | doze h0 => simp only [run, if_pos h0]
  | @sleep length rest w h0 hl =>
    cases limit with
    | none => simp only [run, if_neg h0, wait]
    | some l =>
      have hn : ¬ l < w.time + length.nanoseconds := Nat.not_lt.mpr (hl l rfl)
      simp only [run, if_neg h0, wait, if_neg hn]
  | notice hc => simp only [run_awaitCancel, hc]
  | awaitDeadline hc hd hl =>
    cases limit with
    | none => simp only [run_awaitCancel, hc, hd]
    | some l => simp only [run_awaitCancel, hc, hd, if_pos (hl l rfl)]
  | _ => rfl

lemma cause (h : Acts limit s s') {cause : Cause} (hc : s.2.signal.cause = some cause) :
    s'.2.signal.cause = some cause := by
  cases h with
  | sleep => exact Signal.advance_cause hc _
  | cancel =>
    dsimp only at hc
    simp [World.cancel, Signal.cancel_cause, hc]
  | awaitDeadline hn => simp [hn] at hc
  | _ => exact hc

lemma deadlines (h : Acts limit s s') : s'.2.signal.deadlines = s.2.signal.deadlines := by
  cases h with
  | sleep => exact Signal.advance_deadlines _ _
  | awaitDeadline => exact Signal.advance_deadlines _ _
  | _ => rfl

lemma idle (h : Acts limit s s') (hi : s'.2.signal.cause = none) :
    s'.2.time = s.2.time ∨ ∀ d ∈ s'.2.signal.deadlines, s'.2.time ≤ d := by
  cases h with
  | sleep => exact .inr (by simpa [World.advance] using Signal.idle_of_advance hi)
  | awaitDeadline => simp [World.cancel, Signal.cancel_cause] at hi
  | _ => exact .inl rfl

lemma unlimited (h : Acts limit s s') : Acts none s s' := by
  cases h with
  | fetch => exact .fetch
  | store => exact .store
  | doze h0 => exact .doze h0
  | sleep h0 => exact .sleep h0 (by simp)
  | cancel => exact .cancel
  | poll => exact .poll
  | notice hc => exact .notice hc
  | awaitDeadline hc hd => exact .awaitDeadline hc hd (by simp)

end Acts

/-! ### The course -/

namespace Reaches

lemma run_eq (h : Reaches limit s s') : s.1.run limit s.2 = s'.1.run limit s'.2 := by
  induction h with
  | refl => rfl
  | tail _ hact ih => exact ih.trans hact.run_eq

lemma cause (h : Reaches limit s s') {cause : Cause} (hc : s.2.signal.cause = some cause) :
    s'.2.signal.cause = some cause := by
  induction h with
  | refl => exact hc
  | tail _ hact ih => exact hact.cause ih

lemma deadlines (h : Reaches limit s s') : s'.2.signal.deadlines = s.2.signal.deadlines := by
  induction h with
  | refl => rfl
  | tail _ hact ih => exact hact.deadlines.trans ih

lemma idle (h : Reaches limit s s') (hi : s'.2.signal.cause = none) :
    s'.2.time = s.2.time ∨ ∀ d ∈ s'.2.signal.deadlines, s'.2.time ≤ d := by
  induction h with
  | refl => exact .inl rfl
  | @tail mid last _ hact ih =>
    have hmid : mid.2.signal.cause = none := by
      by_contra hn
      obtain ⟨cause, hc⟩ := Option.ne_none_iff_exists'.mp hn
      simp [hact.cause hc] at hi
    rcases hact.idle hi with hsame | hall
    · rcases ih hmid with hstart | hall
      · exact .inl (hsame.trans hstart)
      · exact .inr (by rwa [hsame, hact.deadlines])
    · exact .inr hall

lemma unlimited (h : Reaches limit s s') : Reaches none s s' :=
  Relation.ReflTransGen.mono (fun _ _ hact => hact.unlimited) _ _ h

end Reaches

/-! ### The end -/

theorem run_of_canceled {limit : Option Nat} {b b' : Behaviour σ α} {w m : World σ}
    (h : Reaches limit (b, w) (b', m)) {cause : Cause} (hc : m.signal.cause = some cause) :
    (b.run limit w).2.signal.cause = some cause ∧
      ((∃ a, (b.run limit w).1 = .answered a) ∨ (b.run limit w).1 = .cutOff ∧ limit.isSome) := by
  rw [h.run_eq]
  obtain ⟨s, hr, he⟩ := run_course limit b' m
  have hlast : s.2.signal.cause = some cause := hr.cause hc
  dsimp only
  generalize b'.run limit m = ending at he
  cases he with
  | answer => exact ⟨hlast, .inl ⟨_, rfl⟩⟩
  | overslept hlimit => exact ⟨Signal.advance_cause hlast _, .inr ⟨rfl, by simp [hlimit]⟩⟩
  | unheard _ hn => simp [hn] at hlast
  | stuck _ hn => simp [hn] at hlast

theorem run_unlimited_ne_cutOff (b : Behaviour σ α) (w : World σ) : (b.run none w).1 ≠ .cutOff := by
  obtain ⟨s, _, he⟩ := run_course none b w
  generalize b.run none w = ending at he
  cases he with
  | overslept hlimit => cases hlimit
  | unheard hlimit => cases hlimit
  | _ => simp

theorem idle_of_run_stuck {b : Behaviour σ α} {w w' : World σ} (h : b.run none w = (.stuck, w')) :
    w'.signal.cause = none := by
  obtain ⟨s, _, he⟩ := run_course none b w
  rw [h] at he
  cases he with
  | stuck _ hc => exact hc

end Behaviour
end Delivery
