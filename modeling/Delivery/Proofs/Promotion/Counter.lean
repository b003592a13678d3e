import Delivery.Proofs.Promotion.Attempts

/-! The count of failures in a row. It is the number of failures that the attempts end in, counted on from where the
record stood if there was nothing else, up to the greatest number; the verdicts compare it with each attempt's own
threshold. -/

namespace Delivery
namespace Retry

structure Outcome where
  status : Status
  threshold : UInt32

namespace Outcome

def failed (o : Outcome) : Bool := o.status.isFailure

def failuresInARow (before : Nat) (outcomes : List Outcome) : Nat :=
  Status.failuresInARow before (outcomes.map (·.status))

lemma failuresInARow_concat (before : Nat) (outcomes : List Outcome) (o : Outcome) :
    failuresInARow before (outcomes ++ [o]) = if o.failed then failuresInARow before outcomes + 1 else 0 := by
  rw [failuresInARow, List.map_append, List.map_singleton, Status.failuresInARow_concat]
  rfl

inductive Judged (o : Outcome) (count : Nat) : Verdict → Prop
  | advanced (hs : o.status = .succeeded) : Judged o count .advance
  | suspended (hs : o.status = .running) : Judged o count .suspend
  | aborted {n : UInt32} (hs : o.failed = true) (hn : n.toNat = count) (hle : o.threshold.toNat ≤ count) :
      Judged o count (.abort o.status n o.threshold)
  | retried {n : UInt32} (hs : o.failed = true) (hn : n.toNat = count) (hlt : count < o.threshold.toNat) :
      Judged o count (.retry n o.threshold)

end Outcome

open Outcome

def enterAll (r : StepRecord) : List Outcome → List Verdict × StepRecord
  | [] => ([], r)
  | o :: rest =>
    let (verdict, r) := enter r o.status o.threshold
    let (verdicts, r) := enterAll r rest
    (verdict :: verdicts, r)

lemma enterAll_concat (r : StepRecord) (outcomes : List Outcome) (o : Outcome) :
    enterAll r (outcomes ++ [o]) =
      ((enterAll r outcomes).1 ++ [(enter (enterAll r outcomes).2 o.status o.threshold).1],
        (enter (enterAll r outcomes).2 o.status o.threshold).2) := by
  induction outcomes generalizing r with
  | nil => rfl
  | cons first rest ih => simp only [List.cons_append, enterAll, ih]

structure Enters (r : StepRecord) (o : Outcome) (verdict : Verdict) (r' : StepRecord) : Prop where
  record_eq : r' = { r with errorCount := r'.errorCount, status := some o.status }
  count_eq : r'.errorCount.toNat = if o.failed then min (r.errorCount.toNat + 1) 4294967295 else 0
  judged : o.Judged r'.errorCount.toNat verdict

lemma enters (r : StepRecord) (o : Outcome) :
    Enters r o (enter r o.status o.threshold).1 (enter r o.status o.threshold).2 := by
  cases hf : o.failed with
  | true =>
    rw [enter_of_isFailure r hf]
    refine ⟨rfl, by rw [hf, if_pos rfl, toNat_increment], ?_⟩
    dsimp only
    split
    · next hle => exact .aborted hf rfl (UInt32.le_iff_toNat_le.mp hle)
    · next hlt => exact .retried hf rfl (UInt32.lt_iff_toNat_lt.mp (UInt32.not_le.mp hlt))
  | false =>
    cases hs : o.status with
    | succeeded => exact ⟨by rw [hs]; rfl, by rw [hf]; rfl, .advanced hs⟩
    | running => exact ⟨by rw [hs]; rfl, by rw [hf]; rfl, .suspended hs⟩
    | failed => simp [failed, hs, Status.isFailure] at hf
    | errored => simp [failed, hs, Status.isFailure] at hf

structure Tallied (r : StepRecord) (outcomes : List Outcome) (verdicts : List Verdict) (r' : StepRecord) : Prop where
  record_eq : r' = { r with
    errorCount := r'.errorCount
    status := (outcomes.getLast?.map (·.status)).or r.status }
  count_eq : r'.errorCount.toNat = min (failuresInARow r.errorCount.toNat outcomes) 4294967295
  length_eq : verdicts.length = outcomes.length
  judged : ∀ i (o : Outcome), outcomes[i]? = some o → ∃ verdict, verdicts[i]? = some verdict ∧
    o.Judged (min (failuresInARow r.errorCount.toNat (outcomes.take (i + 1))) 4294967295) verdict

lemma tallied (r : StepRecord) (outcomes : List Outcome) :
    Tallied r outcomes (enterAll r outcomes).1 (enterAll r outcomes).2 := by
  -- The count is one of the last outcomes, so the outcomes are taken from the end.
  induction outcomes using List.reverseRecOn with
  | nil =>
    have hle := r.errorCount.toNat_lt
    refine ⟨rfl, ?_, rfl, fun i o h => by simp at h⟩
    show r.errorCount.toNat = min (failuresInARow r.errorCount.toNat []) 4294967295
    rw [failuresInARow, List.map_nil, Status.failuresInARow_nil]
    omega
  | append_singleton outcomes o ih =>
    have hstep := enters (enterAll r outcomes).2 o
    have hcount : (enter (enterAll r outcomes).2 o.status o.threshold).2.errorCount.toNat =
        min (failuresInARow r.errorCount.toNat (outcomes ++ [o])) 4294967295 := by
      rw [hstep.count_eq, ih.count_eq, failuresInARow_concat]
      split <;> omega
    rw [enterAll_concat]
    refine ⟨?_, hcount, by simp [ih.length_eq], ?_⟩
    · have hkept (n : UInt32) (status : Option Status) :
          { (enterAll r outcomes).2 with errorCount := n, status := status } =
            { r with errorCount := n, status := status } := by
        rw [ih.record_eq]
      rw [List.getLast?_concat, Option.map_some, Option.some_or]
      exact hstep.record_eq.trans (hkept _ _)
    · intro i last h
      rcases Nat.lt_trichotomy i outcomes.length with hi | hi | hi
      · rw [List.getElem?_append_left hi] at h
        obtain ⟨verdict, hv, hj⟩ := ih.judged i last h
        refine ⟨verdict, ?_, ?_⟩
        · rwa [List.getElem?_append_left (by rwa [ih.length_eq])]
        · rwa [List.take_append_of_le_length hi]
      · subst hi
        obtain rfl : o = last := by simpa using h
        refine ⟨_, by rw [← ih.length_eq, List.getElem?_concat_length], ?_⟩
        rw [List.take_of_length_le (by simp), ← hcount]
        exact hstep.judged
      · rw [List.getElem?_eq_none (by simp; omega)] at h
        cases h

theorem enterAll_counts (r : StepRecord) (outcomes : List Outcome) :
    Tallied r outcomes (enterAll r outcomes).1 (enterAll r outcomes).2 ∧
    ∀ n threshold, .retry n threshold ∈ (enterAll r outcomes).1 → n < threshold ∧ n.toNat ≠ 4294967295 := by
  have htallied := tallied r outcomes
  refine ⟨htallied, fun n threshold hmem => ?_⟩
  obtain ⟨i, hi⟩ := List.getElem?_of_mem hmem
  have hlt : i < outcomes.length := htallied.length_eq ▸ (List.getElem?_eq_some_iff.mp hi).1
  obtain ⟨verdict, hverdict, hjudged⟩ := htallied.judged i _ (List.getElem?_eq_getElem hlt)
  rw [hi, Option.some.injEq] at hverdict
  subst hverdict
  cases hjudged with
  | retried _ hn hbelow =>
    have hmax := outcomes[i].threshold.toNat_lt
    exact ⟨UInt32.lt_iff_toNat_lt.mpr (hn ▸ hbelow), by omega⟩

/-! ### A count that was nearly full -/

namespace Saturation

def record : StepRecord := { stepAlias := "deploy", errorCount := 4294967294 }

def outcomes : List Outcome :=
  [⟨.failed, 4294967295⟩, ⟨.errored, 4294967295⟩, ⟨.running, 3⟩, ⟨.errored, 3⟩]

theorem enterAll_counts_saturated :
    (enterAll record outcomes).1 = [.abort .failed 4294967295 4294967295,
      .abort .errored 4294967295 4294967295, .suspend, .retry 1 3] ∧
    (enterAll record outcomes).2.errorCount.toNat =
      min (failuresInARow record.errorCount.toNat outcomes) 4294967295 ∧ (1 : UInt32) < 3 := by
  obtain ⟨htallied, hretried⟩ := enterAll_counts record outcomes
  exact ⟨by decide, htallied.count_eq, (hretried 1 3 (by decide)).1⟩

end Saturation
end Retry
end Delivery
