import Delivery.Proofs.Behaviours
import Delivery.Proofs.Promotion.Calls

/-! The instants in the records of a result. Each of them was in the records of the request, or it was read off the
clock, which no behaviour changes. -/

namespace Delivery

variable {σ : Type}

namespace Behaviour

variable {α : Type} {limit : Option Nat} {s s' : Stage σ α}

lemma Acts.clock_eq (h : Acts limit s s') : s'.2.clock = s.2.clock := by
  cases h <;> rfl

lemma Reaches.clock_eq (h : Reaches limit s s') : s'.2.clock = s.2.clock := by
  induction h with
  | refl => rfl
  | tail _ hact ih => exact hact.clock_eq.trans ih

theorem clock_run (limit : Option Nat) (b : Behaviour σ α) (w : World σ) : (b.run limit w).2.clock = w.clock := by
  obtain ⟨s, hr, he⟩ := run_course limit b w
  have hs : s.2.clock = w.clock := hr.clock_eq
  generalize b.run limit w = ending at he
  cases he <;> exact hs

end Behaviour

lemma StepRunner.clock_invoke {runner : StepRunner σ} {context : StepContext σ} {timeout : Option Span} {elapsed : Span}
    {w w' : World σ} {invoked : Bool} {conclusion : Conclusion}
    (h : runner.invoke context timeout elapsed w = some (invoked, conclusion, w')) : w'.clock = w.clock := by
  have hclock := fun limit => Behaviour.clock_run limit (runner.run context) w
  cases concludes_of_invoke h with
  | exhausted => rfl
  | answered _ _ hrun => rw [← hclock, hrun]
  | cutOff _ _ hrun => rw [← hclock, hrun]
  | unlimited _ hrun => rw [← hclock, hrun]

/-! ### Records -/

variable {P : Instant → Prop}

lemma forall_mem_some {t : Instant} (h : P t) : ∀ s ∈ some t, P s := by
  intro s hs
  rwa [← Option.some.inj hs]

structure StepRecord.Timed (P : Instant → Prop) (r : StepRecord) : Prop where
  startedAt : ∀ t ∈ r.startedAt, P t
  finishedAt : ∀ t ∈ r.finishedAt, P t

namespace StepRecord

lemma timed_carry {previous : Option StepRecord} (h : ∀ r ∈ previous, r.Timed P) (name : String) :
    (carry previous name).Timed P := by
  have hnew : Timed P { stepAlias := name } := ⟨fun _ ht => (by cases ht), fun _ ht => (by cases ht)⟩
  cases previous with
  | none => exact hnew
  | some r =>
    by_cases hname : r.stepAlias = name
    · rw [carry_of_stepAlias hname]
      exact h r rfl
    · have hother : carry (some r) name = { stepAlias := name } := by simp [carry, Option.filter, hname]
      rw [hother]
      exact hnew

lemma timed_normalize {previous : List StepRecord} (h : ∀ r ∈ previous, r.Timed P) (steps : List Step) :
    ∀ r ∈ normalize previous steps, r.Timed P := by
  intro r hr
  obtain ⟨j, hj⟩ := List.getElem?_of_mem hr
  rw [normalize_getElem?] at hj
  obtain ⟨step, _, rfl⟩ := Option.map_eq_some_iff.mp hj
  exact timed_carry (fun r hr => h r (List.mem_of_getElem? hr)) _

end StepRecord

structure Attempt.Timed (P : Instant → Prop) (t : Attempt σ) : Prop where
  windowStart : P t.windowStart
  ended : P t.ended

namespace Attempt

variable {t : Attempt σ}

lemma Timed.closed (h : t.Timed P) : t.closed.Timed P :=
  ⟨forall_mem_some h.windowStart, forall_mem_some h.ended⟩

lemma Timed.follow (h : t.Timed P) {record r : StepRecord} (hrecord : record.Timed P) {status : Status}
    {message : Option String} (hstop : t.follow record = .stop status message r) : r.Timed P := by
  have hstarted : ∀ s ∈ some t.windowStart, P s := forall_mem_some h.windowStart
  have hfinished : ∀ s ∈ some t.ended, P s := forall_mem_some h.ended
  have hfollows := t.follows record
  rw [hstop] at hfollows
  generalize hmove : Move.stop status message r = move at hfollows
  cases hfollows with
  | succeeded => cases hmove
  | canceled =>
    obtain rfl := (Move.stop.inj hmove).2.2
    exact ⟨hstarted, hfinished⟩
  | suspended =>
    obtain rfl := (Move.stop.inj hmove).2.2
    exact ⟨hstarted, hrecord.finishedAt⟩
  | retried =>
    obtain rfl := (Move.stop.inj hmove).2.2
    exact ⟨nofun, hrecord.finishedAt⟩
  | aborted =>
    obtain rfl := (Move.stop.inj hmove).2.2
    exact ⟨hstarted, hfinished⟩

end Attempt

structure Place.Timed (P : Instant → Prop) (p : Place σ) : Prop where
  clock : ∀ n, P (p.world.clock n)
  records : ∀ a ∈ p.left, a.record.Timed P

namespace Engine

variable {e : Engine σ} {request : PromotionRequest} {steps : List Step} {dir : String} {w w' : World σ}
  {p q : Place σ} {done : List (Attempt σ)} {i last : Invocation σ}

lemma workDir_clock (e : Engine σ) (request : PromotionRequest) (w : World σ) :
    (e.workDir request w).2.clock = w.clock := by
  simp only [workDir]
  split
  · rfl
  · split <;> rfl

lemma Makes.timed {index : Nat} {state : Payload} {a : Assignment σ} {t : Attempt σ}
    (h : e.Makes request dir index state a w t w') (hclock : ∀ n, P (w.clock n)) (ha : a.record.Timed P) :
    t.Timed P ∧ ∀ n, P (w'.clock n) := by
  obtain ⟨w₁, hinvoke, _, hended, rfl⟩ := h.answer
  have hsame : w₁.clock = w.now.2.clock := StepRunner.clock_invoke hinvoke
  have hbegan : P t.began := h.began_eq ▸ hclock w.readings
  refine ⟨⟨?_, ?_⟩, fun n => ?_⟩
  · rw [h.windowStart_eq]
    cases hstarted : a.record.startedAt with
    | none => exact hbegan
    | some start => exact ha.startedAt start hstarted
  · rw [hended]
    rw [World.now, hsame]
    exact hclock w₁.readings
  · rw [World.now, hsame]
    exact hclock n

lemma Passes.timed (h : e.Passes request dir p done q) (hp : p.Timed P) :
    (∀ t ∈ done, t.Timed P) ∧ q.Timed P := by
  induction h with
  | here => exact ⟨List.forall_mem_nil _, hp⟩
  | pass hleft _ hmade _ _ ih =>
    have hrecords := hp.records
    rw [hleft, List.forall_mem_cons] at hrecords
    obtain ⟨ht, hclock⟩ := hmade.timed hp.clock hrecords.1
    obtain ⟨hdone, hq⟩ := ih ⟨hclock, hrecords.2⟩
    exact ⟨List.forall_mem_cons.mpr ⟨ht, hdone⟩, hq⟩

lemma Ends.timed (h : e.Ends request dir p i w) (hp : p.Timed P) : ∀ r ∈ i.result.records, r.Timed P := by
  cases h with
  | completed => exact List.forall_mem_nil _
  | canceled => exact List.forall_mem_map.mpr hp.records
  | halted hleft _ hmade hstop =>
    have hrecords := hp.records
    rw [hleft, List.forall_mem_cons] at hrecords
    have ht := (hmade.timed hp.clock hrecords.1).1
    exact List.forall_mem_cons.mpr ⟨ht.follow hrecords.1 hstop, List.forall_mem_map.mpr hrecords.2⟩

lemma Refuses.timed {setback : Setback} {index : Nat} {records : List StepRecord}
    (h : e.Refuses request steps w setback index records w') (hclock : ∀ n, P (w.clock n))
    (hrequest : ∀ r ∈ request.records, r.Timed P) : ∀ r ∈ records, r.Timed P := by
  have hrecords := StepRecord.timed_normalize hrequest steps
  cases h with
  | invalid => exact hrecords
  | outOfRange => exact hrecords
  | noWorkDir => exact hrecords
  | @unassigned u =>
    intro r hr
    obtain ⟨j, hj⟩ := List.getElem?_of_mem hr
    rw [List.getElem?_modify] at hj
    obtain ⟨r₀, hr₀, rfl⟩ := Option.map_eq_some_iff.mp hj
    have htimed := hrecords r₀ (List.mem_of_getElem? hr₀)
    split
    · exact ⟨htimed.startedAt, forall_mem_some (hclock w.readings)⟩
    · exact htimed

/-- What holds of the instants in the request and of the readings of the clock holds of those in the result. -/
theorem promote_timed (h : e.promote request steps w = some (i, w')) (hclock : ∀ n, P (w.clock n))
    (hrequest : ∀ r ∈ request.records, r.Timed P) : ∀ r ∈ i.result.records, r.Timed P := by
  cases promote_concludes h with
  | refused hr => exact hr.timed hclock hrequest
  | @walked left dir w₀ _ done q last ha hp he =>
    have hrecords := StepRecord.timed_normalize hrequest steps
    have hsame : w₀.clock = w.clock := by
      rw [← workDir_clock e request w, ha.prepared]
    have hstart : (Place.mk request.startFromStep request.state left w₀).Timed P := by
      refine ⟨fun n => hsame ▸ hclock n, fun a hleft => ?_⟩
      obtain ⟨j, hj⟩ := List.getElem?_of_mem hleft
      have hassigned := assigned_of_assign ha.assigned hj
      rw [hassigned.record_eq]
      exact StepRecord.timed_carry (fun r hr => hrequest r (List.mem_of_getElem? hr)) _
    obtain ⟨hdone, hq⟩ := hp.timed hstart
    rw [Invocation.records_after_behind]
    refine List.forall_mem_append.mpr ⟨fun r hr => hrecords r (List.mem_of_mem_take hr), ?_⟩
    refine List.forall_mem_append.mpr ⟨?_, he.timed hq⟩
    exact List.forall_mem_map.mpr fun t ht => (hdone t ht).closed

end Engine
end Delivery
