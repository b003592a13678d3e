import Delivery.Observers
import Mathlib.Data.List.Sort
import Mathlib.Tactic.Lemma

/-! What operations on handles come to, told from the operations alone. A chronicle looks at no signal: it adds what is
done to what it holds, and the cause of a signal is the first that was given. The handles agree with it at any time. -/

namespace Delivery

open Handles (Operation)

def Handles.Operation.joins? : Operation → Option Nat
  | .wait handle => some handle
  | _ => none

structure Chronicle where
  time : Nat := 0
  signals : Nat := 1
  handles : List Nat := [0]
  /-- The deadlines that were set, each with its signal, the last one first. -/
  deadlines : List (Nat × Nat) := []
  /-- The causes that were given, each with its signal, in their order. -/
  given : List (Nat × Cause) := []
  waiters : List Nat := []

namespace Chronicle

def first (c : Chronicle) (target : Nat) : Option Cause := (c.given.find? (·.1 = target)).map (·.2)

def deadlinesOf (c : Chronicle) (target : Nat) : List Nat := (c.deadlines.filter (·.2 = target)).map (·.1)

/-- The deadlines that pass until a time, in the order of time. -/
def due (c : Chronicle) (time : Nat) : List (Nat × Nat) :=
  (c.deadlines.filter fun d => c.time ≤ d.1 && d.1 < time).insertionSort fun a b => a.1 ≤ b.1

def pass (c : Chronicle) (time : Nat) : Chronicle :=
  { c with time, given := c.given ++ (c.due time).map fun d => (d.2, .deadlineExceeded) }

def give (c : Chronicle) (target : Nat) (cause : Cause) : Chronicle := { c with given := c.given ++ [(target, cause)] }

def note (c : Chronicle) : Operation → Chronicle
  | .clone handle => { c with handles := c.handles ++ [c.handles[handle]?.getD 0] }
  | .fresh => { c with signals := c.signals + 1, handles := c.handles ++ [c.signals] }
  | .cancel handle cause =>
    match c.handles[handle]? with
    | some target => c.give target cause
    | none => c
  | .cancelAfter handle length =>
    match c.handles[handle]? with
    | some target => { c with deadlines := (c.time + length.nanoseconds, target) :: c.deadlines }
    | none => c
  | .sleep length => c.pass (c.time + length.nanoseconds)
  | .block handle =>
    match c.handles[handle]? with
    | some target =>
      match c.first target, (c.deadlinesOf target).min? with
      | none, some deadline => (c.pass (max c.time deadline)).give target .deadlineExceeded
      | _, _ => c
    | none => c
  | .wait handle =>
    match c.handles[handle]? with
    | some target => { c with waiters := c.waiters ++ [target] }
    | none => c
  | .resume _ => c

def noteAll (c : Chronicle) (operations : List Operation) : Chronicle := operations.foldl note c

def ofOperations (operations : List Operation) : Chronicle := ({} : Chronicle).noteAll operations

def signal (c : Chronicle) (target : Nat) : Signal := ⟨c.first target, c.deadlinesOf target⟩

def toHandles (c : Chronicle) : Handles := ⟨c.time, (List.range c.signals).map c.signal, c.handles⟩

variable {c c' : Chronicle} {target handle : Nat} {cause : Cause} {operation : Operation}

/-! ### The first cause -/

lemma first_append {given : List (Nat × Cause)} : ({ c with given := c.given ++ given } : Chronicle).first target =
    (c.first target).or ((given.find? (·.1 = target)).map (·.2)) := by
  simp [first, List.find?_append, Option.map_or]

lemma first_give {other : Nat} :
    (c.give other cause).first target = (c.first target).or (if other = target then some cause else none) := by
  rw [give, first_append, List.find?_singleton]
  by_cases h : other = target <;> simp [h]

lemma mem_due {time d : Nat} : (d, target) ∈ c.due time ↔ (d, target) ∈ c.deadlines ∧ c.time ≤ d ∧ d < time := by
  simp [due]

lemma mem_deadlinesOf {d : Nat} : d ∈ c.deadlinesOf target ↔ (d, target) ∈ c.deadlines := by
  simp [deadlinesOf]

/-- All deadlines give the same cause, so it does not matter which of them is the first. -/
lemma first_pass {time : Nat} : (c.pass time).first target = (c.first target).or
    (if (c.deadlinesOf target).any (fun d => c.time ≤ d && d < time) then some .deadlineExceeded else none) := by
  refine first_append.trans (congrArg _ ?_)
  rw [List.find?_map]
  set isOf := (fun offer : Nat × Cause => decide (offer.1 = target)) ∘ fun d : Nat × Nat => (d.2, .deadlineExceeded)
  cases hfind : (c.due time).find? isOf with
  | none =>
    rw [if_neg]
    · rfl
    · rw [List.any_eq_true]
      rintro ⟨d, hd, hbetween⟩
      rw [List.find?_eq_none] at hfind
      refine hfind (d, target) (mem_due.mpr ⟨mem_deadlinesOf.mp hd, by simpa using hbetween⟩) ?_
      simp [isOf]
  | some offer =>
    obtain ⟨d, other⟩ := offer
    obtain rfl : other = target := by simpa [isOf] using List.find?_some hfind
    obtain ⟨hd, hbetween⟩ := mem_due.mp (List.mem_of_find?_eq_some hfind)
    rw [if_pos (List.any_eq_true.mpr ⟨d, mem_deadlinesOf.mpr hd, by simpa using hbetween⟩)]
    rfl

/-! ### What a chronicle keeps to -/

/-- Everything that is told of is a signal, and a deadline that has passed has given its cause. -/
structure Sound (c : Chronicle) : Prop where
  pos : 0 < c.signals
  handles : ∀ target ∈ c.handles, target < c.signals
  deadlines : ∀ d target, (d, target) ∈ c.deadlines → target < c.signals
  given : ∀ target cause, (target, cause) ∈ c.given → target < c.signals
  past : ∀ d target, (d, target) ∈ c.deadlines → d < c.time → (c.first target).isSome = true

lemma sound_start : Sound {} where
  pos := Nat.zero_lt_one
  handles target ht := by
    obtain rfl := List.mem_singleton.mp ht
    exact Nat.zero_lt_one
  deadlines := nofun
  given := nofun
  past := nofun

lemma Sound.give (h : c.Sound) (ht : target < c.signals) (cause : Cause) : (c.give target cause).Sound where
  pos := h.pos
  handles := h.handles
  deadlines := h.deadlines
  given other cause' hmem := by
    obtain hmem | hmem := List.mem_append.mp hmem
    · exact h.given other cause' hmem
    · cases List.mem_singleton.mp hmem
      exact ht
  past d other hd hlt := by
    rw [first_give, Option.isSome_or, h.past d other hd hlt]
    rfl

lemma Sound.pass (h : c.Sound) (time : Nat) : (c.pass time).Sound where
  pos := h.pos
  handles := h.handles
  deadlines := h.deadlines
  given target cause hmem := by
    obtain hmem | hmem := List.mem_append.mp hmem
    · exact h.given target cause hmem
    · obtain ⟨d, hd, heq⟩ := List.mem_map.mp hmem
      cases heq
      exact h.deadlines d.1 d.2 (mem_due.mp hd).1
  past d target hd hlt := by
    rw [first_pass, Option.isSome_or, Bool.or_eq_true]
    by_cases hbefore : d < c.time
    · exact .inl (h.past d target hd hbefore)
    · right
      rw [if_pos]
      · rfl
      · rw [List.any_eq_true]
        refine ⟨d, mem_deadlinesOf.mpr hd, ?_⟩
        simpa using ⟨Nat.le_of_not_lt hbefore, hlt⟩

lemma Sound.first_pass (h : c.Sound) {d time : Nat} (hd : (d, target) ∈ c.deadlines) (hlt : d < time) :
    (c.pass time).first target = some ((c.first target).getD .deadlineExceeded) := by
  have hsome := (h.pass time).past d target hd hlt
  rw [Chronicle.first_pass] at hsome ⊢
  cases hfirst : c.first target with
  | some cause => rfl
  | none =>
    rw [hfirst, Option.none_or] at hsome
    rw [Option.none_or]
    split
    · rfl
    · next hnone =>
      rw [if_neg hnone] at hsome
      cases hsome

lemma Sound.note (h : c.Sound) (operation : Operation) : (c.note operation).Sound := by
  have hlt {handle target : Nat} (ht : c.handles[handle]? = some target) : target < c.signals :=
    h.handles target (List.mem_of_getElem? ht)
  cases operation with
  | clone handle =>
    refine ⟨h.pos, ?_, h.deadlines, h.given, h.past⟩
    intro target ht
    obtain ht | ht := List.mem_append.mp ht
    · exact h.handles target ht
    · obtain rfl := List.mem_singleton.mp ht
      cases hh : c.handles[handle]? with
      | none => exact h.pos
      | some target => exact hlt hh
  | fresh =>
    refine ⟨Nat.succ_pos _, ?_, ?_, ?_, h.past⟩
    · intro target ht
      obtain ht | ht := List.mem_append.mp ht
      · exact Nat.lt_succ_of_lt (h.handles target ht)
      · obtain rfl := List.mem_singleton.mp ht
        exact Nat.lt_succ_self _
    · exact fun d target hd => Nat.lt_succ_of_lt (h.deadlines d target hd)
    · exact fun target cause hc => Nat.lt_succ_of_lt (h.given target cause hc)
  | cancel handle cause =>
    rw [Chronicle.note]
    split
    · next target ht => exact h.give (hlt ht) cause
    · exact h
  | cancelAfter handle length =>
    rw [Chronicle.note]
    split
    · next target ht =>
      refine ⟨h.pos, h.handles, ?_, h.given, ?_⟩
      · intro d other hd
        obtain heq | hd := List.mem_cons.mp hd
        · cases heq
          exact hlt ht
        · exact h.deadlines d other hd
      · intro d other hd hpast
        obtain heq | hd := List.mem_cons.mp hd
        · cases heq
          exact absurd hpast (Nat.not_lt.mpr (Nat.le_add_right _ _))
        · exact h.past d other hd hpast
    · exact h
  | sleep length => exact h.pass _
  | block handle =>
    rw [Chronicle.note]
    split
    · next target ht =>
      split
      · exact (h.pass _).give (hlt ht) _
      · exact h
    · exact h
  | wait handle =>
    rw [Chronicle.note]
    split
    · exact ⟨h.pos, h.handles, h.deadlines, h.given, h.past⟩
    · exact h
  | resume waiter => exact h

/-! ### What is told stays -/

/-- All that a chronicle tells of is in another one. -/
structure Extends (c c' : Chronicle) : Prop where
  handles : c.handles <+: c'.handles
  deadlines : c.deadlines <:+ c'.deadlines
  given : c.given <+: c'.given
  waiters : c.waiters <+: c'.waiters

lemma Extends.refl (c : Chronicle) : c.Extends c := ⟨List.prefix_rfl, List.suffix_rfl, List.prefix_rfl, List.prefix_rfl⟩

lemma Extends.trans {c'' : Chronicle} (h : c.Extends c') (h' : c'.Extends c'') : c.Extends c'' :=
  ⟨h.handles.trans h'.handles, h.deadlines.trans h'.deadlines, h.given.trans h'.given, h.waiters.trans h'.waiters⟩

lemma extends_note (c : Chronicle) (operation : Operation) : c.Extends (c.note operation) := by
  cases operation with
  | clone handle => exact ⟨List.prefix_append .., List.suffix_rfl, List.prefix_rfl, List.prefix_rfl⟩
  | fresh => exact ⟨List.prefix_append .., List.suffix_rfl, List.prefix_rfl, List.prefix_rfl⟩
  | cancel handle cause =>
    rw [note]
    split
    · exact ⟨List.prefix_rfl, List.suffix_rfl, List.prefix_append .., List.prefix_rfl⟩
    · exact .refl c
  | cancelAfter handle length =>
    rw [note]
    split
    · exact ⟨List.prefix_rfl, List.suffix_cons .., List.prefix_rfl, List.prefix_rfl⟩
    · exact .refl c
  | sleep length => exact ⟨List.prefix_rfl, List.suffix_rfl, List.prefix_append .., List.prefix_rfl⟩
  | block handle =>
    rw [note]
    split
    · split
      · exact ⟨List.prefix_rfl, List.suffix_rfl, (List.prefix_append ..).trans (List.prefix_append ..), List.prefix_rfl⟩
      · exact .refl c
    · exact .refl c
  | wait handle =>
    rw [note]
    split
    · exact ⟨List.prefix_rfl, List.suffix_rfl, List.prefix_rfl, List.prefix_append ..⟩
    · exact .refl c
  | resume waiter => exact .refl c

lemma waiters_note (c : Chronicle) (operation : Operation) :
    (c.note operation).waiters = c.waiters ++ (operation.joins?.bind (c.handles[·]?)).toList := by
  cases operation with
  | wait handle =>
    rw [note, Operation.joins?]
    split
    · next ht => simp [ht]
    · next ht => simp [ht]
  | clone | fresh | sleep | resume => exact (List.append_nil _).symm
  | cancel | cancelAfter =>
    rw [note]
    split <;> exact (List.append_nil _).symm
  | block =>
    rw [note]
    split
    · split <;> exact (List.append_nil _).symm
    · exact (List.append_nil _).symm

lemma extends_noteAll (c : Chronicle) (operations : List Operation) : c.Extends (c.noteAll operations) := by
  induction operations generalizing c with
  | nil => exact .refl c
  | cons operation operations ih => exact (c.extends_note operation).trans (ih _)

lemma getElem?_of_prefix {told all : List Nat} (h : told <+: all) {i : Nat} (ht : told[i]? = some target) :
    all[i]? = some target := by
  obtain ⟨hi, rfl⟩ := List.getElem?_eq_some_iff.mp ht
  exact List.prefix_iff_getElem?.mp h i hi

lemma Extends.first (h : c.Extends c') (hfirst : c.first target = some cause) : c'.first target = some cause := by
  obtain ⟨offer, hfind, rfl⟩ := Option.map_eq_some_iff.mp hfirst
  exact Option.map_eq_some_iff.mpr ⟨offer, h.given.find?_eq_some hfind, rfl⟩

/-- Once time has passed a deadline there is a cause. It is the deadline's unless there was one before. -/
lemma Sound.first_note (h : c.Sound) {d : Nat} (hd : (d, target) ∈ c.deadlines) (hlt : d < (c.note operation).time) :
    (c.note operation).first target = some ((c.first target).getD .deadlineExceeded) := by
  cases hfirst : c.first target with
  | some cause => exact (c.extends_note operation).first hfirst
  | none =>
    have hahead : ¬ d < c.time := by
      intro hpast
      have hsome := h.past d target hd hpast
      rw [hfirst] at hsome
      cases hsome
    cases operation with
    | sleep length =>
      have hpassed : (c.pass (c.time + length.nanoseconds)).first target = _ := h.first_pass hd hlt
      rw [Chronicle.note, hpassed, hfirst]
    | block handle =>
      rw [Chronicle.note] at hlt ⊢
      split at hlt
      · split at hlt
        · next deadline _ _ =>
          have hpassed : (c.pass (max c.time deadline)).first target = _ := h.first_pass hd hlt
          rw [first_give, hpassed, hfirst]
          rfl
        · exact absurd hlt hahead
      · exact absurd hlt hahead
    | clone | fresh | resume => exact absurd hlt hahead
    | cancel | cancelAfter | wait =>
      rw [Chronicle.note] at hlt
      split at hlt <;> exact absurd hlt hahead

/-! ### The handles of a chronicle -/

lemma first_of_le (h : c.Sound) (hle : c.signals ≤ target) : c.first target = none := by
  rw [first, Option.map_eq_none_iff, List.find?_eq_none]
  intro offer hmem heq
  have hlt := h.given offer.1 offer.2 hmem
  have htarget : offer.1 = target := by simpa using heq
  omega

lemma deadlinesOf_of_le (h : c.Sound) (hle : c.signals ≤ target) : c.deadlinesOf target = [] := by
  rw [List.eq_nil_iff_forall_not_mem]
  intro d hd
  exact Nat.not_lt.mpr hle (h.deadlines d target (mem_deadlinesOf.mp hd))

lemma causeAt_toHandles (h : c.Sound) (target : Nat) : c.toHandles.causeAt target = c.first target := by
  rw [Handles.causeAt, toHandles, List.getElem?_map]
  by_cases hlt : target < c.signals
  · rw [List.getElem?_range hlt]
    rfl
  · rw [List.getElem?_eq_none (by simpa using hlt), first_of_le h (Nat.le_of_not_lt hlt)]
    rfl

lemma signal_toHandles (h : c.Sound) (ht : c.handles[handle]? = some target) :
    c.toHandles.signal handle = c.signal target := by
  have hlt := h.handles target (List.mem_of_getElem? ht)
  simp [Handles.signal, toHandles, ht, List.getElem?_range hlt]

lemma signal_toHandles_of_none (ht : c.handles[handle]? = none) : c.toHandles.signal handle = .idle := by
  simp [Handles.signal, toHandles, ht]

lemma modify_toHandles (ht : c.handles[handle]? = some target) {f : Signal → Signal} (htime : c'.time = c.time)
    (hsignals : c'.signals = c.signals) (hhandles : c'.handles = c.handles)
    (hsignal : ∀ other, c'.signal other = if other = target then f (c.signal other) else c.signal other) :
    c'.toHandles = c.toHandles.modify handle f := by
  have hchanged : (List.range c.signals).map c'.signal = ((List.range c.signals).map c.signal).modify target f := by
    apply List.ext_getElem?
    intro other
    rw [List.getElem?_modify, List.getElem?_map, List.getElem?_map]
    by_cases hlt : other < c.signals
    · simp only [List.getElem?_range hlt, Option.map_some, hsignal]
      by_cases ho : other = target
      · simp [ho]
      · simp [ho, Ne.symm ho]
    · simp [List.getElem?_eq_none (l := List.range c.signals) (by simpa using hlt)]
  simp only [Handles.modify, toHandles, ht, htime, hsignals, hhandles, hchanged]

lemma toHandles_give (ht : c.handles[handle]? = some target) (cause : Cause) :
    (c.give target cause).toHandles = c.toHandles.cancel handle cause := by
  refine modify_toHandles ht rfl rfl rfl fun other => ?_
  rw [signal, first_give]
  by_cases ho : other = target
  · subst ho
    simp [Signal.cancel, signal, give, deadlinesOf]
  · simp [ho, Ne.symm ho, signal, give, deadlinesOf]

lemma signal_pass (h : c.Sound) (time target : Nat) : (c.pass time).signal target = (c.signal target).advance time := by
  have hkept : (c.pass time).signal target = ⟨(c.pass time).first target, c.deadlinesOf target⟩ := rfl
  rw [hkept, first_pass, Signal.advance]
  cases hfirst : c.first target with
  | some cause =>
    have hcause : (c.signal target).cause = some cause := hfirst
    split <;> simp [Signal.cancel, signal, hfirst]
  | none =>
    -- no deadline has passed before, so those before `time` are the ones that are due
    have hdue : ((c.deadlinesOf target).any fun d => c.time ≤ d && d < time) =
        (c.deadlinesOf target).any (· < time) := by
      rw [Bool.eq_iff_iff, List.any_eq_true, List.any_eq_true]
      refine exists_congr fun d => and_congr_right fun hd => ?_
      have hle : c.time ≤ d := by
        by_contra hlt
        have hsome := h.past d target (mem_deadlinesOf.mp hd) (Nat.lt_of_not_le hlt)
        rw [hfirst] at hsome
        cases hsome
      rw [decide_eq_true hle, Bool.true_and]
    have hcause : (c.signal target).cause = none := hfirst
    rw [hdue, Option.none_or]
    split <;> simp [Signal.cancel, signal, *]

lemma toHandles_pass (h : c.Sound) (time : Nat) : (c.pass time).toHandles = c.toHandles.advance time := by
  have hsignals : (List.range c.signals).map (c.pass time).signal =
      ((List.range c.signals).map c.signal).map (·.advance time) := by
    rw [List.map_map]
    exact List.map_congr_left fun target _ => signal_pass h time target
  exact congrArg (fun signals => Handles.mk time signals c.handles) hsignals

theorem toHandles_note (h : c.Sound) (operation : Operation) :
    (c.note operation).toHandles = c.toHandles.act operation := by
  cases operation with
  | clone handle => rfl
  | fresh =>
    have hidle : c.signal c.signals = .idle := by
      rw [signal, first_of_le h (Nat.le_refl _), deadlinesOf_of_le h (Nat.le_refl _)]
      rfl
    have hsignals : (List.range (c.signals + 1)).map c.signal = (List.range c.signals).map c.signal ++ [.idle] := by
      rw [List.range_succ, List.map_append, List.map_singleton, hidle]
    simp only [toHandles, Handles.act, Handles.fresh, List.length_map, List.length_range, note, ← hsignals]
    rfl
  | cancel handle cause =>
    cases ht : c.handles[handle]? with
    | none => simp [note, Handles.act, Handles.cancel, Handles.modify, toHandles, ht]
    | some target =>
      simp only [note, ht]
      exact toHandles_give ht cause
  | cancelAfter handle length =>
    cases ht : c.handles[handle]? with
    | none => simp [note, Handles.act, Handles.cancelAfter, Handles.modify, toHandles, ht]
    | some target =>
      simp only [note, ht]
      refine modify_toHandles ht rfl rfl rfl fun other => ?_
      by_cases ho : other = target
      · subst ho
        simp [Signal.cancelAt, signal, deadlinesOf, first, toHandles]
      · simp [ho, Ne.symm ho, signal, deadlinesOf, first]
  | sleep length =>
    rw [Handles.act, Handles.sleep]
    split
    · next hempty =>
      have hsame : c.pass c.time = c := by
        have hdue : c.due c.time = [] := by
          rw [List.eq_nil_iff_forall_not_mem]
          rintro ⟨d, target⟩ hd
          obtain ⟨_, hle, hlt⟩ := mem_due.mp hd
          omega
        simp [pass, hdue]
      rw [note, hempty, Nat.add_zero, hsame]
    · exact toHandles_pass h _
  | block handle =>
    rw [Handles.act, Handles.wait]
    cases ht : c.handles[handle]? with
    | none => simp [note, ht, signal_toHandles_of_none ht, Signal.idle, Signal.firstDeadline?]
    | some target =>
      rw [signal_toHandles h ht]
      simp only [note, ht, signal, Signal.firstDeadline?]
      cases hfirst : c.first target with
      | some cause => simp
      | none =>
        cases hmin : (c.deadlinesOf target).min? with
        | none => simp
        | some deadline =>
          simp only [Option.map_some, Option.getD_some]
          have ht' : (c.pass (max c.time deadline)).handles[handle]? = some target := ht
          rw [toHandles_give ht', toHandles_pass h]
          rfl
  | wait handle =>
    rw [note]
    split <;> rfl
  | resume waiter => rfl

end Chronicle
end Delivery
