import Delivery.Proofs.Chronicle
import Mathlib.Data.Option.Basic
import Mathlib.Tactic.Lemma

/-! The first cause wins, for every observer. In whatever order handles are used, deadlines pass and waiters run, all
who look at a signal see the first cause that the chronicle tells of, and no waiter sleeps on once there is one. -/

namespace Delivery

namespace Waiter

/-- A waiter sleeps only while there is no cause, and resolves only with the one that is there. -/
def Heeds (w : Waiter) (cause : Option Cause) : Prop :=
  match w.stage with
  | .ready => True
  | .asleep => cause = none
  | .resolved c => cause = some c

variable {w : Waiter} {before after : Handles} {cause : Cause}

@[simp] lemma wake_target (w : Waiter) : w.wake.target = w.target := by
  rw [wake]
  split <;> rfl

@[simp] lemma notice_target (w : Waiter) (before after : Handles) : (w.notice before after).target = w.target := by
  rw [notice]
  split
  · rfl
  · exact wake_target w

@[simp] lemma look_target (w : Waiter) (h : Handles) : (w.look h).target = w.target := by
  rw [look]
  split
  · split <;> rfl
  · rfl

lemma map_notice_of_causeAt {waiters : List Waiter}
    (h : ∀ w ∈ waiters, before.causeAt w.target = after.causeAt w.target) :
    waiters.map (·.notice before after) = waiters := by
  refine (List.map_congr_left fun w hw => ?_).trans (List.map_id' _)
  rw [notice, if_pos (h w hw)]

/-- A change wakes whoever sleeps, and before the first cause nobody has resolved. -/
lemma Heeds.notice (hw : w.Heeds (before.causeAt w.target))
    (hafter : ∀ cause, before.causeAt w.target = some cause → after.causeAt w.target = some cause) :
    (w.notice before after).Heeds (after.causeAt w.target) := by
  rw [Waiter.notice]
  split
  · next heq => rwa [← heq]
  · next hne =>
    have hnone : before.causeAt w.target = none := by
      cases hc : before.causeAt w.target with
      | none => rfl
      | some cause => exact absurd (hc.trans (hafter cause hc).symm) hne
    rw [hnone] at hw
    rw [Heeds] at hw
    rw [wake]
    split at hw
    · next hstage => simp [Heeds, hstage]
    · next hstage => simp [Heeds, hstage]
    · cases hw

lemma Heeds.look {h : Handles} (hw : w.Heeds (h.causeAt w.target)) : (w.look h).Heeds (h.causeAt w.target) := by
  rw [Waiter.look]
  split
  · split
    · next hc => simp [Heeds, hc]
    · next hc => simp [Heeds, hc]
  · exact hw

lemma look_of_some {h : Handles} (hw : w.Heeds (h.causeAt w.target)) (hc : h.causeAt w.target = some cause) :
    w.look h = { w with stage := .resolved cause } := by
  rw [hc] at hw
  obtain ⟨target, stage⟩ := w
  cases stage with
  | ready => simp_all [look]
  | asleep => cases hw
  | resolved c =>
    obtain rfl := Option.some.inj hw
    rfl

lemma notice_of_some (hbefore : before.causeAt w.target = some cause) (hafter : after.causeAt w.target = some cause) :
    w.notice before after = w := by
  rw [notice, hbefore, hafter, if_pos rfl]

lemma Heeds.waiting (hw : w.Heeds none) : w.stage = .ready ∨ w.stage = .asleep := by
  rw [Heeds] at hw
  split at hw
  · next hstage => exact .inl hstage
  · next hstage => exact .inr hstage
  · cases hw

lemma Heeds.awake (hw : w.Heeds (some cause)) : w.stage = .ready ∨ w.stage = .resolved cause := by
  rw [Heeds] at hw
  split at hw
  · next hstage => exact .inl hstage
  · cases hw
  · next hstage =>
    obtain rfl := Option.some.inj hw
    exact .inr hstage

end Waiter

namespace Observers

open Handles (Operation)

/-! ### Observers follow the chronicle -/

def poll (s : Observers) (handle : Nat) : Option Cause := (s.handles.signal handle).cause

def stage? (s : Observers) (waiter : Nat) : Option Stage := s.waiters[waiter]?.map (·.stage)

structure Follows (s : Observers) (c : Chronicle) : Prop where
  sound : c.Sound
  handles : s.handles = c.toHandles
  targets : s.waiters.map (·.target) = c.waiters
  heeds : ∀ w ∈ s.waiters, w.Heeds (c.first w.target)

variable {s : Observers} {c : Chronicle} {handle target i : Nat} {w : Waiter} {cause : Cause}

lemma handles_perform (s : Observers) (operation : Operation) :
    (s.perform operation).handles = s.handles.act operation := by
  cases operation <;> rfl

lemma targets_perform (s : Observers) (operation : Operation) : (s.perform operation).waiters.map (·.target) =
    s.waiters.map (·.target) ++ (operation.joins?.bind (s.handles.targets[·]?)).toList := by
  have hnoticed (h h' : Handles) : (s.waiters.map (·.notice h h')).map (·.target) = s.waiters.map (·.target) := by
    simp [Function.comp_def]
  cases operation with
  | wait handle =>
    rw [perform, List.map_append, hnoticed]
    cases h : s.handles.targets[handle]? <;> simp [Handles.act, Operation.joins?, h]
  | resume waiter =>
    refine (Eq.trans (List.ext_getElem? fun i => ?_) (hnoticed s.handles (s.handles.act (.resume waiter)))).trans
      (List.append_nil _).symm
    rw [List.getElem?_map, List.getElem?_map, perform, List.getElem?_modify]
    cases (s.waiters.map (·.notice s.handles (s.handles.act (.resume waiter))))[i]? with
    | none => rfl
    | some w =>
      simp only [Option.map_eq_map, Option.map_some]
      split
      · rw [Waiter.look_target]
      · rfl
  | _ => exact (hnoticed _ _).trans (List.append_nil _).symm

lemma Follows.causeAt (h : s.Follows c) (target : Nat) : s.handles.causeAt target = c.first target := by
  rw [h.handles, Chronicle.causeAt_toHandles h.sound]

lemma Follows.poll (h : s.Follows c) (ht : c.handles[handle]? = some target) : s.poll handle = c.first target := by
  rw [Observers.poll, h.handles, Chronicle.signal_toHandles h.sound ht]
  rfl

lemma follows_start : start.Follows {} where
  sound := Chronicle.sound_start
  handles := rfl
  targets := rfl
  heeds := nofun

lemma Follows.perform (h : s.Follows c) (operation : Operation) : (s.perform operation).Follows (c.note operation) := by
  have hact : (s.perform operation).handles = (c.note operation).toHandles := by
    rw [handles_perform, h.handles, Chronicle.toHandles_note h.sound]
  have hcause (target : Nat) : (s.handles.act operation).causeAt target = (c.note operation).first target := by
    rw [← handles_perform, hact, Chronicle.causeAt_toHandles (h.sound.note operation)]
  have hnoticed : ∀ w ∈ s.waiters.map (·.notice s.handles (s.handles.act operation)),
      w.Heeds ((s.handles.act operation).causeAt w.target) := by
    intro w hw
    obtain ⟨old, hold, rfl⟩ := List.mem_map.mp hw
    rw [Waiter.notice_target]
    have hheeds := h.heeds old hold
    rw [← h.causeAt] at hheeds
    refine hheeds.notice fun cause hsome => ?_
    rw [hcause]
    exact (c.extends_note operation).first (h.causeAt _ ▸ hsome)
  refine ⟨h.sound.note operation, hact, ?_, ?_⟩
  · rw [targets_perform, h.targets, h.handles, Chronicle.waiters_note]
    rfl
  · intro w hw
    rw [← hcause]
    cases operation with
    | wait handle =>
      obtain hw | hw := List.mem_append.mp hw
      · exact hnoticed w hw
      · obtain ⟨target, _, rfl⟩ := Option.map_eq_some_iff.mp (Option.mem_toList.mp hw)
        trivial
    | resume waiter =>
      obtain ⟨position, hposition⟩ := List.mem_iff_getElem?.mp hw
      simp only [Observers.perform, List.getElem?_modify] at hposition
      obtain ⟨old, hold, rfl⟩ := Option.map_eq_some_iff.mp hposition
      have holdHeeds := hnoticed old (List.mem_of_getElem? hold)
      split
      · rw [Waiter.look_target]
        exact holdHeeds.look
      · exact holdHeeds
    | _ => exact hnoticed w hw

lemma Follows.run (h : s.Follows c) (operations : List Operation) :
    (s.run operations).Follows (c.noteAll operations) := by
  induction operations generalizing s c with
  | nil => exact h
  | cons operation operations ih => exact ih (h.perform operation)

/-! ### Waiters resolve -/

lemma Follows.getElem?_perform (h : s.Follows c) (hw : s.waiters[i]? = some w) (hc : c.first w.target = some cause)
    (operation : Operation) : (s.perform operation).waiters[i]? =
      some (if operation = .resume i then { w with stage := .resolved cause } else w) := by
  have hbefore : s.handles.causeAt w.target = some cause := by rw [h.causeAt, hc]
  have hafter : (s.handles.act operation).causeAt w.target = some cause := by
    rw [← handles_perform, (h.perform operation).causeAt]
    exact (c.extends_note operation).first hc
  have hnoticed : (s.waiters.map (·.notice s.handles (s.handles.act operation)))[i]? = some w := by
    rw [List.getElem?_map, hw, Option.map_some, Waiter.notice_of_some hbefore hafter]
  cases operation with
  | wait handle =>
    rw [if_neg nofun]
    exact (List.getElem?_append_left (List.getElem?_eq_some_iff.mp hnoticed).1).trans hnoticed
  | resume waiter =>
    have hheeds := h.heeds w (List.mem_of_getElem? hw)
    rw [hc, ← hafter] at hheeds
    simp only [Observers.perform, List.getElem?_modify, hnoticed, Operation.resume.injEq]
    split
    · exact congrArg some (Waiter.look_of_some hheeds hafter)
    · rfl
  | _ =>
    rw [if_neg nofun]
    exact hnoticed

lemma Follows.getElem?_run (h : s.Follows c) (hw : s.waiters[i]? = some w) (hc : c.first w.target = some cause)
    (operations : List Operation) : (s.run operations).waiters[i]? =
      some (if .resume i ∈ operations then { w with stage := .resolved cause } else w) := by
  induction operations generalizing s c w with
  | nil => simpa [Observers.run] using hw
  | cons operation operations ih =>
    have hcause : (c.note operation).first w.target = some cause := (c.extends_note operation).first hc
    have hrest := ih (h.perform operation) (h.getElem?_perform hw hc operation) (by split <;> exact hcause)
    rw [Observers.run, List.foldl_cons]
    refine hrest.trans ?_
    by_cases hhead : operation = .resume i
    · simp [hhead]
    · simp [hhead, Ne.symm hhead]

/-! ### What is seen at a moment -/

/-- Those who look see what the chronicle tells. -/
structure Shows (s : Observers) (c : Chronicle) : Prop where
  time : s.handles.time = c.time
  targets : s.handles.targets = c.handles
  polled : ∀ handle target, c.handles[handle]? = some target →
    s.poll handle = c.first target ∧ (s.handles.signal handle).isCancelled = (c.first target).isSome
  /-- Who has nothing else to do gets the cause that comes first, or waits for ever. -/
  blocked : ∀ handle target, c.handles[handle]? = some target → s.handles.wait handle =
    ((c.note (.block handle)).first target).map (·, (s.perform (.block handle)).handles)
  waiting : s.waiters.map (·.target) = c.waiters
  joined : ∀ handle target, c.handles[handle]? = some target →
    (s.perform (.wait handle)).waiters = s.waiters ++ [⟨target, .ready⟩]
  unresolved : ∀ w ∈ s.waiters, c.first w.target = none → w.stage = .ready ∨ w.stage = .asleep
  awake : ∀ w ∈ s.waiters, ∀ cause, c.first w.target = some cause → w.stage = .ready ∨ w.stage = .resolved cause
  late : ∀ length : Span,
    (∀ d target, (d, target) ∈ c.due (c.time + length.nanoseconds) → (c.first target).isSome = true) →
      s.perform (.sleep length) = { s with handles := { s.handles with time := c.time + length.nanoseconds } }

lemma Follows.wait_handles (h : s.Follows c) (ht : c.handles[handle]? = some target) : s.handles.wait handle =
    ((c.note (.block handle)).first target).map (·, (s.perform (.block handle)).handles) := by
  have hsignal : s.handles.signal handle = c.signal target := by rw [h.handles, Chronicle.signal_toHandles h.sound ht]
  rw [handles_perform, Handles.act, Handles.wait, hsignal]
  simp only [Chronicle.note, ht, Chronicle.signal, Signal.firstDeadline?]
  cases hfirst : c.first target with
  | some cause => simp [hfirst]
  | none =>
    cases hmin : (c.deadlinesOf target).min? with
    | none => simp [hfirst]
    | some deadline =>
      -- what passes on the way are deadlines too
      have hgiven : ((c.pass (max c.time deadline)).give target .deadlineExceeded).first target =
          some .deadlineExceeded := by
        rw [Chronicle.first_give, Chronicle.first_pass, hfirst, Option.none_or, if_pos rfl]
        split <;> rfl
      rw [hgiven]
      rfl

lemma Follows.perform_sleep (h : s.Follows c) {length : Span}
    (hlate : ∀ d target, (d, target) ∈ c.due (c.time + length.nanoseconds) → (c.first target).isSome = true) :
    s.perform (.sleep length) = { s with handles := { s.handles with time := c.time + length.nanoseconds } } := by
  have hsignal (target : Nat) : (c.pass (c.time + length.nanoseconds)).signal target = c.signal target := by
    have hfirst : (c.pass (c.time + length.nanoseconds)).first target = c.first target := by
      rw [Chronicle.first_pass]
      split
      · next hany =>
        obtain ⟨d, hd, hbetween⟩ := List.any_eq_true.mp hany
        have hdue := Chronicle.mem_due.mpr ⟨Chronicle.mem_deadlinesOf.mp hd, by simpa using hbetween⟩
        obtain ⟨cause, hcause⟩ := Option.isSome_iff_exists.mp (hlate d target hdue)
        rw [hcause]
        rfl
      · exact Option.or_none
    rw [Chronicle.signal, hfirst]
    rfl
  have hact : s.handles.act (.sleep length) = { s.handles with time := c.time + length.nanoseconds } := by
    rw [← handles_perform, (h.perform _).handles, h.handles]
    have hsignals := List.map_congr_left fun target (_ : target ∈ List.range c.signals) => hsignal target
    exact congrArg (fun signals => Handles.mk _ signals c.handles) hsignals
  have hwaiters : s.waiters.map (·.notice s.handles (s.handles.act (.sleep length))) = s.waiters := by
    rw [hact]
    exact Waiter.map_notice_of_causeAt fun _ _ => rfl
  calc s.perform (.sleep length)
      = ⟨s.handles.act (.sleep length), s.waiters.map (·.notice s.handles (s.handles.act (.sleep length)))⟩ := rfl
    _ = ⟨{ s.handles with time := c.time + length.nanoseconds }, s.waiters⟩ := by rw [hwaiters, hact]

lemma Follows.perform_wait (h : s.Follows c) (ht : c.handles[handle]? = some target) :
    (s.perform (.wait handle)).waiters = s.waiters ++ [⟨target, .ready⟩] := by
  have hunchanged : s.waiters.map (·.notice s.handles s.handles) = s.waiters :=
    Waiter.map_notice_of_causeAt fun _ _ => rfl
  have htarget : s.handles.targets[handle]? = some target := by rw [h.handles]; exact ht
  rw [Observers.perform, Handles.act, hunchanged, htarget]
  rfl

lemma Follows.shows (h : s.Follows c) : s.Shows c where
  time := by rw [h.handles]; rfl
  targets := by rw [h.handles]; rfl
  polled handle target ht := by
    have hpoll := h.poll ht
    exact ⟨hpoll, congrArg Option.isSome hpoll⟩
  blocked handle target ht := h.wait_handles ht
  waiting := h.targets
  joined handle target ht := h.perform_wait ht
  unresolved w hw hnone := by
    have hheeds := h.heeds w hw
    rw [hnone] at hheeds
    exact hheeds.waiting
  awake w hw cause hsome := by
    have hheeds := h.heeds w hw
    rw [hsome] at hheeds
    exact hheeds.awake
  late length hlate := h.perform_sleep hlate

/-! ### What holds from a moment on -/

/-- What comes of operations, whatever is done afterwards. -/
structure Lasts (s : Observers) : Prop where
  kept : ∀ handle cause more, s.poll handle = some cause → (s.run more).poll handle = some cause
  cancelled : ∀ handle cause more, handle < s.handles.targets.length →
    (s.run (.cancel handle cause :: more)).poll handle = some ((s.poll handle).getD cause)
  cloned : ∀ handle more, handle < s.handles.targets.length →
    let s' := s.run (.clone handle :: more)
    s'.handles.signal s.handles.targets.length = s'.handles.signal handle
  /-- A deadline that time passes gives its cause, unless there is one. -/
  expired : ∀ handle length between operation, handle < s.handles.targets.length →
    let s' := s.run (.cancelAfter handle length :: between)
    s.handles.time + length.nanoseconds < (s'.perform operation).handles.time → ∀ more,
      (s'.run (operation :: more)).poll handle = some ((s'.poll handle).getD .deadlineExceeded)
  waited : ∀ handle between, handle < s.handles.targets.length →
    let s' := s.run (.wait handle :: between)
    let waiter := s.waiters.length
    (s'.poll handle = none → s'.stage? waiter = some .ready ∨ s'.stage? waiter = some .asleep) ∧
      ∀ cause, s'.poll handle = some cause →
        (s'.stage? waiter = some .ready ∨ s'.stage? waiter = some (.resolved cause)) ∧
          ∀ more, .resume waiter ∈ more → (s'.run more).stage? waiter = some (.resolved cause)

lemma Follows.exists_target (h : s.Follows c) (hlt : handle < s.handles.targets.length) :
    ∃ target, c.handles[handle]? = some target := by
  rw [h.handles] at hlt
  exact ⟨c.handles[handle], List.getElem?_eq_getElem hlt⟩

lemma Follows.poll_run (h : s.Follows c) (ht : c.handles[handle]? = some target) (hfirst : c.first target = some cause)
    (more : List Operation) : (s.run more).poll handle = some cause := by
  have hextends := c.extends_noteAll more
  rw [(h.run more).poll (Chronicle.getElem?_of_prefix hextends.handles ht)]
  exact hextends.first hfirst

lemma Follows.kept (h : s.Follows c) (hpoll : s.poll handle = some cause) (more : List Operation) :
    (s.run more).poll handle = some cause := by
  cases ht : c.handles[handle]? with
  | none =>
    rw [Observers.poll, h.handles, Chronicle.signal_toHandles_of_none ht] at hpoll
    cases hpoll
  | some target => exact h.poll_run ht (h.poll ht ▸ hpoll) more

lemma Follows.cancelled (h : s.Follows c) (hlt : handle < s.handles.targets.length) (cause : Cause)
    (more : List Operation) :
    (s.run (.cancel handle cause :: more)).poll handle = some ((s.poll handle).getD cause) := by
  obtain ⟨target, ht⟩ := h.exists_target hlt
  have hgiven : (c.note (.cancel handle cause)).first target = some ((c.first target).getD cause) := by
    simp only [Chronicle.note, ht]
    rw [Chronicle.first_give, if_pos rfl]
    cases c.first target <;> rfl
  rw [h.poll ht]
  have hkept := Chronicle.getElem?_of_prefix (c.extends_note (.cancel handle cause)).handles ht
  exact (h.perform (.cancel handle cause)).poll_run hkept hgiven more

lemma Follows.cloned (h : s.Follows c) (hlt : handle < s.handles.targets.length) (more : List Operation) :
    let s' := s.run (.clone handle :: more)
    s'.handles.signal s.handles.targets.length = s'.handles.signal handle := by
  intro s'
  obtain ⟨target, ht⟩ := h.exists_target hlt
  have hclone : (c.note (.clone handle)).handles[s.handles.targets.length]? = some target := by
    simp [Chronicle.note, h.handles, Chronicle.toHandles, ht]
  have hold := Chronicle.getElem?_of_prefix (c.extends_note (.clone handle)).handles ht
  have hextends := (c.note (.clone handle)).extends_noteAll more
  have hlater := h.run (.clone handle :: more)
  rw [hlater.handles,
    Chronicle.signal_toHandles hlater.sound (Chronicle.getElem?_of_prefix hextends.handles hclone),
    Chronicle.signal_toHandles hlater.sound (Chronicle.getElem?_of_prefix hextends.handles hold)]

lemma Follows.expired (h : s.Follows c) (hlt : handle < s.handles.targets.length) (length : Span)
    (between : List Operation) (operation : Operation) :
    let s' := s.run (.cancelAfter handle length :: between)
    s.handles.time + length.nanoseconds < (s'.perform operation).handles.time → ∀ more,
      (s'.run (operation :: more)).poll handle = some ((s'.poll handle).getD .deadlineExceeded) := by
  intro s' hpast more
  obtain ⟨target, ht⟩ := h.exists_target hlt
  have hset : (c.time + length.nanoseconds, target) ∈ (c.note (.cancelAfter handle length)).deadlines := by
    simp [Chronicle.note, ht]
  have hextends := (c.note (.cancelAfter handle length)).extends_noteAll between
  have hnow : s'.Follows ((c.note (.cancelAfter handle length)).noteAll between) :=
    h.run (.cancelAfter handle length :: between)
  have htnow := Chronicle.getElem?_of_prefix ((c.extends_note (.cancelAfter handle length)).trans hextends).handles ht
  have hnext := hnow.perform operation
  rw [h.handles, hnext.handles] at hpast
  have hfirst := hnow.sound.first_note (hextends.deadlines.subset hset) hpast
  rw [hnow.poll htnow]
  exact hnext.poll_run (Chronicle.getElem?_of_prefix (Chronicle.extends_note _ operation).handles htnow) hfirst more

lemma Follows.waited (h : s.Follows c) (hlt : handle < s.handles.targets.length) (between : List Operation) :
    let s' := s.run (.wait handle :: between)
    let waiter := s.waiters.length
    (s'.poll handle = none → s'.stage? waiter = some .ready ∨ s'.stage? waiter = some .asleep) ∧
      ∀ cause, s'.poll handle = some cause →
        (s'.stage? waiter = some .ready ∨ s'.stage? waiter = some (.resolved cause)) ∧
          ∀ more, .resume waiter ∈ more → (s'.run more).stage? waiter = some (.resolved cause) := by
  intro s' waiter
  obtain ⟨target, ht⟩ := h.exists_target hlt
  have hjoined : (c.note (.wait handle)).waiters[waiter]? = some target := by
    have hlength : waiter = c.waiters.length := by rw [← h.targets, List.length_map]
    simp [Chronicle.note, ht, hlength]
  have hextends := (c.note (.wait handle)).extends_noteAll between
  have hnow : s'.Follows ((c.note (.wait handle)).noteAll between) := h.run (.wait handle :: between)
  have htnow := Chronicle.getElem?_of_prefix ((c.extends_note (.wait handle)).trans hextends).handles ht
  have hwaiting := Chronicle.getElem?_of_prefix hextends.waiters hjoined
  rw [← hnow.targets, List.getElem?_map] at hwaiting
  obtain ⟨w, hw, rfl⟩ := Option.map_eq_some_iff.mp hwaiting
  have hstage : s'.stage? waiter = some w.stage := by rw [stage?, hw]; rfl
  have hheeds := hnow.heeds w (List.mem_of_getElem? hw)
  rw [hnow.poll htnow, hstage]
  constructor
  · intro hnone
    rw [hnone] at hheeds
    simpa using hheeds.waiting
  · intro cause hsome
    rw [hsome] at hheeds
    refine ⟨by simpa using hheeds.awake, fun more hmore => ?_⟩
    rw [stage?, hnow.getElem?_run hw hsome more, if_pos hmore]
    rfl

lemma Follows.lasts (h : s.Follows c) : s.Lasts where
  kept _ _ more hpoll := h.kept hpoll more
  cancelled _ cause more hlt := h.cancelled hlt cause more
  cloned _ more hlt := h.cloned hlt more
  expired _ length between operation hlt := h.expired hlt length between operation
  waited _ between hlt := h.waited hlt between

theorem first_cause_wins (operations : List Operation) :
    (start.run operations).Shows (.ofOperations operations) ∧ (start.run operations).Lasts := by
  have hfollows : (start.run operations).Follows (.ofOperations operations) := follows_start.run operations
  exact ⟨hfollows.shows, hfollows.lasts⟩

/-- A deadline that was set through a clone cancels the first handle, unless another cause overtakes it. -/
theorem first_cause_wins_overtaken :
    let s := start.run [.clone 0, .cancelAfter 1 ⟨5⟩, .wait 0, .resume 0]
    (s.poll 0 = none ∧ s.stage? 0 = some .asleep) ∧
      (s.run [.sleep ⟨9⟩, .resume 0]).poll 0 = some .deadlineExceeded ∧
      (s.run [.sleep ⟨9⟩, .resume 0]).stage? 0 = some (.resolved .deadlineExceeded) ∧
      (s.run [.cancel 1 (.other "stop"), .sleep ⟨9⟩, .resume 0]).poll 0 = some (.other "stop") ∧
      (s.run [.cancel 1 (.other "stop"), .sleep ⟨9⟩, .resume 0]).stage? 0 = some (.resolved (.other "stop")) := by
  intro s
  have hclone := (first_cause_wins []).2.cloned 0
  have hdeadline := (first_cause_wins [.clone 0]).2.expired 1 ⟨5⟩ [.wait 0, .resume 0] (.sleep ⟨9⟩)
    (by decide) (by decide)
  have hcancel := (first_cause_wins [.clone 0, .cancelAfter 1 ⟨5⟩, .wait 0, .resume 0]).2.cancelled 1 (.other "stop")
  have hwait := (first_cause_wins [.clone 0, .cancelAfter 1 ⟨5⟩]).2.waited 0
  have hshared (more : List Operation) : (s.run more).poll 1 = (s.run more).poll 0 :=
    congrArg Signal.cause (hclone (.cancelAfter 1 ⟨5⟩ :: .wait 0 :: .resume 0 :: more) (by decide))
  have hexpired (more : List Operation) : (s.run (.sleep ⟨9⟩ :: more)).poll 0 = some .deadlineExceeded :=
    (hshared _).symm.trans (hdeadline more)
  have hcancelled (more : List Operation) : (s.run (.cancel 1 (.other "stop") :: more)).poll 0 = some (.other "stop") :=
    (hshared _).symm.trans (hcancel more (by decide))
  refine ⟨⟨rfl, rfl⟩, hexpired _, ?_, hcancelled _, ?_⟩
  · exact ((hwait [.resume 0, .sleep ⟨9⟩] (by decide)).2 _ (hexpired [])).2 [.resume 0] (by decide)
  · exact ((hwait [.resume 0, .cancel 1 (.other "stop"), .sleep ⟨9⟩] (by decide)).2 _ (hcancelled [.sleep ⟨9⟩])).2
      [.resume 0] (by decide)

end Observers
end Delivery
