import Delivery.Time.Span

/-!
Cancellation. A signal has at most one cause, the first one that was given; a deadline is a cause given
by the clock. Time is virtual: it passes only while somebody waits, and is counted in nanoseconds.

Main statements: `cancel_cause` and `advance_cause` say that a cause, once there, stays.
-/

namespace Delivery

inductive Cause where
  | canceled
  | deadlineExceeded
  | other (reason : String)
deriving DecidableEq, Repr

def Cause.message : Cause → String
  | .canceled => "context canceled"
  | .deadlineExceeded => "context deadline exceeded"
  | .other reason => reason

structure Signal where
  cause : Option Cause
  /-- The times at which it will be cancelled, unless it has been before. -/
  deadlines : List Nat
deriving DecidableEq, Repr

namespace Signal

def idle : Signal := ⟨none, []⟩

instance : Inhabited Signal := ⟨idle⟩

/-- Cancels the signal; a cause that is there already stays. -/
def cancel (s : Signal) (cause : Cause) : Signal := { s with cause := s.cause <|> some cause }

def cancelAt (s : Signal) (time : Nat) : Signal := { s with deadlines := time :: s.deadlines }

def advance (s : Signal) (time : Nat) : Signal :=
  if s.deadlines.any (· < time) then s.cancel .deadlineExceeded else s

def firstDeadline? (s : Signal) : Option Nat := s.deadlines.min?

def isCancelled (s : Signal) : Bool := s.cause.isSome

theorem cancel_cause (s : Signal) (cause : Cause) :
    (s.cancel cause).cause = some (s.cause.getD cause) := by
  cases h : s.cause <;> simp [cancel, h]

theorem advance_cause {s : Signal} {cause : Cause} (h : s.cause = some cause) (time : Nat) :
    (s.advance time).cause = some cause := by
  simp only [advance]
  split
  · simp [cancel_cause, h]
  · exact h

end Signal

/-! ### Handles -/

/-- Handles on signals at a moment of virtual time. Several handles may be on one signal. -/
structure Handles where
  time : Nat
  signals : List Signal
  /-- The signal of each handle, by its position in `signals`. -/
  targets : List Nat

namespace Handles

def start : Handles := ⟨0, [.idle], [0]⟩

def signal (h : Handles) (handle : Nat) : Signal :=
  (h.targets[handle]?.bind (h.signals[·]?)).getD .idle

def modify (h : Handles) (handle : Nat) (f : Signal → Signal) : Handles :=
  match h.targets[handle]? with
  | some target => { h with signals := h.signals.modify target f }
  | none => h

def clone (h : Handles) (handle : Nat) : Handles :=
  { h with targets := h.targets ++ [h.targets[handle]?.getD 0] }

def fresh (h : Handles) : Handles :=
  { h with signals := h.signals ++ [.idle], targets := h.targets ++ [h.signals.length] }

def cancel (h : Handles) (handle : Nat) (cause : Cause) : Handles :=
  h.modify handle (·.cancel cause)

def cancelAfter (h : Handles) (handle : Nat) (length : Span) : Handles :=
  h.modify handle (·.cancelAt (h.time + length.nanoseconds))

def advance (h : Handles) (time : Nat) : Handles :=
  { h with time := time, signals := h.signals.map (·.advance time) }

/-- Waits for some time. Nothing happens during the empty span. -/
def sleep (h : Handles) (length : Span) : Handles :=
  if length.nanoseconds = 0 then h else h.advance (h.time + length.nanoseconds)

def causes (h : Handles) : List (Option Cause) :=
  (List.range h.targets.length).map fun handle => (h.signal handle).cause

/-- Waits until the signal under a handle is cancelled. Nothing is returned if that never happens. -/
def wait (h : Handles) (handle : Nat) : Option (Cause × Handles) :=
  let signal := h.signal handle
  match signal.cause, signal.firstDeadline? with
  | some cause, _ => some (cause, h)
  | none, some deadline =>
    let later := (h.advance (max h.time deadline)).cancel handle .deadlineExceeded
    some (.deadlineExceeded, later)
  | none, none => none

end Handles
end Delivery
