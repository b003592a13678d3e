import Delivery.Signal

/-!
Tasks that wait for a signal, beside the handles on it. A waiter looks at its signal when it runs; while there is no
cause it sleeps, and a change of the signal wakes it to look again. What happens to handles and the steps of waiters
may come in any order.
-/

namespace Delivery

namespace Handles

def causeAt (h : Handles) (target : Nat) : Option Cause := h.signals[target]?.bind (·.cause)

/-- What may happen to handles and to the waiters beside them. Whoever only looks at a signal changes nothing. -/
inductive Operation where
  | clone (handle : Nat)
  | fresh
  | cancel (handle : Nat) (cause : Cause)
  | cancelAfter (handle : Nat) (length : Span)
  | sleep (length : Span)
  /-- Nothing else happens until the signal of a handle is cancelled. -/
  | block (handle : Nat)
  | wait (handle : Nat)
  | resume (waiter : Nat)
deriving DecidableEq, Repr

def act (h : Handles) : Operation → Handles
  | .clone handle => h.clone handle
  | .fresh => h.fresh
  | .cancel handle cause => h.cancel handle cause
  | .cancelAfter handle length => h.cancelAfter handle length
  | .sleep length => h.sleep length
  | .block handle => ((h.wait handle).map (·.2)).getD h
  | .wait _ => h
  | .resume _ => h

end Handles

inductive Stage where
  | ready
  | asleep
  | resolved (cause : Cause)
deriving DecidableEq, Repr

structure Waiter where
  target : Nat
  stage : Stage := .ready
deriving DecidableEq, Repr

namespace Waiter

def look (h : Handles) (w : Waiter) : Waiter :=
  match w.stage with
  | .ready =>
    match h.causeAt w.target with
    | some cause => { w with stage := .resolved cause }
    | none => { w with stage := .asleep }
  | _ => w

def wake (w : Waiter) : Waiter :=
  match w.stage with
  | .asleep => { w with stage := .ready }
  | _ => w

def notice (before after : Handles) (w : Waiter) : Waiter :=
  if before.causeAt w.target = after.causeAt w.target then w else w.wake

end Waiter

structure Observers where
  handles : Handles
  waiters : List Waiter

namespace Observers

def start : Observers := ⟨.start, []⟩

def perform (s : Observers) (operation : Handles.Operation) : Observers :=
  let handles := s.handles.act operation
  let waiters := s.waiters.map (·.notice s.handles handles)
  match operation with
  | .wait handle =>
    { handles, waiters := waiters ++ (handles.targets[handle]?.map fun target => { target }).toList }
  | .resume waiter => { handles, waiters := waiters.modify waiter (·.look handles) }
  | _ => { handles, waiters }

def run (s : Observers) (operations : List Handles.Operation) : Observers := operations.foldl perform s

end Observers
end Delivery
