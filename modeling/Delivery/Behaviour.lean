import Delivery.Files.Tree
import Delivery.Signal
import Delivery.Time.Instant

/-!
Behaviours: what a runner does. A behaviour is a tree of actions on the world around it, its memory, its
signal and the virtual clock, that ends in an answer; `run` lets it act, up to a time at which it is cut
off.
-/

namespace Delivery

/-- What a runner does until it answers. `σ` is the memory that runners share. -/
inductive Behaviour (σ : Type) (α : Type) where
  | answer (a : α)
  | fetch (k : σ → Behaviour σ α)
  | store (memory : σ) (rest : Behaviour σ α)
  | sleep (length : Span) (rest : Behaviour σ α)
  | cancel (cause : Cause) (rest : Behaviour σ α)
  | poll (k : Option Cause → Behaviour σ α)
  | awaitCancel (k : Cause → Behaviour σ α)

structure World (σ : Type) where
  time : Nat
  signal : Signal
  memory : σ
  files : FileTree
  /-- The readings that the wall clock will give, in order. They need not ascend. -/
  clock : Nat → Instant
  readings : Nat

namespace World

variable {σ : Type}

def now (w : World σ) : Instant × World σ :=
  (w.clock w.readings, { w with readings := w.readings + 1 })

def advance (w : World σ) (time : Nat) : World σ :=
  { w with time := time, signal := w.signal.advance time }

def cancel (w : World σ) (cause : Cause) : World σ := { w with signal := w.signal.cancel cause }

end World

inductive Ending (α : Type) where
  | answered (a : α)
  | cutOff
  | stuck

namespace Behaviour

variable {σ α β : Type}

def bind (b : Behaviour σ α) (f : α → Behaviour σ β) : Behaviour σ β :=
  match b with
  | answer a => f a
  | fetch k => fetch fun memory => (k memory).bind f
  | store memory rest => store memory (rest.bind f)
  | sleep length rest => sleep length (rest.bind f)
  | cancel cause rest => cancel cause (rest.bind f)
  | poll k => poll fun cause => (k cause).bind f
  | awaitCancel k => awaitCancel fun cause => (k cause).bind f

instance : Monad (Behaviour σ) where
  pure := answer
  bind := bind

def get : Behaviour σ σ := fetch answer

def update (f : σ → σ) : Behaviour σ Unit := fetch fun memory => store (f memory) (answer ())

/-- Waits for a time. Time stands still during the empty span. A wait that would end after the limit ends
at the limit. -/
def wait (limit : Option Nat) (w : World σ) (moment : Nat) : Bool × World σ :=
  match limit with
  | some limit => if limit < moment then (false, w.advance limit) else (true, w.advance moment)
  | none => (true, w.advance moment)

def run (limit : Option Nat) : Behaviour σ α → World σ → Ending α × World σ
  | answer a, w => (.answered a, w)
  | fetch k, w => (k w.memory).run limit w
  | store memory rest, w => rest.run limit { w with memory := memory }
  | sleep length rest, w =>
    if length.nanoseconds = 0 then rest.run limit w
    else
      match wait limit w (w.time + length.nanoseconds) with
      | (true, w) => rest.run limit w
      | (false, w) => (.cutOff, w)
  | cancel cause rest, w => rest.run limit (w.cancel cause)
  | poll k, w => (k w.signal.cause).run limit w
  | awaitCancel k, w =>
    match w.signal.cause with
    | some cause => (k cause).run limit w
    | none =>
      match w.signal.firstDeadline?, limit with
      | some deadline, some limit =>
        if max w.time deadline < limit then
          (k .deadlineExceeded).run (some limit)
            ((w.advance (max w.time deadline)).cancel .deadlineExceeded)
        else (.cutOff, w.advance limit)
      | some deadline, none =>
        (k .deadlineExceeded).run none
          ((w.advance (max w.time deadline)).cancel .deadlineExceeded)
      | none, some limit => (.cutOff, w.advance limit)
      | none, none => (.stuck, w)

end Behaviour
end Delivery
