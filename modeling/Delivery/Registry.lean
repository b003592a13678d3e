import Delivery.Behaviour
import Delivery.Context
import Delivery.Keyed

/-!
Runners and the registry that names them. A runner has one of two capabilities or both; under each name
the last registration counts, and a look-up narrows it to the capability that is asked for.

Main statement: `lookup_register` says what a registration does to every look-up.
-/

namespace Delivery

variable {σ : Type}

/-- Why a runner gives up: the outermost reason first. -/
structure RunnerError where
  reasons : List String
deriving DecidableEq, Repr

def RunnerError.message (e : RunnerError) : String := String.intercalate ": " e.reasons

structure StepRunner (σ : Type) where
  run : StepContext σ → Behaviour σ (Except RunnerError StepResult)
  defaultTimeout : Option Span := none
  /-- Failures in a row that a step may have; zero leaves it to the engine. -/
  defaultThreshold : UInt32 := 0

structure Checker (σ : Type) where
  check : CheckContext σ → Behaviour σ CheckResult

structure Runner (σ : Type) where
  step : Option (StepRunner σ) := none
  check : Option (Checker σ) := none

inductive Capability where
  | step
  | check
deriving DecidableEq, Repr

def Capability.name : Capability → String
  | step => "promotion step"
  | check => "health check"

namespace Runner

def supports (r : Runner σ) : Capability → Bool
  | .step => r.step.isSome
  | .check => r.check.isSome

def describe (r : Runner σ) : String :=
  "Runner \x7b promotion_step: " ++ toString r.step.isSome ++ ", health_check: " ++
    toString r.check.isSome ++ " \x7d"

end Runner

structure Registration (σ : Type) where
  runner : Runner σ
  permissions : Permissions := .none

def Registration.describe (r : Registration σ) : String :=
  "Registration \x7b runner: " ++ r.runner.describe ++ ", permissions: " ++ r.permissions.describe ++
    " \x7d"

inductive Resolved (σ : Type) where
  | step (runner : StepRunner σ) (permissions : Permissions)
  | check (checker : Checker σ) (permissions : Permissions)

namespace Resolved

def capability : Resolved σ → Capability
  | step _ _ => .step
  | check _ _ => .check

def permissions : Resolved σ → Permissions
  | step _ p => p
  | check _ p => p

end Resolved

namespace Registration

def narrow (r : Registration σ) : Capability → Option (Resolved σ)
  | .step => r.runner.step.map fun runner => .step runner r.permissions
  | .check => r.runner.check.map fun checker => .check checker r.permissions

end Registration

structure Registry (σ : Type) where
  registrations : Keyed (Registration σ)

namespace Registry

def empty : Registry σ := ⟨.empty⟩

def register (r : Registry σ) (name : String) (registration : Registration σ) : Registry σ :=
  ⟨r.registrations.insert name registration⟩

def lookup (r : Registry σ) (name : String) (capability : Capability) : Option (Resolved σ) :=
  (r.registrations.get? name).bind (·.narrow capability)

def stepRunner (r : Registry σ) (kind : String) : Option (StepRunner σ × Permissions) :=
  match r.lookup kind .step with
  | some (.step runner permissions) => some (runner, permissions)
  | _ => none

def healthChecker (r : Registry σ) (kind : String) : Option (Checker σ × Permissions) :=
  match r.lookup kind .check with
  | some (.check checker permissions) => some (checker, permissions)
  | _ => none

def contains (r : Registry σ) (name : String) : Bool := r.registrations.contains name

def kinds (r : Registry σ) : List String := r.registrations.keys

def size (r : Registry σ) : Nat := r.registrations.size

theorem lookup_register (r : Registry σ) (name other : String) (registration : Registration σ)
    (capability : Capability) :
    (r.register name registration).lookup other capability =
      if other = name then registration.narrow capability else r.lookup other capability := by
  simp only [lookup, register, Keyed.get?_insert]
  split <;> rfl

end Registry
end Delivery
