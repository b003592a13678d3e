import Delivery.Registry

/-!
The runner that comes with the engine: it publishes its configuration as its output, so that later steps
find it in the shared state.
-/

namespace Delivery

variable {σ : Type}

def composeOutput : StepRunner σ where
  run context := .answer (.ok { status := .succeeded, output := context.config })

def composeOutputKind : String := "compose-output"

def Registry.withBuiltins : Registry σ :=
  Registry.empty.register composeOutputKind { runner := { step := some composeOutput } }

end Delivery
