import TaggedPayload.LogRecord
import TaggedPayload.Registry.Basic

/-!
# Registry histories

The calls that change a registry, as data. A call yields the number of decoders it added, or an
error, and the registry that it leaves behind; a history is a list of calls in the order in which
they take effect.
-/

set_option autoImplicit false

namespace TaggedPayload

inductive RegistryCommand
  | register (key : String) (h : Handle)
  | registerForProgram (program : AccountKey) (h : Handle)
  | registerAll (entries : List (String × Handle))
  | loadLayouts (yaml : String)
  | setFallback (h : Handle)

namespace RegistryCommand

/-- The call on the registry; it yields the number of decoders that it added. -/
def call : RegistryCommand → RegistryCall Nat
  | register key h => do
    RegistryCall.register key h
    return 1
  | registerForProgram p h => do
    RegistryCall.registerForProgram p h
    return 1
  | registerAll es => RegistryCall.registerAll es
  | loadLayouts yaml => RegistryCall.loadLayouts yaml
  | setFallback h => do
    RegistryCall.setFallback h
    return 0

def report : RegistryCommand → List LogRecord
  | register key h =>
    [record "registering decoder"
      [("key", key), ("decoder", h.name), ("program", h.program.text)]]
  | registerForProgram p h =>
    [record "registering program decoder" [("decoder", h.name), ("program", p.text)]]
  | setFallback h => [record "setting fallback decoder" [("decoder", h.name)]]
  | registerAll _ => []
  | loadLayouts _ => []
where
  record (message : String) (fields : List (String × String)) : LogRecord :=
    ⟨.debug, "progcodec_registry::registry", message, fields⟩

structure Outcome where
  result : Except RegistryError Nat
  records : List LogRecord

def perform (r : Registry) (c : RegistryCommand) : Registry × Outcome :=
  match c.call.on r with
  | (.ok n, r') => (r', ⟨.ok n, c.report⟩)
  | (.error e, r') => (r', ⟨.error e, []⟩)

def run (r : Registry) : List RegistryCommand → Registry
  | [] => r
  | c :: cs => run (c.perform r).1 cs

theorem run_append (r : Registry) (cs ds : List RegistryCommand) :
    run r (cs ++ ds) = run (run r cs) ds := by
  induction cs generalizing r with
  | nil => rfl
  | cons c cs ih => exact ih _

end RegistryCommand

def Registry.Reachable (r : Registry) : Prop :=
  ∃ cs, RegistryCommand.run .empty cs = r

end TaggedPayload
