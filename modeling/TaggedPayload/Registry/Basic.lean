import TaggedPayload.Layout.Document
import TaggedPayload.Registry.Candidates

/-!
# The registry

Decoders in the order in which they were registered, each under a key of its own; for each program,
the decoders that belong to it, in the same order; and an optional fallback. Calls change a registry
in place: they check their keys first and insert afterwards. Dispatch with a program asks the
program's decoders first, then the others, then the fallback.
-/

set_option autoImplicit false

namespace TaggedPayload

inductive RegistryError
  | alreadyRegistered (key : String)
  | layout (fault : LayoutFault)
deriving DecidableEq, Repr

def RegistryError.message : RegistryError → String
  | alreadyRegistered k => s!"Decoder key '{k}' is already registered"
  | layout (.badProgram f) => f.message
  | layout f => s!"Layout error: {f.message}"

structure Registry where
  /-- Keys and decoders in registration order. -/
  entries : List (String × Handle)
  /-- Programs and the decoders that belong to them, in registration order. -/
  owned : List (AccountKey × Handle)
  fallback : Option Handle
  /-- How many decoders were made from layouts. -/
  loaded : Nat

namespace Registry

def empty : Registry := ⟨[], [], none, 0⟩

/-! ## Views -/

def keys (r : Registry) : List String := r.entries.map (·.1)

def decoders (r : Registry) : List Handle := r.entries.map (·.2)

def names (r : Registry) : List String := r.decoders.map (·.name)

def size (r : Registry) : Nat := r.entries.length

def contains (r : Registry) (key : String) : Bool := r.keys.contains key

def get? (r : Registry) (key : String) : Option Handle := r.entries.lookup key

def bucket (r : Registry) (program : AccountKey) : List Handle :=
  (r.owned.filter (·.1 == program)).map (·.2)

/-- The candidates for payloads of a program, or of any program. A decoder that belongs to the
program is not asked a second time. -/
def candidates (r : Registry) (program : Option AccountKey) : Candidates :=
  let first := (program.map r.bucket).getD []
  ⟨first ++ r.decoders.filter fun h => !first.any (·.isSame h), r.fallback⟩

/-! ## Registration -/

/-- Adds a decoder under a free key, and to a program's decoders. -/
def insert (r : Registry) (key : String) (program : Option AccountKey) (h : Handle) : Registry :=
  { r with
    entries := r.entries ++ [(key, h)]
    owned := r.owned ++ (program.map fun p => (p, h)).toList }

def setFallback (r : Registry) (h : Handle) : Registry :=
  { r with fallback := some h }

/-- The decoders of layouts under the layouts' names; their identities start at `n`. -/
def loadedEntries (n : Nat) : List Layout → List (String × Handle)
  | [] => []
  | l :: ls => (l.name, ⟨.loaded n, .tagged l.decoder⟩) :: loadedEntries (n + 1) ls

end Registry

/-- A call that changes a registry. The changes it makes before it fails stay. -/
abbrev RegistryCall := ExceptT RegistryError (StateM Registry)

namespace RegistryCall

variable {α : Type}

/-- The answer to a call, and the registry after it. -/
def on (c : RegistryCall α) (r : Registry) : Except RegistryError α × Registry :=
  Id.run (c.run.run r)

/-- The registry after a call, if the call succeeds. -/
def after (c : RegistryCall α) (r : Registry) : Except RegistryError Registry :=
  match c.on r with
  | (.ok _, r') => .ok r'
  | (.error e, _) => .error e

def refuse (key : String) (taken : Bool) : RegistryCall Unit :=
  if taken then throw (.alreadyRegistered key) else pure ()

/-- Registers a decoder under a key, and for a program if one is given. -/
def enlist (key : String) (program : Option AccountKey) (h : Handle) : RegistryCall Unit := do
  refuse key ((← get).contains key)
  modify (·.insert key program h)

def register (key : String) (h : Handle) : RegistryCall Unit :=
  enlist key h.scope h

/-- Registers a decoder for a program under the program's text. -/
def registerForProgram (program : AccountKey) (h : Handle) : RegistryCall Unit :=
  enlist program.text (some program) h

/-- Refuses the first key that is taken, by the registry or by one of the entries before it, whose
keys are `before`. -/
def checkKeys (before : List String) : List (String × Handle) → RegistryCall Unit
  | [] => pure ()
  | (key, _) :: es => do
    refuse key (before.contains key || (← get).contains key)
    checkKeys (before ++ [key]) es

def insertEach : List (String × Handle) → RegistryCall Unit
  | [] => pure ()
  | (key, h) :: es => do
    modify (·.insert key h.scope h)
    insertEach es

/-- Registers several decoders and counts them. All keys are checked before the first insertion. -/
def registerAll (es : List (String × Handle)) : RegistryCall Nat := do
  checkKeys [] es
  insertEach es
  return es.length

def loadLayouts (yaml : String) : RegistryCall Nat := do
  match Layout.readAll yaml with
  | .error f => throw (.layout f)
  | .ok ls =>
    let n ← registerAll (Registry.loadedEntries (← get).loaded ls)
    modify fun r => { r with loaded := r.loaded + n }
    return n

def setFallback (h : Handle) : RegistryCall Unit :=
  modify (·.setFallback h)

end RegistryCall

namespace Registry

def register (r : Registry) (key : String) (h : Handle) : Except RegistryError Registry :=
  (RegistryCall.register key h).after r

def registerForProgram (r : Registry) (program : AccountKey) (h : Handle) :
    Except RegistryError Registry :=
  (RegistryCall.registerForProgram program h).after r

def registerAll (r : Registry) (es : List (String × Handle)) : Except RegistryError Registry :=
  (RegistryCall.registerAll es).after r

def loadLayouts (r : Registry) (yaml : String) : Except RegistryError Registry :=
  (RegistryCall.loadLayouts yaml).after r

/-! ## Dispatch -/

def decode (r : Registry) (data : Bytes) (program : Option AccountKey) : Except DecodeError Event :=
  (r.candidates program).decode data

/-- Strict dispatch of each payload; those that fail are left out. -/
def decodeAll (r : Registry) (payloads : List Bytes) (program : Option AccountKey) : List Event :=
  (r.candidates program).decodeAll payloads

/-- Strict dispatch of the payloads that a log parser finds in lines. -/
def decodeLog (r : Registry) (payloadsOf : List String → List Bytes) (lines : List String)
    (program : Option AccountKey) : List Event :=
  r.decodeAll (payloadsOf lines) program

end Registry

end TaggedPayload
