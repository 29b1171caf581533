import TaggedPayload.Batch.Config
import TaggedPayload.Text.Blank

/-!
# Log settings

How much is logged: a level for everything, levels of single components, and the form of the
output. A component is written by its short name; its log target carries the family name in front
and underscores for dashes. Components are kept in the order of their names.
-/

set_option autoImplicit false

namespace TaggedPayload

structure LogConfig where
  level : String
  /-- Components and their levels, ordered by component. -/
  components : List (String × String)
  json : Bool
deriving DecidableEq, Repr

namespace LogConfig

def usual : LogConfig := ⟨"info", [], false⟩

def target (component : String) : String :=
  let name := (Text.trim component.toList).map fun c => if c = '-' then '_' else c
  match Text.after? "progcodec".toList name with
  | some _ => String.ofList name
  | none => "progcodec_" ++ String.ofList name

/-- The filter text: the level, then each component with its own. -/
def directives (c : LogConfig) : String :=
  ",".intercalate (c.level :: c.components.map fun p => target p.1 ++ "=" ++ p.2)

def insert (name level : String) : List (String × String) → List (String × String)
  | [] => [(name, level)]
  | p :: ps =>
    if name < p.1 then (name, level) :: p :: ps
    else if name = p.1 then (name, level) :: ps
    else p :: insert name level ps

def toJson (c : LogConfig) : Json :=
  .object [("level", .string c.level),
    ("components", .object (c.components.map fun p => (p.1, .string p.2))), ("json", .bool c.json)]

/-! ## Reading -/

def names : List String := ["level", "components", "json"]

/-- Levels of components; of several for one, the last counts. -/
def componentsOf? {α : Type} (text? : α → Option String) (ms : List (String × α)) :
    Option (List (String × String)) :=
  ms.foldlM (fun ps m => (text? m.2).map fun level => insert m.1 level ps) []

structure Form (α : Type) where
  text? : α → Option String
  bool? : α → Option Bool
  members? : α → Option (List (String × α))

/-- Changes one setting; names that are no settings change nothing. -/
def set {α : Type} (form : Form α) (c : LogConfig) (m : String × α) : Option LogConfig :=
  if m.1 = "level" then (form.text? m.2).map fun x => { c with level := x }
  else if m.1 = "components" then
    ((form.members? m.2).bind (componentsOf? form.text?)).map fun x => { c with components := x }
  else if m.1 = "json" then (form.bool? m.2).map fun x => { c with json := x }
  else some c

def ofMembers? {α : Type} (form : Form α) (ms : List (String × α)) : Option LogConfig :=
  if BatchConfig.namedOnce names ms then ms.foldlM (set form) usual else none

def ofYaml? (s : String) : Option LogConfig :=
  (Yaml.onlyDocument? s).bind fun d =>
    d.members?.bind (ofMembers? ⟨Yaml.Node.text?, Yaml.Node.bool?, d.membersOf?⟩)

def ofJson (j : Json) : Except JsonFault LogConfig :=
  match (j.members? names).bind
      (ofMembers? ⟨Json.string?, Json.bool?, Json.object?⟩) with
  | some c => .ok c
  | none => .error .malformed

end LogConfig

end TaggedPayload
