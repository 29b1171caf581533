import TaggedPayload.Layout.Basic
import TaggedPayload.Text.Blank
import TaggedPayload.Yaml.Value

/-!
# Layout documents

Layouts are written in YAML, one a document. The document is a mapping with a key of `layout` and a
name; of several such keys the first counts. Its value is the body: kind, program, tag and fields,
of which only the fields have to be there; the name is one more member of it. Strings may be tagged.
Documents are taken in order and the first fault decides: of the text, then of the document, the
body's members in their order, the field types, the program and the tag.
-/

set_option autoImplicit false

namespace TaggedPayload

inductive LayoutFault
  /-- The text is no YAML, or a mapping names a key twice. -/
  | yaml
  | notMapping
  | noLayoutKey
  | emptyName
  | bodyNotMapping (layout : String)
  /-- A member of the body has a value of another sort. -/
  | wrongSort (layout : String)
  | missingFields (layout : String)
  | unknownKind (layout kind : String)
  | badField (layout field : String) (fault : FieldTypeFault)
  | badTag (layout text : String)
  | badProgram (fault : KeyFault)
  /-- There is no layout where one was asked for. -/
  | noDocument
deriving DecidableEq, Repr

/-- The text of a fault; two of them are described by their sort only. -/
def LayoutFault.message : LayoutFault → String
  | yaml => "malformed YAML"
  | notMapping => "layout document must be a YAML mapping"
  | noLayoutKey => "missing 'layout <Name>' key"
  | emptyName => "layout name is empty"
  | bodyNotMapping l => s!"layout '{l}' body must be a mapping"
  | wrongSort l => s!"layout '{l}': invalid type"
  | missingFields l => s!"layout '{l}': missing field `fields`"
  | unknownKind l k =>
    s!"layout '{l}': unknown variant `{k}`, expected one of `event`, `account`, `instruction`"
  | badField l f e => s!"layout '{l}' field '{f}': {e.message}"
  | badTag l t => s!"layout '{l}': invalid discriminator '{t}'"
  | badProgram f => f.message
  | noDocument => "empty layout document"

namespace Layout

/-- The body of a layout before its texts are read, as far as its members are there. -/
structure Body where
  name : Option String
  kind : Option LayoutKind
  program : Option (Option String)
  tag : Option (Option String)
  fields : Option (List (String × String))

namespace Body

def empty : Body := ⟨none, none, none, none, none⟩

/-- Takes a value for a place that is still free. -/
def fill {α : Type} (layout : String) (place : Option α) (value : Except LayoutFault α) :
    Except LayoutFault (Option α) :=
  if place.isSome then .error (.wrongSort layout) else value.map some

def text (layout : String) (v : Yaml.Value) : Except LayoutFault String :=
  match v.string? with
  | some s => .ok s
  | none => .error (.wrongSort layout)

/-- A string, or null for none. -/
def optional (layout : String) : Yaml.Value → Except LayoutFault (Option String)
  | .null => .ok none
  | v => (text layout v).map some

def kindNamed (layout s : String) : Except LayoutFault LayoutKind :=
  match LayoutKind.ofText? s with
  | some k => .ok k
  | none => .error (.unknownKind layout s)

/-- A kind: its name, or null with the name for a tag. -/
def kindOf (layout : String) : Yaml.Value → Except LayoutFault LayoutKind
  | .string s => kindNamed layout s
  | .tagged name v => do
    let k ← kindNamed layout (Yaml.Value.bareName name)
    match v with
    | .null => return k
    | _ => .error (.wrongSort layout)
  | _ => .error (.wrongSort layout)

/-- Sets the type of a field; a field that is there keeps its place. -/
def insertField (f : String × String) : List (String × String) → List (String × String)
  | [] => [f]
  | g :: fs => if g.1 = f.1 then f :: fs else g :: insertField f fs

def fieldOf (layout : String) (fs : List (String × String)) (e : Yaml.Value × Yaml.Value) :
    Except LayoutFault (List (String × String)) := do
  let name ← text layout e.1
  let ty ← text layout e.2
  return insertField (name, ty) fs

def fieldsOf (layout : String) (v : Yaml.Value) : Except LayoutFault (List (String × String)) :=
  match v.untagged with
  | .mapping es => es.foldlM (fieldOf layout) []
  | .null => .ok []
  | _ => .error (.wrongSort layout)

/-- Takes one member in; members of other names do not count. -/
def member (layout : String) (b : Body) (e : Yaml.Value × Yaml.Value) :
    Except LayoutFault Body := do
  let (key, v) := e
  match ← text layout key with
  | "layout" => return { b with name := ← fill layout b.name (text layout v) }
  | "kind" => return { b with kind := ← fill layout b.kind (kindOf layout v) }
  | "program" => return { b with program := ← fill layout b.program (optional layout v) }
  | "discriminator" => return { b with tag := ← fill layout b.tag (optional layout v) }
  | "fields" => return { b with fields := ← fill layout b.fields (fieldsOf layout v) }
  | _ => return b

def isNameKey : Yaml.Value → Bool
  | .string s => s == "layout"
  | _ => false

/-- The members with the name as one of them, in the place of its key or at the end. -/
def withName (layout : String) (es : List (Yaml.Value × Yaml.Value)) :
    List (Yaml.Value × Yaml.Value) :=
  if es.any (isNameKey ·.1) then
    es.map fun e => if isNameKey e.1 then (e.1, .string layout) else e
  else es ++ [(.string "layout", .string layout)]

def ofEntries (layout : String) (es : List (Yaml.Value × Yaml.Value)) : Except LayoutFault Body :=
  (withName layout es).foldlM (member layout) empty

end Body

def readField (layout : String) (f : String × String) : Except LayoutFault Field :=
  match FieldType.ofText f.2 with
  | .ok ty => .ok (f.1, ty)
  | .error e => .error (.badField layout f.1 e)

def ofBody (name : String) (b : Body) : Except LayoutFault Layout := do
  let texts ←
    match b.fields with
    | some fs => .ok fs
    | none => .error (.missingFields name)
  let fields ← texts.mapM (readField name)
  let program ←
    match b.program.join with
    | none => .ok .zero
    | some s =>
      match AccountKey.ofText s with
      | .ok k => .ok k
      | .error f => .error (.badProgram f)
  let kind := b.kind.getD .event
  let tag ←
    match b.tag.join with
    | none => .ok (kind.tag name)
    | some s =>
      match Tag.ofText? s with
      | some t => .ok t
      | none => .error (.badTag name s)
  return ⟨name, kind, program, tag, fields⟩

def nameOfKey? (key : Yaml.Value) : Option String :=
  key.string?.bind fun s =>
    (Text.after? "layout ".toList s.toList).map fun cs => String.ofList (Text.trim cs)

/-- The first layout key's name and its value. -/
def header? (es : List (Yaml.Value × Yaml.Value)) : Option (String × Yaml.Value) :=
  es.findSome? fun e => (nameOfKey? e.1).map (·, e.2)

def ofValue : Yaml.Value → Except LayoutFault Layout
  | .mapping es =>
    match header? es with
    | none => .error .noLayoutKey
    | some (name, body) =>
      if name.isEmpty then .error .emptyName
      else
        match body with
        | .mapping ms => do ofBody name (← Body.ofEntries name ms)
        | _ => .error (.bodyNotMapping name)
  | _ => .error .notMapping

/-- The layouts of documents in order; documents without content do not count. -/
def ofDocuments : List Yaml.Document → Except LayoutFault (List Layout)
  | [] => .ok []
  | d :: ds =>
    match Yaml.Value.ofDocument? d with
    | none => .error .yaml
    | some v =>
      match v.untagged with
      | .null => ofDocuments ds
      | _ => do
        let l ← ofValue v
        return l :: (← ofDocuments ds)

/-- The layouts of a text. A fault of the text comes after the documents before it. -/
def readAll (yaml : String) : Except LayoutFault (List Layout) := do
  let ds := Yaml.documents yaml
  let ls ← ofDocuments ds.all
  if ds.faulty then .error .yaml else return ls

def readFirst (yaml : String) : Except LayoutFault Layout := do
  match ← readAll yaml with
  | l :: _ => return l
  | [] => .error .noDocument

end Layout

end TaggedPayload
