import TaggedPayload.CommandLine.Inputs
import TaggedPayload.Text.Segments

/-!
# Files in memory

The files of one directory as a value. A path names a file from there: it is read name by name, a
single dot stays where it is, two dots lead out, and what comes behind a file or is too long is a
fault of its own. Of what is outside, only the directories above and the empty device are known.
-/

set_option autoImplicit false

namespace TaggedPayload.CommandLine

/-- File names and texts; a name with slashes stands for a file further down. -/
abbrev Directory := List (String × String)

inductive Location
  /-- A directory, by the names that lead to it. -/
  | inside (names : List String)
  | file (text : String)
  /-- A directory above. -/
  | outside
deriving DecidableEq, Repr

namespace Directory

/-- The longest name in octets. -/
def nameLimit : Nat := 255

/-- Paths of so many octets are too long. -/
def pathLimit : Nat := 4096

def emptyDevice : String := "/dev/null"

def enter (d : Directory) (names : List String) (name : String) : Except FileFault Location :=
  let inner := names ++ [name]
  let path := "/".intercalate inner
  match d.lookup path with
  | some text => .ok (.file text)
  | none =>
    if d.any fun f => (path ++ "/").isPrefixOf f.1 then .ok (.inside inner) else .error .absent

def step (d : Directory) (l : Location) (name : String) : Except FileFault Location :=
  match l with
  | .file _ => .error .notDirectory
  | .outside => if name ∈ ["", ".", ".."] then .ok .outside else .error .absent
  | .inside names =>
    if name ∈ ["", "."] then .ok l
    else if name = ".." then .ok (if names.isEmpty then .outside else .inside names.dropLast)
    else if nameLimit < name.utf8ByteSize then .error .nameTooLong
    else d.enter names name

def files (d : Directory) : Files := fun path =>
  if path.isEmpty then .error .absent
  else if pathLimit ≤ path.utf8ByteSize then .error .nameTooLong
  else if path = emptyDevice then .ok ""
  else
    let names := (Text.segments '/' path.toList).map String.ofList
    let start := if path.startsWith "/" then .outside else .inside []
    match names.foldlM (step d) start with
    | .ok (.file text) => .ok text
    | .ok _ => .error .directory
    | .error f => .error f

end Directory

end TaggedPayload.CommandLine
