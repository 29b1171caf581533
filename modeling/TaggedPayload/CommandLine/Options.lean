import TaggedPayload.Layout.Basic
import TaggedPayload.Matching.Strategy
import TaggedPayload.Text.Number

/-!
# Command line options

Options come as `--name value` or `--name=value`; those with a letter also as `-l value`, `-lvalue`
or `-l=value`, and flags of one letter may share a dash. A value that starts with a dash has to be
written with the equals sign, unless it is the dash alone. No option is given twice, and a value is
checked when it is read. Asking for help or for the version ends the reading.
-/

set_option autoImplicit false

namespace TaggedPayload.CommandLine

inductive ValueSort
  | text
  | size
  | kind
  | strategy
deriving DecidableEq, Repr

def size? (s : String) : Option Nat := (Text.readSize s.toList).toOption

def strategy? (s : String) : Option MatchStrategy := (MatchStrategy.ofText s).toOption

def ValueSort.accepts : ValueSort → String → Bool
  | text, _ => true
  | size, s => (size? s).isSome
  | kind, s => (LayoutKind.ofText? s).isSome
  | strategy, s => (strategy? s).isSome

inductive OptionRole
  | flag
  | value (sort : ValueSort)
  | help
  | version
deriving DecidableEq, Repr

structure OptionForm where
  name : String
  letter : Option Char
  role : OptionRole
  about : String
  needed : Bool
  /-- The value when the option is not given. -/
  usual : Option String
deriving DecidableEq, Repr

inductive Interruption
  | misuse
  /-- Help is asked for, in full or in short. -/
  | help (full : Bool)
  | version
deriving DecidableEq, Repr

/-- Options given so far and their values; flags have an empty one. -/
abbrev Given := List (String × String)

def Given.add (g : Given) (name value : String) : Except Interruption Given :=
  if g.any (·.1 == name) then .error .misuse else .ok (g ++ [(name, value)])

def Given.addValue (g : Given) (name : String) (sort : ValueSort) (value : String) :
    Except Interruption Given :=
  if sort.accepts value then g.add name value else .error .misuse

/-- An argument of more than a dash that starts with one. -/
def looksLikeOption (arg : String) : Bool :=
  arg.startsWith "-" && arg != "-"

/-- Splits the text of a long option at its first equals sign. -/
def splitLong (cs : List Char) : String × Option String :=
  (String.ofList (cs.takeWhile (· != '=')),
    match cs.dropWhile (· != '=') with
    | _ :: value => some (String.ofList value)
    | [] => none)

/-- The options so far, and the option that still waits for its value. -/
abbrev Progress := Except Interruption (Given × Option (String × ValueSort))

def readLong (forms : List OptionForm) (g : Given) (cs : List Char) : Progress :=
  let (name, value) := splitLong cs
  match forms.find? (·.name == name) with
  | none => .error .misuse
  | some f =>
    match f.role, value with
    | .value sort, some v => (g.addValue name sort v).map (·, none)
    | .value sort, none => .ok (g, some (name, sort))
    | _, some _ => .error .misuse
    | .flag, none => (g.add name "").map (·, none)
    | .help, none => .error (.help true)
    | .version, none => .error .version

def readLetters (forms : List OptionForm) (g : Given) : List Char → Progress
  | [] => .ok (g, none)
  | c :: cs =>
    match forms.find? (·.letter == some c) with
    | none => .error .misuse
    | some f =>
      match f.role, cs with
      | .help, _ => .error (.help false)
      | .version, _ => .error .version
      | .flag, cs => (g.add f.name "").bind fun g => readLetters forms g cs
      | .value sort, [] => .ok (g, some (f.name, sort))
      | .value sort, '=' :: v => (g.addValue f.name sort (String.ofList v)).map (·, none)
      | .value sort, v => (g.addValue f.name sort (String.ofList v)).map (·, none)

def readOption (forms : List OptionForm) (g : Given) (arg : String) : Progress :=
  match arg.toList with
  | '-' :: '-' :: cs => readLong forms g cs
  | '-' :: cs => readLetters forms g cs
  | _ => .error .misuse

/-- Reads options up to the first argument that is none; `waiting` still lacks its value. -/
def readOptions (forms : List OptionForm) :
    (waiting : Option (String × ValueSort)) → Given → List String →
      Except Interruption (Given × List String)
  | none, g, [] => .ok (g, [])
  | some _, _, [] => .error .misuse
  | some (name, sort), g, a :: as =>
    if looksLikeOption a then .error .misuse
    else (g.addValue name sort a).bind fun g => readOptions forms none g as
  | none, g, a :: as =>
    if looksLikeOption a && a != "--" then
      (readOption forms g a).bind fun (g, waiting) => readOptions forms waiting g as
    else .ok (g, a :: as)

end TaggedPayload.CommandLine
