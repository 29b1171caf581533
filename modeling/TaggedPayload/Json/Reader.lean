import TaggedPayload.Json.Tree

/-!
# Reading JSON

The reader builds the tree of a text from the left. It stops at the first character that no JSON
text can have there, and then the tree holds what came before. A caller turns the tree into its own
type; a refusal by the caller wins over a fault of the text that comes later.
-/

set_option autoImplicit false

namespace TaggedPayload.Json

def isBlank (c : Char) : Bool :=
  c == ' ' || c == '\n' || c == '\t' || c == '\r'

def skipBlanks (cs : List Char) : List Char :=
  cs.dropWhile isBlank

/-- A tree and the text after it; no text after it when the text is faulty inside. -/
abbrev Parse := Json × Option (List Char)

def stuck : Parse := (broken null, none)

inductive StringState
  | plain
  /-- Behind a backslash. -/
  | escape
  /-- Inside a code unit of which `left` digits are missing. -/
  | unit (left value : Nat)

/-- What a string holds so far: the characters, last first; a high surrogate that waits for its low
half; and whether any half stayed alone. -/
structure StringPart where
  reversed : List Char
  high : Option Nat
  alone : Bool

namespace StringPart

def empty : StringPart := ⟨[], none, false⟩

def push (p : StringPart) (c : Char) : StringPart :=
  ⟨c :: p.reversed, none, p.alone || p.high.isSome⟩

def pushUnit (p : StringPart) (u : Nat) : StringPart :=
  if 0xDC00 ≤ u ∧ u < 0xE000 then
    match p.high with
    | some h =>
      ⟨Char.ofNat (0x10000 + (h - 0xD800) * 0x400 + (u - 0xDC00)) :: p.reversed, none, p.alone⟩
    | none => ⟨p.reversed, none, true⟩
  else if 0xD800 ≤ u ∧ u < 0xDC00 then ⟨p.reversed, some u, p.alone || p.high.isSome⟩
  else p.push (Char.ofNat u)

/-- The text, when no half of a pair is alone. -/
def text? (p : StringPart) : Option String :=
  if p.alone || p.high.isSome then none else some (String.ofList p.reversed.reverse)

end StringPart

def unescape? : Char → Option Char
  | '"' => some '"'
  | '\\' => some '\\'
  | '/' => some '/'
  | 'b' => some '\x08'
  | 'f' => some '\x0c'
  | 'n' => some '\n'
  | 'r' => some '\r'
  | 't' => some '\t'
  | _ => none

/-- Reads to the closing quote: the text, if every surrogate has its other half, and the rest. -/
def readString : StringState → StringPart → List Char → Option (Option String × List Char)
  | _, _, [] => none
  | .plain, p, c :: cs =>
    if c = '"' then some (p.text?, cs)
    else if c = '\\' then readString .escape p cs
    else if c.toNat < 0x20 then none
    else readString .plain (p.push c) cs
  | .escape, p, c :: cs =>
    if c = 'u' then readString (.unit 4 0) p cs
    else
      match unescape? c with
      | some d => readString .plain (p.push d) cs
      | none => none
  | .unit left value, p, c :: cs =>
    match Text.digitValue? 16 c with
    | none => none
    | some d =>
      if left ≤ 1 then readString .plain (p.pushUnit (value * 16 + d)) cs
      else readString (.unit (left - 1) (value * 16 + d)) p cs

def isDigit (c : Char) : Bool :=
  '0' ≤ c && c ≤ '9'

/-- The digits at the front, of which there must be one, and the rest. -/
def digits? (cs : List Char) : Option (List Char × List Char) :=
  match cs.takeWhile isDigit with
  | [] => none
  | ds => some (ds, cs.dropWhile isDigit)

def fraction? : List Char → Option (List Char × List Char)
  | '.' :: cs => (digits? cs).map fun (ds, r) => ('.' :: ds, r)
  | cs => some ([], cs)

def exponent? : List Char → Option (List Char × List Char)
  | c :: cs =>
    if c = 'e' ∨ c = 'E' then
      match cs with
      | s :: ds =>
        if s = '+' ∨ s = '-' then (digits? ds).map fun (ds, r) => (c :: s :: ds, r)
        else (digits? cs).map fun (ds, r) => (c :: ds, r)
      | [] => none
    else some ([], c :: cs)
  | [] => some ([], [])

def decimalValue (ds : List Char) : Nat :=
  ds.foldl (fun n c => n * 10 + (c.toNat - 48)) 0

/-- Reads the part of a number after its sign: no zero stands in front of other digits. -/
def readNumber (negative : Bool) (cs : List Char) : Parse :=
  match digits? cs with
  | none => stuck
  | some (ds, r) =>
    if ds.length > 1 ∧ ds.head? = some '0' then stuck
    else
      match fraction? r with
      | none => stuck
      | some (fs, r) =>
        match exponent? r with
        | none => stuck
        | some (es, r) =>
          if fs.isEmpty ∧ es.isEmpty then (integer negative (decimalValue ds), some r)
          else
            (fraction (String.ofList ((if negative then ['-'] else []) ++ ds ++ fs ++ es)), some r)

def readWord (word : List Char) (tree : Json) (cs : List Char) : Parse :=
  if cs.take word.length = word then (tree, some (cs.drop word.length)) else stuck

/-- The object of its members; a key without a text breaks it off. -/
def ofMembers (ms : List (Option String × Json)) : Json :=
  let named := ms.filterMap fun (k, x) => k.map (·, x)
  if named.length = ms.length then object named
  else
    broken (object ((ms.takeWhile (·.1.isSome)).filterMap fun (k, x) => k.map (·, x)))

mutual

/-- Reads one value; `fuel` bounds the depth of the reading and is never short when it exceeds the
length of the text. -/
def readValue : (fuel : Nat) → List Char → Parse
  | 0, _ => stuck
  | fuel + 1, cs =>
    match skipBlanks cs with
    | [] => stuck
    | c :: cs =>
      if c = '"' then
        match readString .plain .empty cs with
        | some (some s, r) => (string s, some r)
        | some (none, r) => (broken null, some r)
        | none => stuck
      else if c = '[' then
        match skipBlanks cs with
        | ']' :: r => (array [], some r)
        | _ => readItems fuel [] cs
      else if c = '\x7b' then
        match skipBlanks cs with
        | '\x7d' :: r => (object [], some r)
        | _ => readMembers fuel [] cs
      else if c = '-' then readNumber true cs
      else if isDigit c then readNumber false (c :: cs)
      else if c = 'n' then readWord "ull".toList null cs
      else if c = 't' then readWord "rue".toList (bool true) cs
      else if c = 'f' then readWord "alse".toList (bool false) cs
      else stuck

/-- Reads the items of an array from the first one on; `done` holds those read, last first. -/
def readItems : (fuel : Nat) → (done : List Json) → List Char → Parse
  | 0, _, _ => stuck
  | fuel + 1, done, cs =>
    match readValue fuel cs with
    | (x, none) => (broken (array (x :: done).reverse), none)
    | (x, some r) =>
      match skipBlanks r with
      | ']' :: r => (array (x :: done).reverse, some r)
      | ',' :: r => readItems fuel (x :: done) r
      | _ => (broken (array (x :: done).reverse), none)

def readMembers : (fuel : Nat) → (done : List (Option String × Json)) → List Char → Parse
  | 0, _, _ => stuck
  | fuel + 1, done, cs =>
    match skipBlanks cs with
    | '"' :: cs =>
      match readString .plain .empty cs with
      | none => (broken (ofMembers done.reverse), none)
      | some (key, r) =>
        match skipBlanks r with
        | ':' :: r =>
          match readValue fuel r with
          | (x, none) => (broken (ofMembers ((key, x) :: done).reverse), none)
          | (x, some r) =>
            match skipBlanks r with
            | '\x7d' :: r => (ofMembers ((key, x) :: done).reverse, some r)
            | ',' :: r => readMembers fuel ((key, x) :: done) r
            | _ => (broken (ofMembers ((key, x) :: done).reverse), none)
        | _ => (broken (ofMembers done.reverse), none)
    | _ => (broken (ofMembers done.reverse), none)

end

def ofText {α : Type} (ofTree : Json → Except JsonFault α) (s : String) : Except JsonFault α :=
  let (tree, rest) := readValue (s.length + 1) s.toList
  match ofTree tree, rest with
  | .ok v, some r => if (skipBlanks r).isEmpty then .ok v else .error .malformed
  | .ok _, none => .error .malformed
  | .error e, _ => .error e

/-- Reads the part of a broken value for the sake of a refusal in it. -/
def breakOff {α : Type} (part : Except JsonFault α) : Except JsonFault α :=
  match part with
  | .error (.refused m) => .error (.refused m)
  | _ => .error .malformed

end TaggedPayload.Json
