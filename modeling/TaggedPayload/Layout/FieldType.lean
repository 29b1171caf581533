import TaggedPayload.Binary.Cursor
import TaggedPayload.Binary.Width
import TaggedPayload.Text.Blank
import TaggedPayload.Value.Basic

/-!
# Field types

The encodings that a layout can name: little-endian integers of five widths, truth values, keys,
text and bytes behind a length, and bytes of a fixed width. Each has one written name; a key has a
second one, and blanks around a name do not count.
-/

set_option autoImplicit false

namespace TaggedPayload

inductive FieldType
  | unsigned (w : Width)
  | signed (w : Width)
  | bool
  | key
  /-- UTF-8 behind a length of four bytes. -/
  | text
  /-- Bytes behind a length of four bytes. -/
  | block
  | fixed (count : Nat)
deriving DecidableEq, Repr

inductive FieldTypeFault
  | unknown (name : String)
  | badWidth (name : String)
deriving DecidableEq, Repr

def FieldTypeFault.message : FieldTypeFault → String
  | unknown s => s!"unknown type '{s}'"
  | badWidth s => s!"invalid byte width in '{s}'"

namespace FieldType

def name : FieldType → String
  | unsigned w => "u" ++ Text.natText w.bits
  | signed w => "i" ++ Text.natText w.bits
  | bool => "bool"
  | key => "pubkey"
  | text => "string"
  | block => "bytes"
  | fixed n => "bytes<" ++ Text.natText n ++ ">"

def plain : List (String × FieldType) :=
  [("u8", unsigned .one), ("u16", unsigned .two), ("u32", unsigned .four),
    ("u64", unsigned .eight), ("u128", unsigned .sixteen),
    ("i8", signed .one), ("i16", signed .two), ("i32", signed .four),
    ("i64", signed .eight), ("i128", signed .sixteen),
    ("bool", bool), ("pubkey", key), ("publicKey", key), ("string", text), ("bytes", block)]

def widthText? (cs : List Char) : Option (List Char) :=
  match Text.after? "bytes<".toList cs with
  | some rest => if rest.getLast? = some '>' then some rest.dropLast else none
  | none => none

def ofText (s : String) : Except FieldTypeFault FieldType :=
  let s := Text.trimmed s
  match plain.lookup s with
  | some ty => .ok ty
  | none =>
    match widthText? s.toList with
    | none => .error (.unknown s)
    | some cs =>
      match Text.readSize cs with
      | .ok n => .ok (fixed n)
      | .error _ => .error (.badWidth s)

def read (ty : FieldType) (c : Cursor) : Except ReadError Value × Cursor :=
  match ty with
  | unsigned w => let (r, c') := c.unsigned w.size; (r.map .uint, c')
  | signed w => let (r, c') := c.signed w.size; (r.map .int, c')
  | bool => let (r, c') := c.bool; (r.map .bool, c')
  | key => let (r, c') := c.key; (r.map .ofKey, c')
  | text => let (r, c') := c.text; (r.map .text, c')
  | block => let (r, c') := c.block; (r.map .bytes, c')
  | fixed n => let (r, c') := c.take n; (r.map .bytes, c')

end FieldType

abbrev Field := String × FieldType

/-- Reads fields in order up to the first that fails; the cursor stands where reading ended. -/
def readFields : List Field → Cursor → Except ReadError (List (String × Value)) × Cursor
  | [], c => (.ok [], c)
  | (name, ty) :: fs, c =>
    match ty.read c with
    | (.ok v, c') => let (r, c'') := readFields fs c'; (r.map ((name, v) :: ·), c'')
    | (.error e, c') => (.error e, c')

/-- The record of the fields at the start of a payload; what follows them is ignored. -/
def readRecord (fs : List Field) (payload : Bytes) : Except ReadError Value :=
  (readFields fs (.start payload)).1.map .record

end TaggedPayload
