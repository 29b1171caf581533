import TaggedPayload.Binary.Width
import TaggedPayload.Text.Utf8
import TaggedPayload.Value.Basic

/-!
# Record shapes

Records of a fixed shape are stored field after field: integers little endian, text, bytes and
lists behind a length of four bytes, and an optional value behind a byte that says whether it is
there. Bytes after the record are ignored.
-/

set_option autoImplicit false

namespace TaggedPayload

inductive Shape
  | uint (w : Width)
  | int (w : Width)
  | bool
  | key
  | text
  | block
  | optional (s : Shape)
  | list (s : Shape)
deriving DecidableEq, Repr

inductive ShapeFault
  | tooShort
  | badBool (byte : UInt8)
  | badOption (byte : UInt8)
  | badText (fault : Text.Utf8Fault)
deriving DecidableEq, Repr

def ShapeFault.message : ShapeFault → String
  | tooShort => "Unexpected length of input"
  | badBool b => s!"Invalid bool representation: {b.toNat}"
  | badOption b =>
    s!"Invalid Option representation: {b.toNat}. The first byte must be 0 or 1"
  | badText f => f.message

namespace Shape

def takeBytes (n : Nat) (bs : Bytes) : Except ShapeFault (Bytes × Bytes) :=
  if n ≤ bs.length then .ok (bs.take n, bs.drop n) else .error .tooShort

/-- A length of four bytes and that many bytes. -/
def takeBlock (bs : Bytes) : Except ShapeFault (Bytes × Bytes) := do
  let (n, bs) ← takeBytes 4 bs
  takeBytes n.toNat bs

def readItems (item : Bytes → Except ShapeFault (Value × Bytes)) :
    (count : Nat) → Bytes → Except ShapeFault (List Value × Bytes)
  | 0, bs => .ok ([], bs)
  | n + 1, bs =>
    match item bs with
    | .ok (x, bs) => (readItems item n bs).map fun (xs, bs) => (x :: xs, bs)
    | .error f => .error f

def read : Shape → Bytes → Except ShapeFault (Value × Bytes)
  | uint w, bs => do
    let (n, bs) ← takeBytes w.size bs
    return (.uint n.toNat, bs)
  | int w, bs => do
    let (n, bs) ← takeBytes w.size bs
    return (.int n.toInt, bs)
  | bool, bs =>
    match bs with
    | [] => .error .tooShort
    | b :: bs =>
      if b = 0 then .ok (.bool false, bs)
      else if b = 1 then .ok (.bool true, bs)
      else .error (.badBool b)
  | key, bs =>
    if h : 32 ≤ bs.length then .ok (.ofKey ⟨bs.take 32, by simp [h]⟩, bs.drop 32)
    else .error .tooShort
  | text, bs => do
    let (t, bs) ← takeBlock bs
    match Text.readUtf8 t with
    | .ok s => return (.text s, bs)
    | .error f => .error (.badText f)
  | block, bs => do
    let (b, bs) ← takeBlock bs
    return (.bytes b, bs)
  | optional s, bs =>
    match bs with
    | [] => .error .tooShort
    | b :: bs =>
      if b = 0 then .ok (.null, bs)
      else if b = 1 then s.read bs
      else .error (.badOption b)
  | list s, bs => do
    let (n, bs) ← takeBytes 4 bs
    let (xs, bs) ← readItems s.read n.toNat bs
    return (.array xs, bs)

def readFields :
    List (String × Shape) → Bytes → Except ShapeFault (List (String × Value) × Bytes)
  | [], bs => .ok ([], bs)
  | (name, s) :: fs, bs => do
    let (x, bs) ← s.read bs
    let (xs, bs) ← readFields fs bs
    return ((name, x) :: xs, bs)

def readRecord (fs : List (String × Shape)) (payload : Bytes) : Except ShapeFault Value :=
  (readFields fs payload).map fun (xs, _) => .record xs

end Shape

end TaggedPayload
