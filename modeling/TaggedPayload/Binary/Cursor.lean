import TaggedPayload.AccountKey
import TaggedPayload.Text.Utf8
import TaggedPayload.Text.Hex

/-!
# Reading a payload from the front

A cursor is the unread rest of a payload together with the number of bytes before it. Each read
returns its outcome and the cursor after it, so that reading can go on after a failure: a read that
finds too few bytes consumes none of them, while what a composite read took before its failing part
stays consumed.
-/

set_option autoImplicit false

namespace TaggedPayload

inductive ReadError
  /-- Fewer bytes are left than the read takes. -/
  | unexpectedEnd (offset needed available : Nat)
  /-- A truth value other than zero and one. -/
  | badBool (offset : Nat) (byte : UInt8)
  /-- Text that is not UTF-8; the offset is that of its length. -/
  | badText (offset : Nat)
deriving DecidableEq, Repr

def ReadError.message : ReadError → String
  | unexpectedEnd o n a =>
    s!"Unexpected end of payload at offset {o}: need {n} bytes, {a} available"
  | badBool o b => s!"Invalid bool byte {Text.markedHex [b]} at offset {o}"
  | badText o => s!"Invalid UTF-8 string at offset {o}"

structure Cursor where
  position : Nat
  rest : Bytes
deriving DecidableEq, Repr

namespace Cursor

def start (payload : Bytes) : Cursor := ⟨0, payload⟩

def remaining (c : Cursor) : Nat := c.rest.length

def take (n : Nat) (c : Cursor) : Except ReadError Bytes × Cursor :=
  if n ≤ c.rest.length then (.ok (c.rest.take n), ⟨c.position + n, c.rest.drop n⟩)
  else (.error (.unexpectedEnd c.position n c.rest.length), c)

def unsigned (width : Nat) (c : Cursor) : Except ReadError Nat × Cursor :=
  let (r, c') := c.take width
  (r.map Bytes.toNat, c')

def signed (width : Nat) (c : Cursor) : Except ReadError Int × Cursor :=
  let (r, c') := c.take width
  (r.map Bytes.toInt, c')

def bool (c : Cursor) : Except ReadError Bool × Cursor :=
  match c.take 1 with
  | (.ok bs, c') =>
    (match bs with
      | [0] => .ok false
      | [1] => .ok true
      | b :: _ => .error (.badBool c.position b)
      | [] => .error (.unexpectedEnd c.position 1 0), c')
  | (.error e, c') => (.error e, c')

def key (c : Cursor) : Except ReadError AccountKey × Cursor :=
  if h : 32 ≤ c.rest.length then
    (.ok ⟨c.rest.take 32, by simp [h]⟩, ⟨c.position + 32, c.rest.drop 32⟩)
  else (.error (.unexpectedEnd c.position 32 c.rest.length), c)

/-- A length of four bytes and that many bytes. -/
def block (c : Cursor) : Except ReadError Bytes × Cursor :=
  match c.unsigned 4 with
  | (.ok n, c') => c'.take n
  | (.error e, c') => (.error e, c')

def text (c : Cursor) : Except ReadError String × Cursor :=
  match c.block with
  | (.ok bs, c') =>
    (match Text.readUtf8 bs with
      | .ok s => .ok s
      | .error _ => .error (.badText c.position), c')
  | (.error e, c') => (.error e, c')

end Cursor

end TaggedPayload
