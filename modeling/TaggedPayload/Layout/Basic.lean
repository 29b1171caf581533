import TaggedPayload.Decoder.Basic
import TaggedPayload.Layout.FieldType

/-!
# Layouts

A layout describes a sort of payload without code: its name, what kind of thing it tags, the program
it belongs to, its tag and its fields in order. Without a tag of its own, a layout has the tag that
its kind derives from its name. A layout makes a tagged decoder whose values are records.
-/

set_option autoImplicit false

namespace TaggedPayload

inductive LayoutKind
  | event
  | account
  | instruction
deriving DecidableEq, Repr

namespace LayoutKind

def tag : LayoutKind → String → Tag
  | event => .ofEvent
  | account => .ofAccount
  | instruction => .ofInstruction

def title : LayoutKind → String
  | event => "Event"
  | account => "Account"
  | instruction => "Instruction"

def ofText? (s : String) : Option LayoutKind :=
  if s = "event" then some event
  else if s = "account" then some account
  else if s = "instruction" then some instruction
  else none

end LayoutKind

structure Layout where
  name : String
  kind : LayoutKind
  program : AccountKey
  tag : Tag
  fields : List Field
deriving DecidableEq

namespace Layout

def decoder (l : Layout) : TaggedDecoder where
  name := l.name
  program := l.program
  tag := l.tag
  read payload :=
    match readRecord l.fields payload with
    | .ok v => .ok v
    | .error e => .error e.message

end Layout

end TaggedPayload
