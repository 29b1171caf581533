import TaggedPayload.DecodeError
import TaggedPayload.LogRecord
import TaggedPayload.Text.Number
import TaggedPayload.Text.Segments

/-!
# Reports

What a command leaves behind: an exit code, lines for the two outputs and log records. Lines that
tell the time a command took get it when they are printed. A failure is a message with its causes,
the nearest first; several causes are numbered.
-/

set_option autoImplicit false

namespace TaggedPayload.CommandLine

structure Failure where
  message : String
  causes : List String
deriving DecidableEq, Repr

namespace Failure

def plain (message : String) : Failure := ⟨message, []⟩

def inContext (f : Failure) (message : String) : Failure := ⟨message, f.message :: f.causes⟩

/-- Puts a text behind a lead; its later lines are indented as far. -/
def indented (lead : String) (width : Nat) (s : String) : String :=
  let rest := String.ofList ('\n' :: List.replicate width ' ')
  lead ++ rest.intercalate ((Text.segments '\n' s.toList).map String.ofList)

def numbered : (n : Nat) → List String → List String
  | _, [] => []
  | n, c :: cs =>
    let digits := Text.decimal n
    let lead := String.ofList (List.replicate (5 - digits.length) ' ' ++ digits ++ [':', ' '])
    indented lead 7 c :: numbered (n + 1) cs

def text (f : Failure) : String :=
  let causes :=
    match f.causes with
    | [] => []
    | [c] => ["", "Caused by:", indented "    " 4 c]
    | cs => "" :: "Caused by:" :: numbered 0 cs
  "\n".intercalate (("Error: " ++ f.message) :: causes)

/-- A payload that was not decoded; what its decoder could not read is the cause. -/
def ofDecodeError : DecodeError → Failure
  | .failure decoder cause => ⟨(DecodeError.failure decoder cause).message, [cause]⟩
  | e => .plain e.message

end Failure

inductive Line
  | text (s : String)
  /-- A line that depends on the seconds a command took. -/
  | timed (ofSeconds : Float → String)

structure Report where
  exitCode : Nat
  out : List Line
  err : List Line
  records : List LogRecord

namespace Report

def success (lines : List String) : Report := ⟨0, lines.map .text, [], []⟩

def failure (f : Failure) : Report := ⟨1, [], [.text f.text], []⟩

def ofLines : Except Failure (List String) → Report
  | .ok lines => success lines
  | .error f => failure f

end Report

def filled (width : Nat) (s : String) : String :=
  s ++ String.ofList (List.replicate (width - s.length) ' ')

def fixed (places : Nat) (x : Float) : String :=
  let unit := Nat.pow 10 places
  let scaled := (x * Float.ofNat unit).round.toUInt64.toNat
  let whole := Text.natText (scaled / unit)
  if places = 0 then whole
  else
    let part := Text.decimal (scaled % unit)
    whole ++ "." ++ String.ofList (List.replicate (places - part.length) '0' ++ part)

def rate (count : Nat) (seconds : Float) : String :=
  fixed 0 (Float.ofNat count / max seconds 2.220446049250313e-16)

namespace Line

def render (seconds : Float) : Line → String
  | text s => s
  | timed f => f seconds

end Line

end TaggedPayload.CommandLine
