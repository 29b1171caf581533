import TaggedPayload.CommandLine.Commands
import TaggedPayload.CommandLine.LogLine

/-!
# The program

Reads the files that the command names, carries it out and prints its report. Log records go to the
second output as text, or to the first as JSON.
-/

set_option autoImplicit false

open TaggedPayload CommandLine

def fileFault : IO.Error → FileFault
  | .noFileOrDirectory .. => .absent
  | .permissionDenied .. => .denied
  | .inappropriateType _ code _ => if code = 20 then .notDirectory else .directory
  | .invalidArgument _ 36 _ => .nameTooLong
  | .userError _ => .notText
  | e => .other (toString e)

def readFile (name : String) : IO (Except FileFault String) := do
  match ← (IO.FS.readFile name).toBaseIO with
  | .ok text => return .ok text
  | .error e => return .error (fileFault e)

def printRecords (verbose json : Bool) (records : List LogRecord) : IO Unit := do
  for r in records.filter (·.isPrinted verbose) do
    if json then IO.println r.jsonLine else IO.eprintln r.textLine

def main (args : List String) : IO UInt32 := do
  let started ← IO.monoNanosNow
  let (verbose, json, names) :=
    match Invocation.ofArguments args with
    | .ok i => (i.verbose, i.logJson, i.command.files)
    | .error _ => (false, false, [])
  let texts ← names.mapM fun n => return (n, ← readFile n)
  let report := answer (fun n => (texts.lookup n).getD (.error .absent)) args
  printRecords verbose json report.records
  let length : Nat := report.out.foldl (fun n l => n + (l.render 0).length) 0
  let ended ← IO.monoNanosNow
  let seconds := Float.ofNat (ended - started) / 1000000000
  if 0 < length then
    for l in report.out do
      IO.println (l.render seconds)
  for l in report.err do
    IO.eprintln (l.render seconds)
  return UInt32.ofNat report.exitCode
