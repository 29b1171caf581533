/-!
# Log records

What a component says about its work, as data: how urgent it is, which component speaks, the
message and named details. Functions that report return their records; nothing is written here.
-/

set_option autoImplicit false

namespace TaggedPayload

inductive LogLevel
  | debug
  | info
  | warn
deriving DecidableEq, Repr

def LogLevel.name : LogLevel → String
  | debug => "DEBUG"
  | info => "INFO"
  | warn => "WARN"

structure LogRecord where
  level : LogLevel
  target : String
  message : String
  fields : List (String × String)
deriving DecidableEq, Repr

end TaggedPayload
