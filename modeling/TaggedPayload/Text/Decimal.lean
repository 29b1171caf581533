/-!
# Decimal literals

Numbers with an optional sign, fraction and exponent, and the double that is nearest to one. A
literal stands for a double only if the nearest one is finite.
-/

set_option autoImplicit false

namespace TaggedPayload.Text

/-- The number `digits · 10 ^ exponent`, or its negative. -/
structure Decimal where
  negative : Bool
  digits : Nat
  exponent : Int
deriving DecidableEq, Repr

namespace Decimal

def isDigit (c : Char) : Bool :=
  '0' ≤ c && c ≤ '9'

def value (ds : List Char) : Nat :=
  ds.foldl (fun n c => n * 10 + (c.toNat - 48)) 0

/-- The exponent behind its mark: an optional sign and digits. -/
def exponent? (cs : List Char) : Option Int :=
  let digits? (ds : List Char) : Option Nat :=
    if !ds.isEmpty && ds.all isDigit then some (value ds) else none
  match cs with
  | '-' :: ds => (digits? ds).map fun n => -(n : Int)
  | '+' :: ds => (digits? ds).map Int.ofNat
  | ds => (digits? ds).map Int.ofNat

/-- Reads the part after the sign: digits with a point anywhere, and an optional exponent. -/
def unsigned? (negative : Bool) (cs : List Char) : Option Decimal :=
  let whole := cs.takeWhile isDigit
  let rest := cs.dropWhile isDigit
  let (part, rest) :=
    match rest with
    | '.' :: r => (r.takeWhile isDigit, r.dropWhile isDigit)
    | r => ([], r)
  if whole.isEmpty && part.isEmpty then none
  else
    let scaled (e : Int) : Decimal := ⟨negative, value (whole ++ part), e - part.length⟩
    match rest with
    | [] => some (scaled 0)
    | c :: r => if c = 'e' ∨ c = 'E' then (exponent? r).map scaled else none

def ofText? (cs : List Char) : Option Decimal :=
  match cs with
  | '-' :: r => unsigned? true r
  | '+' :: r => unsigned? false r
  | r => unsigned? false r

/-- How many digits the whole part has; none or fewer for a number below one. -/
def magnitude (d : Decimal) : Int :=
  (Nat.toDigits 10 d.digits).length + d.exponent

/-- Numbers from here on have no finite nearest double. -/
def finiteBound : Nat := (1 <<< 1024) - (1 <<< 970)

def isFinite (d : Decimal) : Bool :=
  d.digits == 0 || d.magnitude < 309 ||
    (d.magnitude == 309 &&
      (if 0 ≤ d.exponent then d.digits * Nat.pow 10 d.exponent.toNat < finiteBound
        else d.digits < finiteBound * Nat.pow 10 (-d.exponent).toNat))

def toFloat (d : Decimal) : Float :=
  let size : Float :=
    if d.digits = 0 ∨ d.magnitude < -330 then 0
    else if 0 ≤ d.exponent then Float.ofScientific d.digits false d.exponent.toNat
    else Float.ofScientific d.digits true (-d.exponent).toNat
  if d.negative then -size else size

end Decimal

end TaggedPayload.Text
