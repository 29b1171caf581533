import TaggedPayload.Text.Decimal

/-!
# Doubles of JSON numbers

A number that is kept must have a finite double. The double is found quickly and not always the
nearest: the digits are read into sixty-four bits, further digits before the point only raise the
exponent and further ones behind it do not count, and then one product with a power of ten gives
the double. Close to the largest double it matters that both factors are rounded before.
-/

set_option autoImplicit false

namespace TaggedPayload.Json

/-- The number `significand · 10 ^ exponent`, without its sign. -/
structure Scaled where
  significand : Nat
  exponent : Int
deriving DecidableEq, Repr

namespace Scaled

/-- Significands are below this bound. -/
def bound : Nat := UInt64.size

def whole : Scaled → List Char → Scaled
  | s, [] => s
  | s, d :: ds =>
    let next := s.significand * 10 + (d.toNat - 48)
    if next < bound then whole ⟨next, s.exponent⟩ ds
    else ⟨s.significand, s.exponent + (ds.length + 1)⟩

def part : Scaled → List Char → Scaled
  | s, [] => s
  | s, d :: ds =>
    let next := s.significand * 10 + (d.toNat - 48)
    if next < bound then part ⟨next, s.exponent - 1⟩ ds else s

def exponentPart (s : Scaled) : List Char → Scaled
  | _ :: ds => ⟨s.significand, s.exponent + (Text.Decimal.exponent? ds).getD 0⟩
  | [] => s

def ofLiteral (cs : List Char) : Scaled :=
  let cs := cs.dropWhile (· == '-')
  let s := whole ⟨0, 0⟩ (cs.takeWhile Text.Decimal.isDigit)
  match cs.dropWhile Text.Decimal.isDigit with
  | '.' :: r =>
    (s.part (r.takeWhile Text.Decimal.isDigit)).exponentPart (r.dropWhile Text.Decimal.isDigit)
  | r => s.exponentPart r

/-- The largest power of ten that is a double. -/
def exponentLimit : Int := 308

def isFinite (s : Scaled) : Bool :=
  s.significand == 0 || s.exponent < 0 ||
    (s.exponent ≤ exponentLimit &&
      ((UInt64.ofNat s.significand).toFloat * Float.ofScientific 1 false s.exponent.toNat).isFinite)

end Scaled

end TaggedPayload.Json
