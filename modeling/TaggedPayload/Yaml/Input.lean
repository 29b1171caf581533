import TaggedPayload.Yaml.Place

/-!
# What can be read of a YAML text

Some characters may not stand in a text at all. A text is checked for them in blocks of whole
characters, each when the reader comes to it, so that what stands in the blocks before a forbidden
character can still be read.
-/

set_option autoImplicit false

namespace TaggedPayload.Yaml

def isAllowed (c : Char) : Bool :=
  let n := c.toNat
  n == 9 || n == 10 || n == 13 || (0x20 ≤ n && n ≤ 0x7E) || n == 0x85 ||
    (0xA0 ≤ n && n ≤ 0xFFFD) || 0x10000 ≤ n

/-- How many octets a block has at most. -/
def blockSize : Nat := 16384

/-- As many characters as take at most `left` octets, and those behind them. -/
def takeBlock : (left : Nat) → List Char → List Char × List Char
  | _, [] => ([], [])
  | left, c :: cs =>
    if c.utf8Size ≤ left then
      let (block, rest) := takeBlock (left - c.utf8Size) cs
      (c :: block, rest)
    else ([], c :: cs)

/-- The blocks before the first with a forbidden character, and whether there is no such block. -/
def readable : (fuel : Nat) → List Char → List Char × Bool
  | 0, _ => ([], false)
  | _ + 1, [] => ([], true)
  | fuel + 1, c :: cs =>
    let (block, rest) := takeBlock blockSize (c :: cs)
    if block.all isAllowed then
      let (blocks, whole) := readable fuel rest
      (block ++ blocks, whole)
    else ([], false)

end TaggedPayload.Yaml
