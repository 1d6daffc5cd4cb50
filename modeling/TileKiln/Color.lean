import TileKiln.Text.Numeral

namespace TileKiln

structure Color where
  red : UInt8
  green : UInt8
  blue : UInt8
deriving DecidableEq, Repr, Inhabited

namespace Color

def black : Color := ⟨0, 0, 0⟩

def byteLength : List Char → Nat
  | [] => 0
  | c :: cs => c.utf8Size + byteLength cs

def dropBytes? : Nat → List Char → Option (List Char)
  | 0, cs => some cs
  | _ + 1, [] => none
  | n + 1, c :: cs => if c.utf8Size ≤ n + 1 then dropBytes? (n + 1 - c.utf8Size) cs else none

def channel? (high low : Char) : Option UInt8 :=
  (Text.magnitude? 16 [high, low]).map UInt8.ofNat

def ofPairs? : List Char → Option Color
  | [r, r', g, g', b, b'] => do
    return ⟨← channel? r r', ← channel? g g', ← channel? b b'⟩
  | _ => none

/-- Reads `#RRGGBB` or `#AARRGGBB`, the `#` optional; what the alpha part says is not looked at. -/
def ofHex? (text : String) : Option Color :=
  let hex :=
    match text.toList with
    | '#' :: cs => cs
    | cs => cs
  match byteLength hex with
  | 6 => ofPairs? hex
  | 8 => (dropBytes? 2 hex).bind ofPairs?
  | _ => none

end Color

end TileKiln
