import TileKiln.Single.Basic
import TileKiln.Text.Numeral

namespace TileKiln.Single

open Text

/-- The value of the digits of an exponent, which takes no more digits once it is 2^16 or more. -/
def exponentDigits? (cs : List Char) : Option Nat :=
  if cs.isEmpty then none
  else (cs.mapM (digit? 10)).map
    (·.foldl (fun value d => if value < UInt16.size then value * 10 + d else value) 0)

def exponent? : List Char → Option Int
  | [] => some 0
  | e :: cs =>
    if e == 'e' || e == 'E' then
      match cs with
      | '-' :: ds => (exponentDigits? ds).map fun n => -(n : Int)
      | '+' :: ds => (exponentDigits? ds).map Int.ofNat
      | ds => (exponentDigits? ds).map Int.ofNat
    else none

def decimal? (cs : List Char) : Option Single :=
  let whole := cs.takeWhile Char.isDigit
  let rest := cs.dropWhile Char.isDigit
  let (fraction, tail) :=
    match rest with
    | '.' :: r => (r.takeWhile Char.isDigit, r.dropWhile Char.isDigit)
    | r => ([], r)
  match digits? 10 (whole ++ fraction), exponent? tail with
  | some mantissa, some exponent => some (ofDecimal mantissa (exponent - fraction.length))
  | _, _ => none

def unsigned? (cs : List Char) : Option Single :=
  match String.ofList (cs.map Char.toLower) with
  | "inf" | "infinity" => some infinity
  | "nan" => some nan
  | _ => decimal? cs

def ofNumeral? : List Char → Option Single
  | '-' :: cs => (unsigned? cs).map negate
  | '+' :: cs => unsigned? cs
  | cs => unsigned? cs

end TileKiln.Single
