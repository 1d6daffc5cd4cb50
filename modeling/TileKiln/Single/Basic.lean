namespace TileKiln

/-- An IEEE 754 binary32 number. Two are equal when their bits are. -/
structure Single where
  bits : UInt32
deriving DecidableEq, Repr, Inhabited

namespace Single

def zero : Single := ⟨0⟩

def one : Single := ⟨0x3F800000⟩

def infinity : Single := ⟨0x7F800000⟩

def nan : Single := ⟨0x7FC00000⟩

def negate (x : Single) : Single := ⟨x.bits ^^^ 0x80000000⟩

def roundDiv (num den : Nat) : Nat :=
  let low := num / den
  let twice := 2 * (num % den)
  if twice < den then low
  else if den < twice then low + 1
  else low + low % 2

def floorLog2 (num den : Nat) : Int :=
  let guess : Int := (Nat.log2 num : Int) - (Nat.log2 den : Int)
  let reached := if 0 ≤ guess then den <<< guess.toNat ≤ num else den ≤ num <<< (-guess).toNat
  if reached then guess else guess - 1

/-- The number nearest to `num / den`, ties to the even significand; beyond the largest finite
number it is infinity. Counting units of the last place upward from zero, the bits of a nonnegative
number are its rank, so a carry out of the significand lands in the next binade by itself. -/
def ofQuotient (num den : Nat) : Single :=
  if num = 0 then zero
  else
    let exponent := max (floorLog2 num den - 23) (-149)
    let significand :=
      if 0 ≤ exponent then roundDiv num (den <<< exponent.toNat)
      else roundDiv (num <<< (-exponent).toNat) den
    let rank := (exponent + 149).toNat <<< 23 + significand
    ⟨UInt32.ofNat (min rank 0x7F800000)⟩

def ofNat (n : Nat) : Single := ofQuotient n 1

/-- The number nearest to `mantissa * 10 ^ exponent`. Magnitudes that round to infinity or to zero
whatever their digits are told by their order of magnitude alone. -/
def ofDecimal (mantissa : Nat) (exponent : Int) : Single :=
  if mantissa = 0 then zero
  else
    let magnitude := (Nat.toDigits 10 mantissa).length + exponent
    if 40 < magnitude then infinity
    else if magnitude < -50 then zero
    else if 0 ≤ exponent then ofNat (mantissa * Nat.pow 10 exponent.toNat)
    else ofQuotient mantissa (Nat.pow 10 (-exponent).toNat)

end Single

end TileKiln
