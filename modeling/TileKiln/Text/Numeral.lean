namespace TileKiln.Text

def digit? (base : Nat) (c : Char) : Option Nat :=
  let value? :=
    if '0' ≤ c ∧ c ≤ '9' then some (c.toNat - '0'.toNat)
    else if 'a' ≤ c ∧ c ≤ 'z' then some (c.toNat - 'a'.toNat + 10)
    else if 'A' ≤ c ∧ c ≤ 'Z' then some (c.toNat - 'A'.toNat + 10)
    else none
  value?.filter (· < base)

def digits? (base : Nat) : List Char → Option Nat
  | [] => none
  | cs => (cs.mapM (digit? base)).map (·.foldl (fun value d => value * base + d) 0)

def magnitude? (base : Nat) : List Char → Option Nat
  | '+' :: cs => digits? base cs
  | cs => digits? base cs

def word32? (cs : List Char) : Option UInt32 :=
  ((magnitude? 10 cs).filter (· < UInt32.size)).map UInt32.ofNat

def int32? : List Char → Option Int32
  | '-' :: cs => ((digits? 10 cs).filter (· ≤ 0x80000000)).map fun n => Int32.ofInt (-n)
  | cs => ((magnitude? 10 cs).filter (· < 0x80000000)).map fun n => Int32.ofInt n

end TileKiln.Text
