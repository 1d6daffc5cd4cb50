namespace TileKiln

inductive Ending
  | clean
  | unfinished
  /-- There is a fault that shows once the window that it falls into is unpacked. -/
  | corrupt
deriving DecidableEq, Repr, Inhabited

structure Unpacked where
  bytes : Array UInt8
  ending : Ending
deriving DecidableEq, Repr, Inhabited

namespace Unpacked

def failed : Unpacked := ⟨#[], .corrupt⟩

def windowSize : Nat := 32768

/-- How many bytes have been unpacked when `limit` bytes have been read: whole windows. -/
def unpackedFor (limit : Nat) : Nat :=
  (limit + windowSize - 1) / windowSize * windowSize

/-- At most the first `limit` bytes, unless a fault shows before they are read. To read no bytes,
nothing is unpacked. -/
def upTo? (content : Unpacked) (limit : Nat) : Option (List UInt8) :=
  let size := content.bytes.size
  let faulty :=
    match content.ending with
    | .clean => false
    | .unfinished => size < limit
    | .corrupt => 0 < limit ∧ size ≤ unpackedFor limit
  if faulty then none else some (content.bytes.toList.take limit)

def all? (content : Unpacked) : Option (List UInt8) :=
  match content.ending with
  | .clean => some content.bytes.toList
  | .unfinished | .corrupt => none

end Unpacked

end TileKiln
