import TileKiln.Single.Basic
import TileKiln.Word

namespace TileKiln

structure Extent where
  width : UInt32
  height : UInt32
deriving DecidableEq, Repr, Inhabited

namespace Extent

def zero : Extent := ⟨0, 0⟩

def union (a b : Extent) : Extent :=
  ⟨max a.width b.width, max a.height b.height⟩

def times? (tiles tile : Extent) : Checked Extent := do
  let width ← Word.mul32? tiles.width tile.width
  let height ← Word.mul32? tiles.height tile.height
  return ⟨width, height⟩

end Extent

/-- Cells of one size one after the other, behind a margin and with a gap after each. -/
structure Strip where
  margin : UInt32
  size : UInt32
  spacing : UInt32
deriving DecidableEq, Repr, Inhabited

/-- Where the cell with `k` cells before it begins and ends. -/
def Strip.span? (s : Strip) (k : UInt32) : Checked (UInt32 × UInt32) := do
  let pitch ← Word.add32? s.size s.spacing
  let offset ← Word.mul32? k pitch
  let first ← Word.add32? s.margin offset
  let last ← Word.add32? first s.size
  return (first, last)

structure Box (α : Type) where
  minX : α
  minY : α
  maxX : α
  maxY : α
deriving DecidableEq, Repr, Inhabited

namespace Box

def ofCorners (x y x' y' : UInt32) : Box UInt32 :=
  ⟨min x x', min y y', max x x', max y y'⟩

def ofExtent (extent : Extent) : Box Single :=
  ⟨.zero, .zero, .ofNat extent.width.toNat, .ofNat extent.height.toNat⟩

end Box

end TileKiln
