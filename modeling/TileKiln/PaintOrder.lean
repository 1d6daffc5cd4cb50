namespace TileKiln

inductive Horizontal
  | right
  | left
deriving DecidableEq, Repr, Inhabited

inductive Vertical
  | down
  | up
deriving DecidableEq, Repr, Inhabited

inductive PaintOrder
  | rightDown
  | rightUp
  | leftDown
  | leftUp
deriving DecidableEq, Repr, Inhabited

structure PlacedTile where
  gid : UInt32
  x : UInt32
  y : UInt32
deriving DecidableEq, Repr, Inhabited

namespace PaintOrder

def name : PaintOrder → String
  | rightDown => "right-down"
  | rightUp => "right-up"
  | leftDown => "left-down"
  | leftUp => "left-up"

def ofName? : String → Option PaintOrder
  | "right-down" => some rightDown
  | "right-up" => some rightUp
  | "left-down" => some leftDown
  | "left-up" => some leftUp
  | _ => none

def horizontal : PaintOrder → Horizontal
  | rightDown | rightUp => .right
  | leftDown | leftUp => .left

def vertical : PaintOrder → Vertical
  | rightDown | leftDown => .down
  | rightUp | leftUp => .up

theorem ofName?_name (order : PaintOrder) : ofName? order.name = some order := by
  cases order <;> rfl

def placeRow (y : Nat) (row : List UInt32) : List PlacedTile :=
  (row.zipIdx.filter (·.1 != 0)).map fun (gid, x) => ⟨gid, UInt32.ofNat x, UInt32.ofNat y⟩

/-- The first `height` rows of a grid with their numbers, top to bottom. Rows that the grid does not
fill are left out, and rows without cells place nothing. -/
def rows (width : Nat) : (height y : Nat) → List UInt32 → List (Nat × List UInt32)
  | 0, _, _ => []
  | height + 1, y, cells =>
    if 0 < width ∧ width ≤ cells.length then
      (y, cells.take width) :: rows width height (y + 1) (cells.drop width)
    else []

def directRow (order : PaintOrder) (tiles : List PlacedTile) : List PlacedTile :=
  match order.horizontal with
  | .right => tiles
  | .left => tiles.reverse

/-- The tiles of a row-major grid in painting order: rows in the vertical direction, and within a
row columns in the horizontal direction. -/
def sequence (order : PaintOrder) (width height : UInt32) (grid : List UInt32) : List PlacedTile :=
  let placed := (rows width.toNat height.toNat 0 grid).map fun (y, row) =>
    order.directRow (placeRow y row)
  match order.vertical with
  | .down => placed.flatten
  | .up => placed.reverse.flatten

end PaintOrder

end TileKiln
