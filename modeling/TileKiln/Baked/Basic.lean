import TileKiln.Map

namespace TileKiln.Baked

structure Object where
  id : UInt32
  name : String
  type : String
  x : Single
  y : Single
  width : Single
  height : Single
  rotation : Single
  visible : Bool
  shape : Shape
  properties : List Property
deriving Repr, Inhabited

structure Tile where
  id : UInt32
  type : String
  objects : List Object
  animation : List Frame
  properties : List Property
  image : String
deriving Repr, Inhabited

structure Tileset where
  image : String
  firstGid : UInt32
  tileWidth : UInt32
  tileHeight : UInt32
  spacing : UInt32
  margin : UInt32
  columns : UInt32
  tileCount : UInt32
  tiles : List Tile
  properties : List Property
  offset : TileOffset
deriving Repr, Inhabited

inductive Layer
  | tiles (head : LayerHead) (placed : List PlacedTile) (width height : UInt32)
  | image (head : LayerHead) (image : String) (position : Point)
  | objects (head : LayerHead) (objects : List Object)
  | group (head : LayerHead) (layers : List Layer)
deriving Repr, Inhabited

structure Map where
  background : Color
  order : PaintOrder
  width : UInt32
  height : UInt32
  tileWidth : UInt32
  tileHeight : UInt32
  orientation : Orientation
  properties : List Property
  tilesets : List Tileset
  layers : List Layer
deriving Repr, Inhabited

namespace Layer

def head : Layer → LayerHead
  | tiles head _ _ _ | image head _ _ | objects head _ | group head _ => head

end Layer

namespace Tileset

def owns (tileset : Tileset) (tile : UInt32) : Bool :=
  tileset.firstGid ≤ tile && tile - tileset.firstGid < tileset.tileCount

end Tileset

namespace Map

/-- The first tileset that owns a global id, whatever its flip flags. -/
def owner? (map : Map) (gid : UInt32) : Option Tileset :=
  map.tilesets.find? (·.owns (Gid.tile gid))

end Map

end TileKiln.Baked
