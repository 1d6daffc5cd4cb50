import TileKiln.PaintOrder
import TileKiln.Tileset

namespace TileKiln

inductive Payload
  | cells (gids : List UInt32)
  | text (content : String)
deriving DecidableEq, Repr

instance : Inhabited Payload := ⟨.cells []⟩

structure TileData where
  encoding : Option String := none
  compression : Option String := none
  payload : Payload := .cells []
deriving DecidableEq, Repr, Inhabited

/-- A grid of tiles. Its placed tiles are empty until the data has been decoded. -/
structure TileGrid where
  width : UInt32
  height : UInt32
  data : TileData := {}
  placed : List PlacedTile := []
deriving DecidableEq, Repr, Inhabited

structure Picture where
  image : Option Image := none
  position : Point := .origin
deriving DecidableEq, Repr, Inhabited

structure LayerHead where
  name : String := ""
  opacity : Single := .one
  visible : Bool := true
  offset : Point := .origin
  properties : List Property := []
deriving Repr, Inhabited

inductive Layer
  | tiles (head : LayerHead) (grid : TileGrid)
  | image (head : LayerHead) (picture : Picture)
  | objects (head : LayerHead) (objects : List Object)
  | group (head : LayerHead) (layers : List Layer)
deriving Repr, Inhabited

namespace Layer

def head : Layer → LayerHead
  | tiles head _ | image head _ | objects head _ | group head _ => head

end Layer

end TileKiln
