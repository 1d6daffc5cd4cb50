import TileKiln.Baked.Cursor

namespace TileKiln.Baked.Reader

def point : Reader Point :=
  return ⟨← single, ← single⟩

def property : (levels : Nat) → Reader Property
  | 0 => do
    let _ ← text
    let _ ← text
    tooDeep
  | levels + 1 =>
    return ⟨← text, ← text, ← table (property levels)⟩

def properties (levels : Nat) : Reader (List Property) :=
  table (property levels)

def shape : ShapeTag → Reader Shape
  | .rectangle => return .rectangle
  | .ellipse => return .ellipse
  | .polygon => return .polygon (← table point)
  | .polyline => return .polyline (← table point)
  | .tile => return .tile (← word)

def object (levels : Nat) : Reader Object := do
  let tag ← tagged ShapeTag
  let id ← word
  let name ← text
  let type ← text
  let x ← single
  let y ← single
  let width ← single
  let height ← single
  let rotation ← single
  let visible ← tagged Bool
  let properties ← properties levels
  let shape ← shape tag
  return { id, name, type, x, y, width, height, rotation, visible, shape, properties }

def frame : Reader Frame :=
  return ⟨← word, ← word⟩

def tile (levels : Nat) : Reader Tile := do
  let id ← word
  let type ← text
  let frameCount ← length
  let objectCount ← length
  let objects ← times (object levels) objectCount
  let animation ← times frame frameCount
  let properties ← properties levels
  let image ← text
  return { id, type, objects, animation, properties, image }

def tileset (levels : Nat) : Reader Tileset := do
  let image ← text
  let firstGid ← word
  let tileWidth ← word
  let tileHeight ← word
  let spacing ← word
  let margin ← word
  let columns ← word
  let tileCount ← word
  let tiles ← table (tile levels)
  let properties ← properties levels
  let offset : TileOffset := ⟨← int, ← int⟩
  return { image, firstGid, tileWidth, tileHeight, spacing, margin, columns, tileCount, tiles,
           properties, offset }

def placedTile : Reader PlacedTile :=
  return ⟨← word, ← word, ← word⟩

def layerContent (levels : Nat) (group : Reader (List Layer)) :
    LayerTag → Reader (LayerHead → Layer)
  | .tiles => do
    let placed ← table placedTile
    let width ← word
    let height ← word
    return fun head => .tiles head placed width height
  | .image => do
    let image ← text
    let position ← point
    return fun head => .image head image position
  | .objects => do
    let objects ← table (object levels)
    return fun head => .objects head objects
  | .group => do
    let members ← group
    return fun head => .group head members

def layerAround (levels : Nat) (group : Reader (List Layer)) : Reader Layer := do
  let name ← text
  let visible ← tagged Bool
  let opacity ← single
  let tag ← tagged LayerTag
  let content ← layerContent levels group tag
  let offset ← point
  let properties ← properties levels
  return content { name, opacity, visible, offset, properties }

def layer : (levels : Nat) → Reader Layer
  | 0 => layerAround 0 tooDeep
  | levels + 1 => layerAround (levels + 1) (table (layer levels))

def map (levels : Nat) : Reader Map := do
  let rgb ← take 3
  let order ← tagged PaintOrder
  let width ← word
  let height ← word
  let tileWidth ← word
  let tileHeight ← word
  let orientation ← tagged Orientation
  let properties ← properties levels
  let tilesets ← table (tileset levels)
  let layers ← table (layer levels)
  return { background := ⟨rgb.getD 0 0, rgb.getD 1 0, rgb.getD 2 0⟩, order, width, height,
           tileWidth, tileHeight, orientation, properties, tilesets, layers }

end TileKiln.Baked.Reader

namespace TileKiln.Baked

def Map.read (stream : List UInt8) : Except ReadError Map :=
  (Reader.map maxNesting).run stream

def Tileset.read (stream : List UInt8) : Except ReadError Tileset :=
  (Reader.tileset maxNesting).run stream

end TileKiln.Baked
