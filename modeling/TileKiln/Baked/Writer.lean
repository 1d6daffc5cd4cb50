import TileKiln.Baked.Image
import TileKiln.Baked.Tag
import TileKiln.Sink

namespace TileKiln.Baked.Writer

open TileKiln.Writer

def point (p : Point) : Writer Unit := do
  single p.x
  single p.y

def tagged {α : Type} [DecidableEq α] [Tagged α] (a : α) : Writer Unit :=
  byte (Tagged.tag a)

mutual

def property : Property → Writer Unit
  | ⟨name, value, children⟩ => do
    text name
    text value
    length children.length
    eachProperty children

def eachProperty : List Property → Writer Unit
  | [] => return ()
  | p :: ps => do
    property p
    eachProperty ps

end

def properties (ps : List Property) : Writer Unit := do
  length ps.length
  eachProperty ps

def shapeTag : Shape → ShapeTag
  | .rectangle => .rectangle
  | .ellipse => .ellipse
  | .polygon _ => .polygon
  | .polyline _ => .polyline
  | .tile _ => .tile

def shape : Shape → Writer Unit
  | .rectangle | .ellipse => return ()
  | .polygon points | .polyline points => table point points
  | .tile gid => word gid

def object (o : TileKiln.Object) : Writer Unit := do
  tagged (shapeTag o.shape)
  word (o.id.getD 0)
  text (o.name.getD "")
  text (o.type.getD "")
  single (o.x.getD .zero)
  single (o.y.getD .zero)
  single (o.width.getD .zero)
  single (o.height.getD .zero)
  single (o.rotation.getD .zero)
  tagged (o.visible.getD true)
  properties o.properties
  shape o.shape

def frame (f : Frame) : Writer Unit := do
  word f.tile
  word f.duration

def tile (t : TileKiln.Tile) : Writer Unit := do
  word t.id
  text t.type
  length t.animation.length
  length t.objects.length
  each object t.objects
  each frame t.animation
  properties t.properties
  text (Image.reference t.image)

def tileset (t : TileKiln.Tileset) : Writer Unit := do
  text (Image.reference t.image)
  word t.firstGid
  word t.tileWidth
  word t.tileHeight
  word t.spacing
  word t.margin
  word t.columns
  word t.tileCount
  table tile t.tiles
  properties t.properties
  int t.offset.x
  int t.offset.y

def placedTile (t : PlacedTile) : Writer Unit := do
  word t.gid
  word t.x
  word t.y

def layerAround (head : LayerHead) (tag : LayerTag) (content : Writer Unit) : Writer Unit := do
  text head.name
  tagged head.visible
  single head.opacity
  tagged tag
  content
  point head.offset
  properties head.properties

mutual

def layer : TileKiln.Layer → Writer Unit
  | .tiles head grid => layerAround head .tiles do
    table placedTile grid.placed
    word grid.width
    word grid.height
  | .image head picture => layerAround head .image do
    text (Image.reference picture.image)
    point picture.position
  | .objects head items => layerAround head .objects (table object items)
  | .group head members => layerAround head .group do
    length members.length
    eachLayer members

def eachLayer : List TileKiln.Layer → Writer Unit
  | [] => return ()
  | l :: ls => do
    layer l
    eachLayer ls

end

def layers (ls : List TileKiln.Layer) : Writer Unit := do
  length ls.length
  eachLayer ls

def color (c : Color) : Writer Unit := do
  byte c.red
  byte c.green
  byte c.blue

def tilesetEntry : TilesetEntry → Writer Unit
  | .inline t => tileset t
  | .external firstGid source => throw (.unresolvedTileset firstGid source)

end TileKiln.Baked.Writer

namespace TileKiln

/-- Writes a map, which needs all of its tilesets at hand. -/
def Map.write (map : Map) : Writer Unit := do
  Baked.Writer.color (map.background.getD .black)
  Baked.Writer.tagged map.order
  Writer.word map.width
  Writer.word map.height
  Writer.word map.tileWidth
  Writer.word map.tileHeight
  Baked.Writer.tagged map.orientation
  Baked.Writer.properties map.properties
  Writer.table Baked.Writer.tilesetEntry map.tilesets
  Baked.Writer.layers map.layers

def Tileset.write (tileset : Tileset) : Writer Unit :=
  Baked.Writer.tileset tileset

end TileKiln
