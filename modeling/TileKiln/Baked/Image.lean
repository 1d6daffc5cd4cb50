import TileKiln.Baked.Basic
import TileKiln.Path

namespace TileKiln

def Image.reference : Option Image → String
  | some image => Path.imageReference image.source
  | none => ""

/-- Unset fields take their plain defaults, and an object is visible unless it says otherwise. -/
def Object.baked (object : Object) : Baked.Object where
  id := object.id.getD 0
  name := object.name.getD ""
  type := object.type.getD ""
  x := object.x.getD .zero
  y := object.y.getD .zero
  width := object.width.getD .zero
  height := object.height.getD .zero
  rotation := object.rotation.getD .zero
  visible := object.visible.getD true
  shape := object.shape
  properties := object.properties

def Tile.baked (tile : Tile) : Baked.Tile where
  id := tile.id
  type := tile.type
  objects := tile.objects.map Object.baked
  animation := tile.animation
  properties := tile.properties
  image := Image.reference tile.image

def Tileset.baked (tileset : Tileset) : Baked.Tileset where
  image := Image.reference tileset.image
  firstGid := tileset.firstGid
  tileWidth := tileset.tileWidth
  tileHeight := tileset.tileHeight
  spacing := tileset.spacing
  margin := tileset.margin
  columns := tileset.columns
  tileCount := tileset.tileCount
  tiles := tileset.tiles.map Tile.baked
  properties := tileset.properties
  offset := tileset.offset

mutual

def Layer.baked : Layer → Baked.Layer
  | .tiles head grid => .tiles head grid.placed grid.width grid.height
  | .image head picture => .image head (Image.reference picture.image) picture.position
  | .objects head items => .objects head (items.map Object.baked)
  | .group head members => .group head (Layer.bakedAll members)

def Layer.bakedAll : List Layer → List Baked.Layer
  | [] => []
  | layer :: layers => layer.baked :: Layer.bakedAll layers

end

def Map.baked (map : Map) : Baked.Map where
  background := map.background.getD .black
  order := map.order
  width := map.width
  height := map.height
  tileWidth := map.tileWidth
  tileHeight := map.tileHeight
  orientation := map.orientation
  properties := map.properties
  tilesets := map.loaded.map Tileset.baked
  layers := Layer.bakedAll map.layers

end TileKiln
