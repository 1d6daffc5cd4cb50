import TileKiln.Document.Tileset
import TileKiln.Map

namespace TileKiln.Document

open Xml Text

def spelled {α : Type} (read : String → Option α) (node : Node) (name : String) :
    Result (Option α) :=
  match node.attribute? name with
  | none => .ok none
  | some written =>
    match read written with
    | some value => .ok (some value)
    | none => .error (.invalidValue name written)

def tilesetEntry (dir : String) (node : Node) : Result TilesetEntry := do
  let firstGid ← required word32? node "firstgid"
  if firstGid = 0 then throw (.invalidValue "firstgid" "0")
  match node.attribute? "source" with
  | some source => return .external firstGid (Path.resolve dir source)
  | none => return .inline (← tileset dir node)

def payload (data : Node) : Result Payload := do
  if (data.attribute? "encoding").isSome then return .text (data.text?.getD "")
  else if (data.first? "chunk").isSome then throw (.unsupported .chunkedLayers)
  else return .cells (← (data.named "tile").mapM fun tile => word tile "gid")

def tileData (data : Node) : Result TileData := do
  let payload ← payload data
  return ⟨data.attribute? "encoding", data.attribute? "compression", payload⟩

def tileGrid (node : Node) : Result TileGrid := do
  let width ← required word32? node "width"
  let height ← required word32? node "height"
  match node.first? "data" with
  | some data => return { width, height, data := ← tileData data }
  | none => return { width, height }

def picture (dir : String) (node : Node) : Result Picture := do
  let image ← (node.first? "image").mapM (image dir)
  let x ← single node "x"
  let y ← single node "y"
  return ⟨image, ⟨x, y⟩⟩

def layerHead (dir : String) (node : Node) : Result LayerHead := do
  let opacity ← valueD Single.ofNumeral? node "opacity" .one
  let visible ← flag? node "visible"
  let x ← single node "offsetx"
  let y ← single node "offsety"
  return ⟨text node "name", opacity, visible.getD true, ⟨x, y⟩, properties dir node⟩

mutual

def layer (dir : String) : Node → Result (Option Layer)
  | .element name attributes children => do
    let node := Node.element name attributes children
    match name with
    | "layer" =>
      let grid ← tileGrid node
      return some (.tiles (← layerHead dir node) grid)
    | "imagelayer" =>
      let picture ← picture dir node
      return some (.image (← layerHead dir node) picture)
    | "objectgroup" =>
      let objects ← (node.named "object").mapM (object dir)
      return some (.objects (← layerHead dir node) objects)
    | "group" =>
      let members ← layers dir children
      return some (.group (← layerHead dir node) members)
    | _ => return none
  | _ => return none

def layers (dir : String) : List Node → Result (List Layer)
  | [] => return []
  | node :: nodes => do
    let first ← layer dir node
    let others ← layers dir nodes
    return first.toList ++ others

end

def mapPart (dir : String) (map : Map) (child : Node) : Result Map := do
  if child.name == "tileset" then
    return { map with tilesets := map.tilesets ++ [← tilesetEntry dir child] }
  else
    return { map with layers := map.layers ++ (← layer dir child).toList }

def map (dir : String) (node : Node) : Result Map := do
  if (← flag? node "infinite") == some true then throw (.unsupported .infiniteMaps)
  let width ← word node "width"
  let height ← word node "height"
  let tileWidth ← word node "tilewidth"
  let tileHeight ← word node "tileheight"
  let orientation ← spelled Orientation.ofName? node "orientation"
  let order ← spelled PaintOrder.ofName? node "renderorder"
  let background ← spelled Color.ofHex? node "backgroundcolor"
  let bare : Map :=
    { width, height, tileWidth, tileHeight, background
      orientation := orientation.getD .orthogonal
      order := order.getD .rightDown
      properties := properties dir node }
  node.elements.foldlM (mapPart dir) bare

end TileKiln.Document

namespace TileKiln

def Map.parse (document path : String) : Document.Result Map := do
  Document.map (Path.parent path) (← Document.root "map" document)

end TileKiln
