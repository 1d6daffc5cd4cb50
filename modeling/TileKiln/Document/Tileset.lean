import TileKiln.Document.Object
import TileKiln.Tileset

namespace TileKiln.Document

open Xml Text

def image (dir : String) (node : Node) : Result Image := do
  match node.attribute? "source" with
  | none => throw (.unsupported .embeddedImages)
  | some source =>
    let width ← value? word32? node "width"
    let height ← value? word32? node "height"
    return ⟨Path.resolve dir source, width, height⟩

def frame (node : Node) : Result Frame := do
  let tile ← required word32? node "tileid"
  let duration ← required word32? node "duration"
  return ⟨tile, duration⟩

def tilePart (dir : String) (tile : Tile) (child : Node) : Result Tile := do
  match child.name with
  | "image" => return { tile with image := some (← image dir child) }
  | "objectgroup" =>
    let objects ← (child.named "object").mapM (object dir)
    return { tile with objects := tile.objects ++ objects }
  | "animation" =>
    let frames ← (child.named "frame").mapM frame
    return { tile with animation := tile.animation ++ frames }
  | _ => return tile

def tile (dir : String) (node : Node) : Result Tile := do
  let id ← required word32? node "id"
  let probability ← valueD Single.ofNumeral? node "probability" .one
  let bare : Tile :=
    { id, probability
      type := (class? node).getD ""
      terrain := node.attribute? "terrain"
      properties := properties dir node }
  node.elements.foldlM (tilePart dir) bare

def terrain (dir : String) (node : Node) : Result Terrain := do
  let tile ← valueD int32? node "tile" (-1)
  return ⟨text node "name", tile, properties dir node⟩

def tilesetPart (dir : String) (tileset : Tileset) (child : Node) : Result Tileset := do
  match child.name with
  | "image" => return { tileset with image := some (← image dir child) }
  | "tileoffset" =>
    let x ← valueD int32? child "x" 0
    let y ← valueD int32? child "y" 0
    return { tileset with offset := ⟨x, y⟩ }
  | "terraintypes" =>
    let terrains ← (child.named "terrain").mapM (terrain dir)
    return { tileset with terrains := tileset.terrains ++ terrains }
  | "tile" => return { tileset with tiles := tileset.tiles ++ [← tile dir child] }
  | _ => return tileset

def tileset (dir : String) (node : Node) : Result Tileset := do
  let firstGid ← word node "firstgid"
  let tileWidth ← word node "tilewidth"
  let tileHeight ← word node "tileheight"
  let spacing ← word node "spacing"
  let margin ← word node "margin"
  let columns ← word node "columns"
  let tileCount ← word node "tilecount"
  let bare : Tileset :=
    { firstGid, tileWidth, tileHeight, spacing, margin, columns, tileCount
      name := text node "name"
      properties := properties dir node }
  node.elements.foldlM (tilesetPart dir) bare

end TileKiln.Document

namespace TileKiln

def Tileset.parse (document path : String) : Document.Result Tileset := do
  let tileset ← Document.tileset (Path.parent path) (← Document.root "tileset" document)
  return { tileset with source := some path }

end TileKiln
