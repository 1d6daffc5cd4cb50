import TileKiln.Color
import TileKiln.Layer

namespace TileKiln

inductive Orientation
  | orthogonal
  | isometric
  | staggered
  | hexagonal
deriving DecidableEq, Repr, Inhabited

namespace Orientation

def name : Orientation → String
  | orthogonal => "orthogonal"
  | isometric => "isometric"
  | staggered => "staggered"
  | hexagonal => "hexagonal"

def ofName? : String → Option Orientation
  | "orthogonal" => some orthogonal
  | "isometric" => some isometric
  | "staggered" => some staggered
  | "hexagonal" => some hexagonal
  | _ => none

theorem ofName?_name (orientation : Orientation) : ofName? orientation.name = some orientation := by
  cases orientation <;> rfl

end Orientation

/-- A tileset of a map: at hand, or in a document that is not loaded yet. -/
inductive TilesetEntry
  | inline (tileset : Tileset)
  | external (firstGid : UInt32) (source : String)
deriving Repr, Inhabited

namespace TilesetEntry

def firstGid : TilesetEntry → UInt32
  | inline tileset => tileset.firstGid
  | external firstGid _ => firstGid

def tileset? : TilesetEntry → Option Tileset
  | inline tileset => some tileset
  | external _ _ => none

end TilesetEntry

structure Map where
  orientation : Orientation := .orthogonal
  order : PaintOrder := .rightDown
  width : UInt32 := 0
  height : UInt32 := 0
  tileWidth : UInt32 := 0
  tileHeight : UInt32 := 0
  background : Option Color := none
  tilesets : List TilesetEntry := []
  layers : List Layer := []
  properties : List Property := []
deriving Repr, Inhabited

def Map.loaded (map : Map) : List Tileset :=
  map.tilesets.filterMap TilesetEntry.tileset?

end TileKiln
