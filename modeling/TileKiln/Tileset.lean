import TileKiln.Gid
import TileKiln.Object

namespace TileKiln

structure Image where
  source : String
  width : Option UInt32
  height : Option UInt32
deriving DecidableEq, Repr, Inhabited

/-- One step of a tile's animation: which tile, and for how many milliseconds. -/
structure Frame where
  tile : UInt32
  duration : UInt32
deriving DecidableEq, Repr, Inhabited

structure TileOffset where
  x : Int32
  y : Int32
deriving DecidableEq, Repr

def TileOffset.zero : TileOffset := ⟨0, 0⟩

instance : Inhabited TileOffset := ⟨.zero⟩

structure Tile where
  id : UInt32
  type : String := ""
  terrain : Option String := none
  probability : Single := .one
  image : Option Image := none
  objects : List Object := []
  animation : List Frame := []
  properties : List Property := []
deriving Repr, Inhabited

structure Terrain where
  name : String
  tile : Int32
  properties : List Property
deriving Repr

structure Tileset where
  name : String := ""
  source : Option String := none
  /-- The first global id in the owning map, 0 outside of a map. -/
  firstGid : UInt32 := 0
  tileWidth : UInt32 := 0
  tileHeight : UInt32 := 0
  spacing : UInt32 := 0
  margin : UInt32 := 0
  columns : UInt32 := 0
  tileCount : UInt32 := 0
  image : Option Image := none
  tiles : List Tile := []
  terrains : List Terrain := []
  offset : TileOffset := .zero
  properties : List Property := []
deriving Repr, Inhabited

namespace Tileset

def label (tileset : Tileset) : String :=
  tileset.source.getD tileset.name

def gidEnd (tileset : Tileset) : UInt32 :=
  Gid.rangeEnd tileset.firstGid tileset.tileCount

end Tileset

end TileKiln
