import TileKiln.Asset.Geometry
import TileKiln.Asset.Table
import TileKiln.Baked.Basic

namespace TileKiln

namespace Baked.Tileset

def tileImages (tileset : Tileset) : List (UInt32 × String) :=
  (tileset.tiles.filter (·.image != "")).map fun tile => (tile.id, tile.image)

def tileSize (tileset : Tileset) : Extent :=
  ⟨tileset.tileWidth, tileset.tileHeight⟩

/-- Columns and rows, the last row perhaps not full. Without columns there is no grid. -/
def gridSize (tileset : Tileset) : Extent :=
  if tileset.columns = 0 then .zero
  else
    let full := tileset.tileCount / tileset.columns
    ⟨tileset.columns, if tileset.tileCount % tileset.columns = 0 then full else full + 1⟩

def across (tileset : Tileset) : Strip := ⟨tileset.margin, tileset.tileWidth, tileset.spacing⟩

def down (tileset : Tileset) : Strip := ⟨tileset.margin, tileset.tileHeight, tileset.spacing⟩

/-- The pixels of a tile in the sheet, if there is a grid and the tile lies in it. -/
def tileBox? (tileset : Tileset) (id : UInt32) : Checked (Option (Box UInt32)) :=
  if tileset.columns = 0 || tileset.tileCount ≤ id then some none
  else do
    let (left, right) ← tileset.across.span? (id % tileset.columns)
    let (top, bottom) ← tileset.down.span? (id / tileset.columns)
    return some (.ofCorners left top right bottom)

end Baked.Tileset

structure TilesetAsset (η : Type) where
  tileset : Baked.Tileset
  sheet : Option η
  tileImages : Table UInt32 η
deriving Repr, Inhabited

namespace TilesetAsset

variable {η : Type}

def image? (asset : TilesetAsset η) (id : UInt32) : Option η :=
  match asset.sheet with
  | some sheet => some sheet
  | none => asset.tileImages.get? id

def isImageCollection (asset : TilesetAsset η) : Bool :=
  asset.tileset.image == ""

def tile? (asset : TilesetAsset η) (id : UInt32) : Option Baked.Tile :=
  asset.tileset.tiles.find? (·.id == id)

end TilesetAsset

end TileKiln
