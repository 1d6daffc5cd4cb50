import TileKiln.Asset.Tileset

namespace TileKiln

namespace Baked

def addReference (references : List String) (reference : String) : List String :=
  if reference == "" || references.contains reference then references
  else references ++ [reference]

def Tileset.references (tileset : Tileset) : List String :=
  tileset.image :: tileset.tileImages.map (·.2)

mutual

def Layer.references : Layer → List String
  | .image _ reference _ => [reference]
  | .group _ members => Layer.referencesAmong members
  | .tiles .. | .objects .. => []

def Layer.referencesAmong : List Layer → List String
  | [] => []
  | l :: ls => l.references ++ Layer.referencesAmong ls

end

namespace Map

/-- Every image that a map refers to, once, tilesets before layers. -/
def imageReferences (map : Map) : List String :=
  (map.tilesets.flatMap Tileset.references ++ Layer.referencesAmong map.layers).foldl
    addReference []

def gridSize (map : Map) : Extent := ⟨map.width, map.height⟩

def tileSize (map : Map) : Extent := ⟨map.tileWidth, map.tileHeight⟩

def largestTileSize (map : Map) : Extent :=
  (map.tilesets.map Tileset.tileSize).foldl Extent.union map.tileSize

def bounds? (map : Map) : Checked (Box Single) :=
  (map.gridSize.times? map.tileSize).map Box.ofExtent

end Map

end Baked

structure MapAsset (η : Type) where
  map : Baked.Map
  images : Table String η
deriving Repr, Inhabited

namespace MapAsset

variable {η : Type}

def image? (asset : MapAsset η) (reference : String) : Option η :=
  asset.images.get? reference

def owner? (asset : MapAsset η) (gid : UInt32) : Option (Baked.Tileset × Option η) :=
  (asset.map.owner? gid).map fun tileset => (tileset, asset.image? tileset.image)

/-- The image that a global id is drawn from: the sheet of its tileset, or else the tile's own. -/
def tileImage? (asset : MapAsset η) (gid : UInt32) : Option η := do
  let (tileset, sheet) ← asset.owner? gid
  match sheet with
  | some sheet => return sheet
  | none => asset.image? (← tileset.tileImages.lookup (Gid.tile gid - tileset.firstGid))

theorem tileImage?_of_owner? {asset : MapAsset η} {gid : UInt32} {tileset : Baked.Tileset}
    {sheet : Option η} (h : asset.owner? gid = some (tileset, sheet)) :
    asset.tileImage? gid =
      sheet.or ((tileset.tileImages.lookup (Gid.tile gid - tileset.firstGid)).bind asset.image?) := by
  rw [tileImage?, h]
  cases sheet with
  | some sheet => rfl
  | none => rfl

end MapAsset

end TileKiln
