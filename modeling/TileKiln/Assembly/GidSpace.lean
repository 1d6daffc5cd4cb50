import TileKiln.Error
import TileKiln.Map
import TileKiln.Template.Basic

namespace TileKiln

namespace Tileset

def lastGid (tileset : Tileset) : Nat :=
  tileset.firstGid.toNat + max tileset.tileCount.toNat 1 - 1

def checkGids (tileset : Tileset) : Except BakeError Unit :=
  if Gid.mask.toNat < tileset.lastGid then
    .error (.gidOutOfRange tileset.label tileset.lastGid)
  else .ok ()

def checkNeighbours : List Tileset → Except BakeError Unit
  | first :: second :: rest =>
    if second.firstGid < first.gidEnd then .error (.overlap first.label second.label)
    else checkNeighbours (second :: rest)
  | _ => .ok ()

/-- Refuses tilesets that overlap when they stand in the order of their first ids. -/
def checkRanges (tilesets : List Tileset) : Except BakeError Unit :=
  checkNeighbours (tilesets.mergeSort fun a b => a.firstGid ≤ b.firstGid)

end Tileset

namespace Map

def checkGids (map : Map) (checkRanges : Bool) : Except BakeError Unit := do
  map.loaded.forM Tileset.checkGids
  if checkRanges then Tileset.checkRanges map.loaded

def firstGids (map : Map) : List (String × UInt32) :=
  map.loaded.filterMap fun tileset => tileset.source.map (·, tileset.firstGid)

end Map

namespace Gid

/-- Moves an id that counts from a template's tileset to the first tileset of the map with that
source. The flip flags stay, and an id without a tile is not moved. -/
def remap (firstGids : List (String × UInt32)) (tileset : TemplateTileset) (gid : UInt32) :
    Except BakeError UInt32 :=
  let tile := Gid.tile gid
  if tile = 0 then .ok gid
  else
    match firstGids.lookup tileset.source with
    | none => .error (.missing tileset.source .tileset)
    | some first =>
      if tile < tileset.firstGid then .error (.missing tileset.source (.tile tile))
      else
        let moved := first.toNat + (tile - tileset.firstGid).toNat
        if Gid.mask.toNat < moved then .error (.gidOutOfRange tileset.source moved)
        else .ok (UInt32.ofNat moved ||| Gid.flips gid)

end Gid

end TileKiln
