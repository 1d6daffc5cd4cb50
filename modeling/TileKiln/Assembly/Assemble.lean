import TileKiln.Assembly.GidSpace
import TileKiln.Assembly.Work
import TileKiln.Host.Basic
import TileKiln.Payload.Decode
import TileKiln.Settings
import TileKiln.Template.Chain

namespace TileKiln

variable {σ : Type}

structure Surroundings where
  order : PaintOrder := .rightDown
  firstGids : List (String × UInt32) := []

namespace Assembly

/-- The object of a template, its id moved to where the map has the template's tileset. -/
def fetchTemplate (host : Host σ) (around : Surroundings) (reference : String) : Bake σ Object := do
  let template ← host.loadTemplate reference
  match template.tileset, template.object.gid with
  | some tileset, some gid =>
    host.addDependency tileset.source
    match Gid.remap around.firstGids tileset gid with
    | .ok gid => return { template.object with gid := some gid }
    | .error e => throw (.inFile reference e)
  | _, _ => return template.object

def templates (host : Host σ) (around : Surroundings) : TemplateSource σ where
  fetch := fetchTemplate host around

def object (host : Host σ) (around : Surroundings) (o : Object) : Work σ Object :=
  (o.resolveInPlace (templates host around)).within (.inObject o.label)

def objects (host : Host σ) (around : Surroundings) : List Object → Work σ (List Object) :=
  Work.each (object host around)

def image (host : Host σ) : Option Image → Work σ (Option Image) :=
  Work.each? fun i => Work.step i do
    return { i with source := ← host.resolveImage i.source }

def tile (host : Host σ) (around : Surroundings) (t : Tile) : Work σ Tile :=
  (Work.part (fun image => { t with image }) (image host t.image)).andThen fun t =>
    Work.part (fun objects => { t with objects }) (objects host around t.objects)

def tileset (host : Host σ) (around : Surroundings) (t : Tileset) : Work σ Tileset :=
  (Work.part (fun image => { t with image }) (image host t.image)).andThen fun t =>
    Work.part (fun tiles => { t with tiles }) (Work.each (tile host around) t.tiles)

def grid (host : Host σ) (around : Surroundings) (layer : String) (g : TileGrid) :
    Work σ TileGrid :=
  Work.step g do
    let cells ← liftExcept ((g.data.decode g.width g.height).mapError BakeError.decode)
    let placed := around.order.sequence g.width g.height cells
    host.log .debug ("layer '" ++ layer ++ s!"': {placed.length} tiles")
    return { g with placed }

mutual

def layer (host : Host σ) (around : Surroundings) : Layer → Work σ Layer
  | .tiles head g =>
    (Work.part (Layer.tiles head) (grid host around head.name g)).within (.inLayer head.name)
  | .image head picture =>
    (Work.part (fun image => Layer.image head { picture with image })
      (image host picture.image)).within (.inLayer head.name)
  | .objects head items =>
    (Work.part (Layer.objects head) (objects host around items)).within (.inLayer head.name)
  | .group head members =>
    (Work.part (Layer.group head) (layers host around members)).within (.inLayer head.name)

def layers (host : Host σ) (around : Surroundings) : List Layer → Work σ (List Layer)
  | [] => Work.done []
  | l :: ls => Work.cons (layer host around l) ls (layers host around ls)

end

def load (host : Host σ) : TilesetEntry → Work σ TilesetEntry
  | .inline t => Work.done (.inline t)
  | .external firstGid source => Work.step (.external firstGid source) do
    let t ← host.loadTileset source
    return .inline { t with firstGid }

def tilesetEntry (host : Host σ) (around : Surroundings) : TilesetEntry → Work σ TilesetEntry
  | .inline t =>
    let work := Work.part TilesetEntry.inline (tileset host around t)
    match t.source with
    | some source => work.within (.inFile source)
    | none => work
  | .external firstGid source => Work.done (.external firstGid source)

def loadAll (host : Host σ) (map : Map) : Work σ Map :=
  Work.part (fun tilesets => { map with tilesets }) (Work.each (load host) map.tilesets)

def settle (settings : BakeSettings) (map : Map) : Work σ Map :=
  match map.checkGids settings.checkRanges with
  | .error e => Work.fail map e
  | .ok () => Work.done { map with background := some (map.background.getD settings.background) }

def tilesets (host : Host σ) (map : Map) : Work σ Map :=
  let around : Surroundings := ⟨map.order, map.firstGids⟩
  Work.part (fun tilesets => { map with tilesets })
    (Work.each (tilesetEntry host around) map.tilesets)

def allLayers (host : Host σ) (map : Map) : Work σ Map :=
  let around : Surroundings := ⟨map.order, map.firstGids⟩
  Work.part (fun layers => { map with layers }) (layers host around map.layers)

end Assembly

def Map.assemble (host : Host σ) (settings : BakeSettings) (map : Map) : Work σ Map :=
  (Assembly.loadAll host map).andThen fun map =>
    (Assembly.settle settings map).andThen fun map =>
      (Assembly.tilesets host map).andThen (Assembly.allLayers host)

/-- A tileset alone has no map whose ids templates could refer to. -/
def Tileset.assemble (host : Host σ) (tileset : Tileset) : Work σ Tileset :=
  Assembly.tileset host {} tileset

end TileKiln
