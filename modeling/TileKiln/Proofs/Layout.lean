import TileKiln.Baked.Writer

namespace TileKiln.Baked.Layout

variable {α : Type}

def count (n : Nat) : List UInt8 := Word.bytes32 (UInt32.ofNat n)

def text (s : String) : List UInt8 := count s.utf8ByteSize ++ s.toUTF8.data.toList

def int (i : Int32) : List UInt8 := Word.bytes32 i.toUInt32

def single (x : Single) : List UInt8 := Word.bytes32 x.bits

def tag [DecidableEq α] [Tagged α] (a : α) : List UInt8 := [Tagged.tag a]

def table (layout : α → List UInt8) (as : List α) : List UInt8 :=
  count as.length ++ as.flatMap layout

def point (p : Point) : List UInt8 := single p.x ++ single p.y

mutual

def property : Property → List UInt8
  | ⟨name, value, children⟩ =>
    text name ++ text value ++ count children.length ++ eachProperty children

def eachProperty : List Property → List UInt8
  | [] => []
  | p :: ps => property p ++ eachProperty ps

end

def properties (ps : List Property) : List UInt8 := table property ps

def shape : Shape → List UInt8
  | .rectangle | .ellipse => []
  | .polygon points | .polyline points => table point points
  | .tile gid => Word.bytes32 gid

def object (o : Object) : List UInt8 :=
  tag (Writer.shapeTag o.shape) ++ Word.bytes32 o.id ++ text o.name ++ text o.type ++
    single o.x ++ single o.y ++ single o.width ++ single o.height ++ single o.rotation ++
    tag o.visible ++ properties o.properties ++ shape o.shape

def frame (f : Frame) : List UInt8 := Word.bytes32 f.tile ++ Word.bytes32 f.duration

def tile (t : Tile) : List UInt8 :=
  Word.bytes32 t.id ++ text t.type ++ count t.animation.length ++ count t.objects.length ++
    t.objects.flatMap object ++ t.animation.flatMap frame ++ properties t.properties ++ text t.image

def tileset (t : Tileset) : List UInt8 :=
  text t.image ++ Word.bytes32 t.firstGid ++ Word.bytes32 t.tileWidth ++
    Word.bytes32 t.tileHeight ++ Word.bytes32 t.spacing ++ Word.bytes32 t.margin ++
    Word.bytes32 t.columns ++ Word.bytes32 t.tileCount ++ table tile t.tiles ++
    properties t.properties ++ int t.offset.x ++ int t.offset.y

def placedTile (t : PlacedTile) : List UInt8 :=
  Word.bytes32 t.gid ++ Word.bytes32 t.x ++ Word.bytes32 t.y

def layerAround (head : LayerHead) (kind : LayerTag) (content : List UInt8) : List UInt8 :=
  text head.name ++ tag head.visible ++ single head.opacity ++ tag kind ++ content ++
    point head.offset ++ properties head.properties

mutual

def layer : Layer → List UInt8
  | .tiles head placed width height => layerAround head .tiles
    (table placedTile placed ++ Word.bytes32 width ++ Word.bytes32 height)
  | .image head image position => layerAround head .image (text image ++ point position)
  | .objects head objects => layerAround head .objects (table object objects)
  | .group head members => layerAround head .group (count members.length ++ eachLayer members)

def eachLayer : List Layer → List UInt8
  | [] => []
  | l :: ls => layer l ++ eachLayer ls

end

def color (c : Color) : List UInt8 := [c.red, c.green, c.blue]

def map (m : Map) : List UInt8 :=
  color m.background ++ tag m.order ++ Word.bytes32 m.width ++ Word.bytes32 m.height ++
    Word.bytes32 m.tileWidth ++ Word.bytes32 m.tileHeight ++ tag m.orientation ++
    properties m.properties ++ table tileset m.tilesets ++ table layer m.layers

theorem eachProperty_eq (ps : List Property) : eachProperty ps = ps.flatMap property := by
  induction ps with
  | nil => rfl
  | cons p ps ih => rw [eachProperty, ih, List.flatMap_cons]

theorem eachLayer_eq (ls : List Layer) : eachLayer ls = ls.flatMap layer := by
  induction ls with
  | nil => rfl
  | cons l ls ih => rw [eachLayer, ih, List.flatMap_cons]

theorem property_eq (name value : String) (children : List Property) :
    property ⟨name, value, children⟩ = text name ++ text value ++ properties children := by
  rw [property, eachProperty_eq, properties, table, List.append_assoc _ (count _)]

theorem layer_group (head : LayerHead) (members : List Layer) :
    layer (.group head members) = layerAround head .group (table layer members) := by
  rw [layer, eachLayer_eq, table]

end TileKiln.Baked.Layout
