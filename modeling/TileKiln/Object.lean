import TileKiln.Field
import TileKiln.Property
import TileKiln.Single.Basic

namespace TileKiln

structure Point where
  x : Single
  y : Single
deriving DecidableEq, Repr, Inhabited

def Point.origin : Point := ⟨.zero, .zero⟩

inductive Shape
  | rectangle
  | ellipse
  | polygon (points : List Point)
  | polyline (points : List Point)
  | tile (gid : UInt32)
deriving DecidableEq, Repr, Inhabited

structure Object where
  id : Option UInt32 := none
  name : Option String := none
  type : Option String := none
  gid : Option UInt32 := none
  x : Option Single := none
  y : Option Single := none
  width : Option Single := none
  height : Option Single := none
  rotation : Option Single := none
  visible : Option Bool := none
  ellipse : Option Unit := none
  polygon : Option (List Point) := none
  polyline : Option (List Point) := none
  template : Option String := none
  properties : List Property := []
deriving Repr, Inhabited

namespace Object

/-- Fills every unset field from `base` and adds the properties that the object does not name. The
template reference stays the object's own. -/
def inherit (object base : Object) : Object where
  id := Field.inherit object.id base.id
  name := Field.inherit object.name base.name
  type := Field.inherit object.type base.type
  gid := Field.inherit object.gid base.gid
  x := Field.inherit object.x base.x
  y := Field.inherit object.y base.y
  width := Field.inherit object.width base.width
  height := Field.inherit object.height base.height
  rotation := Field.inherit object.rotation base.rotation
  visible := Field.inherit object.visible base.visible
  ellipse := Field.inherit object.ellipse base.ellipse
  polygon := Field.inherit object.polygon base.polygon
  polyline := Field.inherit object.polyline base.polyline
  template := object.template
  properties := Property.merge object.properties base.properties

def outline (object : Object) : Shape :=
  match object.ellipse, object.polygon, object.polyline with
  | some _, _, _ => .ellipse
  | none, some points, _ => .polygon points
  | none, none, some points => .polyline points
  | none, none, none => .rectangle

/-- The first that applies: a tile with an id other than 0, an ellipse, a polygon, a polyline, a
rectangle. -/
def shape (object : Object) : Shape :=
  match object.gid with
  | some gid => if gid = 0 then object.outline else .tile gid
  | none => object.outline

def label (object : Object) : String :=
  match object.name.filter (· != ""), object.id with
  | some name, _ => name
  | none, some id => "#" ++ toString id.toNat
  | none, none => "<unnamed>"

end Object

end TileKiln
