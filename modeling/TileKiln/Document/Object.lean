import TileKiln.Document.Property
import TileKiln.Template.Basic

namespace TileKiln.Document

open Xml Text

def point? (cs : List Char) : Option Point := do
  let (x, y) ← splitOnce? ',' cs
  return ⟨← Single.ofNumeral? x, ← Single.ofNumeral? y⟩

def points (node : Node) : Result (List Point) :=
  let written := text node "points"
  match (words written.toList).mapM point? with
  | some points => .ok points
  | none => .error (.invalidValue "points" written)

/-- What one child element says about the outline of an object; of several of one kind, the last
counts. -/
def outline (object : Object) (child : Node) : Result Object := do
  match child.name with
  | "ellipse" => return { object with ellipse := some () }
  | "polygon" => return { object with polygon := some (← points child) }
  | "polyline" => return { object with polyline := some (← points child) }
  | _ => return object

def object (dir : String) (node : Node) : Result Object := do
  let id ← value? word32? node "id"
  let gid ← value? word32? node "gid"
  let x ← value? Single.ofNumeral? node "x"
  let y ← value? Single.ofNumeral? node "y"
  let width ← value? Single.ofNumeral? node "width"
  let height ← value? Single.ofNumeral? node "height"
  let rotation ← value? Single.ofNumeral? node "rotation"
  let visible ← flag? node "visible"
  let written : Object :=
    { id, gid, x, y, width, height, rotation, visible
      name := node.attribute? "name"
      type := class? node
      template := (node.attribute? "template").map (Path.resolve dir)
      properties := properties dir node }
  node.elements.foldlM outline written

def templateTileset (dir : String) (node : Node) : Result TemplateTileset := do
  let source ← required (some ∘ String.ofList) node "source"
  let firstGid ← required word32? node "firstgid"
  return ⟨firstGid, Path.resolve dir source⟩

structure TemplateParts where
  tileset : Option TemplateTileset := none
  object : Option Object := none

def templatePart (dir : String) (parts : TemplateParts) (child : Node) : Result TemplateParts := do
  match child.name with
  | "tileset" => return { parts with tileset := some (← templateTileset dir child) }
  | "object" => return { parts with object := some (← object dir child) }
  | _ => return parts

def template (dir : String) (node : Node) : Result Template := do
  let parts ← node.elements.foldlM (templatePart dir) {}
  match parts.object with
  | some object => return ⟨parts.tileset, object⟩
  | none => throw (.missingElement "template" "object")

end TileKiln.Document

namespace TileKiln

def Template.parse (document path : String) : Document.Result Template := do
  Document.template (Path.parent path) (← Document.root "template" document)

end TileKiln
