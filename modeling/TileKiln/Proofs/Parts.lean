import TileKiln.Assembly.Assemble
import TileKiln.Proofs.HostCalls

namespace TileKiln

inductive Part
  | image (source : String)
  | object (object : Object)

namespace Part

def source? : Part → Option String
  | image source => some source
  | object _ => none

def object? : Part → Option Object
  | image _ => none
  | object o => some o

def ofImage : Option Image → List Part
  | none => []
  | some i => [.image i.source]

end Part

def Tile.parts (tile : Tile) : List Part :=
  Part.ofImage tile.image ++ tile.objects.map .object

def Tileset.parts (tileset : Tileset) : List Part :=
  Part.ofImage tileset.image ++ tileset.tiles.flatMap Tile.parts

def TilesetEntry.parts : TilesetEntry → List Part
  | .inline tileset => tileset.parts
  | .external _ _ => []

mutual

def Layer.parts : Layer → List Part
  | .tiles _ _ => []
  | .image _ picture => Part.ofImage picture.image
  | .objects _ items => items.map .object
  | .group _ members => Layer.partsAmong members

def Layer.partsAmong : List Layer → List Part
  | [] => []
  | l :: ls => l.parts ++ Layer.partsAmong ls

end

def Map.parts (map : Map) : List Part :=
  map.tilesets.flatMap TilesetEntry.parts ++ Layer.partsAmong map.layers

theorem parts_of_inline {map : Map} {tilesets : List Tileset}
    (h : map.tilesets = tilesets.map .inline) :
    map.parts = tilesets.flatMap Tileset.parts ++ Layer.partsAmong map.layers := by
  rw [Map.parts, h, List.flatMap_map]
  rfl

namespace Template

def placed (firstGids : List (String × UInt32)) (reference : String) (template : Template) :
    Except BakeError Object :=
  match template.tileset, template.object.gid with
  | some tileset, some gid =>
    match Gid.remap firstGids tileset gid with
    | .ok gid => .ok { template.object with gid := some gid }
    | .error e => .error (.inFile reference e)
  | _, _ => .ok template.object

def calls (reference : String) (template : Template) : List Call :=
  .template reference template ::
    match template.tileset, template.object.gid with
    | some tileset, some _ => [.dependency tileset.source]
    | _, _ => []

end Template

namespace Object

/-- Templates by the references to them, from the nearest of an object to the farthest. -/
abbrev TemplateChain := List (String × Template)

def TemplateChain.calls (chain : TemplateChain) : List Call :=
  chain.flatMap fun (reference, template) => template.calls reference

def Follows : Object → TemplateChain → Prop
  | object, [] => object.template = none
  | object, (reference, template) :: chain =>
    object.template = some reference ∧ Follows template.object chain

inductive Inherits (firstGids : List (String × UInt32)) : Object → TemplateChain → Object → Prop
  | plain (object : Object) (htemplate : object.template = none) : Inherits firstGids object [] object
  | template (object : Object) (reference : String) (template : Template) (placed : Object)
      (chain : TemplateChain) (base : Object) (htemplate : object.template = some reference)
      (hplaced : template.placed firstGids reference = .ok placed)
      (hrest : Inherits firstGids placed chain base) :
      Inherits firstGids object ((reference, template) :: chain) (object.inherit base)

end Object

/-- The parts before, the calls about them, and the parts after. -/
inductive Account (firstGids : List (String × UInt32)) : List Part → List Call → List Part → Prop
  | nil : Account firstGids [] [] []
  | image (source answer parts calls parts') (h : Account firstGids parts calls parts') :
      Account firstGids (.image source :: parts) (.image source answer :: calls)
        (.image answer :: parts')
  | object (object chain resolved parts calls parts')
      (hobject : Object.Inherits firstGids object chain resolved)
      (h : Account firstGids parts calls parts') :
      Account firstGids (.object object :: parts) (chain.calls ++ calls) (.object resolved :: parts')
  | log (level message parts calls parts') (h : Account firstGids parts calls parts') :
      Account firstGids parts (.log level message :: calls) parts'

namespace Account

variable {firstGids : List (String × UInt32)} {front back front' back' : List Part}
  {calls calls' : List Call}

theorem append (hfront : Account firstGids front calls front')
    (hback : Account firstGids back calls' back') :
    Account firstGids (front ++ back) (calls ++ calls') (front' ++ back') := by
  induction hfront with
  | nil => exact hback
  | image source answer _ _ _ _ ih => exact .image source answer _ _ _ ih
  | object object chain resolved _ _ _ hobject _ ih =>
      rw [List.append_assoc]
      exact .object object chain resolved _ _ _ hobject ih
  | log level message _ _ _ _ ih => exact .log level message _ _ _ ih

end Account

end TileKiln
