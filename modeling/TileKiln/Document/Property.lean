import TileKiln.Document.Attribute
import TileKiln.Path
import TileKiln.Property

namespace TileKiln.Document

open Xml

/-- The value of a property: its attribute, else the text of an element that holds text alone. Files
are named relative to the document. -/
def propertyValue (dir : String) (node : Node) : String :=
  let written :=
    match node.attribute? "value" with
    | some value => value
    | none => if node.elements.isEmpty then node.text?.getD "" else ""
  if node.attribute? "type" == some "file" && written != "" then Path.resolve dir written
  else written

mutual

def property? (dir : String) : Node → Option Property
  | .element name attributes children =>
    if name == "property" then
      let node := Node.element name attributes children
      some ⟨text node "name", propertyValue dir node, propertiesAmong dir children⟩
    else none
  | _ => none

def propertyList (dir : String) : List Node → List Property
  | [] => []
  | node :: nodes => (property? dir node).toList ++ propertyList dir nodes

def listed? (dir : String) : Node → Option (List Property)
  | .element name _ children =>
    if name == "properties" then some (propertyList dir children) else none
  | _ => none

def propertiesAmong (dir : String) : List Node → List Property
  | [] => []
  | node :: nodes => (listed? dir node).getD (propertiesAmong dir nodes)

end

def properties (dir : String) (node : Node) : List Property :=
  propertiesAmong dir node.children

end TileKiln.Document
