namespace TileKiln.Xml

/-- An element by its name without a namespace, its attributes that are in no namespace, and what
it contains. Adjacent text is one node; `aside` is a comment or a processing instruction. -/
inductive Node
  | element (name : String) (attributes : List (String × String)) (children : List Node)
  | text (content : String)
  | aside
deriving Repr, Inhabited

namespace Node

def isElement : Node → Bool
  | element _ _ _ => true
  | _ => false

def hasName (name : String) : Node → Bool
  | element n _ _ => n == name
  | _ => false

def name : Node → String
  | element n _ _ => n
  | _ => ""

def children : Node → List Node
  | element _ _ cs => cs
  | _ => []

def elements (node : Node) : List Node :=
  node.children.filter isElement

def named (node : Node) (name : String) : List Node :=
  node.children.filter (hasName name)

def first? (node : Node) (name : String) : Option Node :=
  node.children.find? (hasName name)

def attribute? (node : Node) (name : String) : Option String :=
  match node with
  | element _ attributes _ => attributes.lookup name
  | _ => none

def text? (node : Node) : Option String :=
  match node.children with
  | text content :: _ => some content
  | _ => none

end Node

end TileKiln.Xml
