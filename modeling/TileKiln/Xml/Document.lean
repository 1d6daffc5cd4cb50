import TileKiln.Xml.Node
import TileKiln.Xml.Token

namespace TileKiln.Xml

/-- Namespaces by prefix, the innermost declaration first; the default one is under `none`. -/
abbrev Scope := List (Option String × String)

def namespaceRoot : String := "http:" ++ "//www.w3.org/"

def xmlNamespace : String := namespaceRoot ++ "XML/1998/namespace"

def xmlnsNamespace : String := namespaceRoot ++ "2000/xmlns/"

inductive Declaration
  | plain
  | declares (key : Option String) (uri : String)
  | redundant
  | refused

def declaration (name : QName) (value : String) : Declaration :=
  if name.space == "xmlns" then
    if value == xmlnsNamespace then .refused
    else if (name.name == "xml") != (value == xmlNamespace) then .refused
    else if value == xmlNamespace then .redundant
    else .declares (some name.name) value
  else if name.name == "xmlns" then
    if value == xmlNamespace || value == xmlnsNamespace then .refused else .declares none value
  else .plain

def declarations? (own : Scope) : List (QName × String) → Option Scope
  | [] => some own
  | (name, value) :: rest =>
    match declaration name value with
    | .refused => none
    | .plain | .redundant => declarations? own rest
    | .declares (some key) uri =>
      if own.any (·.1 == some key) then none else declarations? ((some key, uri) :: own) rest
    | .declares none uri => declarations? ((none, uri) :: own) rest

def namespace? (scope : Scope) (space : String) : Option (Option String) :=
  if space == "" then some none
  else if space == "xml" then some (some xmlNamespace)
  else (scope.lookup (some space)).map some

def expanded? (scope : Scope) : List (QName × String) → Option (List ((Option String × String) × String))
  | [] => some []
  | (name, value) :: rest =>
    match declaration name value with
    | .plain => do
      let uri ← namespace? scope name.space
      return ((uri, name.name), value) :: (← expanded? scope rest)
    | _ => expanded? scope rest

def allDistinct {α : Type} [BEq α] : List α → Bool
  | [] => true
  | a :: as => !as.contains a && allDistinct as

structure OpenElement where
  tag : QName
  attributes : List (String × String)
  scope : Scope
  children : List Node

namespace OpenElement

def add (e : OpenElement) (node : Node) : OpenElement :=
  { e with children := node :: e.children }

def addText (e : OpenElement) (content : String) : OpenElement :=
  match e.children with
  | .text before :: others => { e with children := .text (before ++ content) :: others }
  | _ => e.add (.text content)

def close (e : OpenElement) : Node :=
  .element e.tag.name e.attributes e.children.reverse

end OpenElement

def open? (scope : Scope) (tag : QName) (attributes : List (QName × String)) : Option OpenElement := do
  let own ← declarations? [] attributes
  let scope := own ++ scope
  let attributes ← expanded? scope attributes
  if tag.space == "xmlns" || !allDistinct (attributes.map (·.1)) then none
  else if tag.space != "" && (scope.lookup (some tag.space)).isNone then none
  else
    let unqualified := attributes.filter (·.1.1.isNone)
    return ⟨tag, unqualified.map fun ((_, name), value) => (name, value), scope, []⟩

def plainText? (raw : List Char) : Option String :=
  if raw.any fun c => c == '&' || c == '\r' then
    (characterData? [] false raw).map String.ofList
  else some (String.ofList raw)

def literalContent (raw : List Char) : String :=
  if raw.contains '\r' then String.ofList (literalText [] raw) else String.ofList raw

def rootOf? (stack : List OpenElement) (root : Option Node) : List Token → Option Node
  | [] => if stack.isEmpty then root else none
  | .aside :: tokens =>
    match stack with
    | [] => rootOf? [] root tokens
    | e :: outer => rootOf? (e.add .aside :: outer) root tokens
  | .text raw :: tokens =>
    match stack with
    | [] => if raw.all isSpace then rootOf? [] root tokens else none
    | e :: outer => do rootOf? (e.addText (← plainText? raw) :: outer) root tokens
  | .literal raw :: tokens =>
    match stack with
    | [] => none
    | e :: outer => rootOf? (e.addText (literalContent raw) :: outer) root tokens
  | .opening tag attributes closed :: tokens =>
    match stack, root with
    | [], some _ => none
    | [], none => do
      let e ← open? [] tag attributes
      if closed then rootOf? [] (some e.close) tokens else rootOf? [e] none tokens
    | outer :: others, _ => do
      let e ← open? outer.scope tag attributes
      if closed then rootOf? (outer.add e.close :: others) root tokens
      else rootOf? (e :: outer :: others) root tokens
  | .closing tag :: tokens =>
    match stack with
    | [] => none
    | [e] => if e.tag == tag then rootOf? [] (some e.close) tokens else none
    | e :: outer :: others =>
      if e.tag == tag then rootOf? (outer.add e.close :: others) root tokens else none

def declarationGap? (cs : List Char) : Option (List Char) :=
  if cs.head?.any isSpace || startsWith "?>" cs || cs.isEmpty then some (skipSpaces cs) else none

def declarationPart? (mark : String) (cs : List Char) : Option (List Char) :=
  if startsWith mark cs then (assignment? cs).map (·.2) else some cs

def afterDeclaration? (cs : List Char) : Option (List Char) :=
  match after? "<?xml " cs with
  | none => some cs
  | some r => do
    let r := skipSpaces r
    if startsWith "version" r then
      let r ← declarationGap? (← declarationPart? "version" r)
      let r ← if startsWith "encoding" r then declarationGap? (← declarationPart? "encoding" r)
        else some r
      let r ← declarationPart? "standalone" r
      after? "?>" (skipSpaces r)
    else none

/-- The root element of a document, if the document is well-formed and has no DTD. -/
def parse? (document : String) : Option Node := do
  let cs :=
    match document.toList with
    | '\uFEFF' :: r => r
    | r => r
  rootOf? [] none (← tokens? (← afterDeclaration? cs))

end TileKiln.Xml
