import TileKiln.Message
import TileKiln.Single.Numeral
import TileKiln.Text.Blank
import TileKiln.Xml.Document

namespace TileKiln

inductive Feature
  | infiniteMaps
  | chunkedLayers
  | embeddedImages
deriving DecidableEq, Repr, Inhabited

def Feature.name : Feature → String
  | infiniteMaps => "infinite maps"
  | chunkedLayers => "chunked tile layers"
  | embeddedImages => "embedded images"

inductive DocumentError
  | malformed
  | unexpectedRoot (expected found : String)
  | missingAttribute (element key : String)
  | missingElement (parent element : String)
  | invalidValue (key value : String)
  | unsupported (feature : Feature)
deriving DecidableEq, Repr, Inhabited

def DocumentError.message : DocumentError → String
  | malformed => "malformed XML: " ++ Message.detail
  | unexpectedRoot expected found =>
    "expected <" ++ expected ++ "> root element, found <" ++ found ++ ">"
  | missingAttribute element key => "<" ++ element ++ "> is missing attribute '" ++ key ++ "'"
  | missingElement parent element => "<" ++ parent ++ "> is missing a <" ++ element ++ "> element"
  | invalidValue key value => "invalid value '" ++ value ++ "' for attribute '" ++ key ++ "'"
  | unsupported feature => feature.name ++ " are not supported"

namespace Document

open Xml Text

variable {α : Type}

abbrev Result := Except DocumentError

def value? (read : List Char → Option α) (node : Node) (name : String) : Result (Option α) :=
  match node.attribute? name with
  | none => .ok none
  | some text =>
    match read (trim text.toList) with
    | some value => .ok (some value)
    | none => .error (.invalidValue name text)

def valueD (read : List Char → Option α) (node : Node) (name : String) (fallback : α) : Result α := do
  return (← value? read node name).getD fallback

def required (read : List Char → Option α) (node : Node) (name : String) : Result α := do
  match ← value? read node name with
  | some value => return value
  | none => throw (.missingAttribute node.name name)

def word (node : Node) (name : String) : Result UInt32 :=
  valueD word32? node name 0

def single (node : Node) (name : String) : Result Single :=
  valueD Single.ofNumeral? node name .zero

/-- A truth value in one of its four spellings; blanks around it are not ignored. -/
def flag? (node : Node) (name : String) : Result (Option Bool) :=
  match node.attribute? name with
  | none => .ok none
  | some "1" | some "true" => .ok (some true)
  | some "0" | some "false" => .ok (some false)
  | some text => .error (.invalidValue name text)

def text (node : Node) (name : String) : String :=
  (node.attribute? name).getD ""

def class? (node : Node) : Option String :=
  match node.attribute? "class" with
  | some name => some name
  | none => node.attribute? "type"

def root (expected document : String) : Result Node :=
  match Xml.parse? document with
  | none => .error .malformed
  | some node =>
    if node.name == expected then .ok node else .error (.unexpectedRoot expected node.name)

end Document

end TileKiln
