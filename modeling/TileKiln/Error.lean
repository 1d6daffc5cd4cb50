import TileKiln.Document.Attribute
import TileKiln.Payload.Decode
import TileKiln.Sink

namespace TileKiln

inductive Absence
  | file
  | image
  | template
  | tileset
  | tile (tile : UInt32)
deriving DecidableEq, Repr, Inhabited

def Absence.message : Absence → String
  | file => "file not found"
  | image => "image not found"
  | template => "not found"
  | tileset => "tileset used by a tile template is not part of the map"
  | tile t => "tile " ++ toString t.toNat ++ " is below the tileset's first gid"

inductive BakeError
  | document (cause : DocumentError)
  | decode (cause : DecodeError)
  | templateCycle (chain : List String)
  /-- A chain of ever new templates, which no run comes to the end of. -/
  | templateChain (chain : List String)
  | missing (path : String) (what : Absence)
  | overlap (first second : String)
  | gidOutOfRange (tileset : String) (gid : Nat)
  | unreadable (path : String)
  | write (cause : WriteError)
  | inFile (path : String) (cause : BakeError)
  | inLayer (layer : String) (cause : BakeError)
  | inObject (object : String) (cause : BakeError)
deriving DecidableEq, Repr, Inhabited

namespace BakeError

def message : BakeError → String
  | document cause => cause.message
  | decode cause => cause.message
  | templateCycle chain => "template cycle: " ++ String.intercalate " -> " chain
  | templateChain chain => "endless template chain: " ++ String.intercalate " -> " chain
  | missing path what => "missing reference '" ++ path ++ "': " ++ what.message
  | overlap first second =>
    "tilesets '" ++ first ++ "' and '" ++ second ++ "' have overlapping global id ranges"
  | gidOutOfRange tileset gid =>
    "tileset '" ++ tileset ++ s!"' reaches global id {gid}, which collides with the flip flags"
  | unreadable path => "failed to read '" ++ path ++ "': " ++ Message.detail
  | write cause => cause.message
  | inFile path cause => path ++ ": " ++ cause.message
  | inLayer layer cause => "layer '" ++ layer ++ "': " ++ cause.message
  | inObject object cause => "object " ++ object ++ ": " ++ cause.message

/-- The error as it shows in a place. Overflow ends the run before anyone can say where. -/
def within (place : BakeError → BakeError) : BakeError → BakeError
  | decode .overflow => decode .overflow
  | e => place e

def rootCause : BakeError → BakeError
  | inFile _ cause | inLayer _ cause | inObject _ cause => cause.rootCause
  | e => e

theorem within_of_ne {place : BakeError → BakeError} {e : BakeError} (h : e ≠ decode .overflow) :
    e.within place = place e := by
  unfold within
  split
  next => exact absurd rfl h
  next => rfl

end BakeError

/-- A computation that uses a host with state `σ` and may fail. What the host was told before a
failure stays with it. -/
abbrev Bake (σ : Type) := ExceptT BakeError (StateM σ)

end TileKiln
