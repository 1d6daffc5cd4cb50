import TileKiln.Asset.Map
import TileKiln.Baked.Reader
import TileKiln.Compile
import TileKiln.Host.Disk

namespace TileKiln

inductive LoadError
  | notFound
  | unreadable
  | invalidUtf8
  | bake (cause : BakeError)
  | read (cause : Baked.ReadError)
  | dependency
deriving DecidableEq, Repr, Inhabited

namespace LoadError

def message? : LoadError → Option String
  | notFound => none
  | unreadable => some ("IO error: " ++ Message.detail)
  | invalidUtf8 => some ("Source is not valid UTF-8: " ++ Message.detail)
  | bake cause => some ("Failed to bake: " ++ cause.message)
  | read cause => some ("Failed to read baked data: " ++ cause.message)
  | dependency => some ("Failed to read dependency: " ++ Message.detail)

end LoadError

namespace FileTree

def bake (compile : Bake (List String) (List UInt8)) :
    Except BakeError (List UInt8 × List String) :=
  match compile.run.run [] with
  | (.ok stream, dependencies) => .ok (stream, dependencies)
  | (.error e, _) => .error e

def bakeMap (tree : FileTree) (settings : BakeSettings) (document path : String) :
    Except BakeError (List UInt8 × List String) :=
  bake (compileMap tree.host settings document path)

def bakeTileset (tree : FileTree) (document path : String) :
    Except BakeError (List UInt8 × List String) :=
  bake (compileTileset tree.host document path)

end FileTree

namespace Asset

/-- Tilesets and templates; every other dependency is an image. -/
def isDocument (path : String) : Bool :=
  path.endsWith ".tsx" || path.endsWith ".tx"

/-- The images among the dependencies by their references; the documents have to be files. -/
def register (tree : FileTree) : List String → Table String String → Except LoadError (Table String String)
  | [], images => .ok images
  | path :: rest, images =>
    if isDocument path then
      if tree.isFile path then register tree rest images else .error .dependency
    else register tree rest (images.insert (Path.imageReference path) path)

def contentAt (tree : FileTree) (path : String) : Except LoadError (List UInt8) :=
  match tree.find path with
  | .file content => .ok content
  | .directory => .error .unreadable
  | .missing | .blocked => .error .notFound

def documentAt (tree : FileTree) (path : String) : Except LoadError String := do
  let content ← contentAt tree path
  match String.fromUTF8? content.toByteArray with
  | some document => return document
  | none => throw .invalidUtf8

def ofMapDocument (tree : FileTree) (settings : BakeSettings) (path : String) :
    Except LoadError (MapAsset String) := do
  let document ← documentAt tree path
  let (stream, dependencies) ←
    (tree.bakeMap settings document (Path.forwardSlashes path)).mapError LoadError.bake
  let map ← (Baked.Map.read stream).mapError LoadError.read
  return ⟨map, ← register tree dependencies []⟩

/-- Bakes the tileset document at `path`. Tiles look for their images once that of the sheet is
taken. -/
def ofTilesetDocument (tree : FileTree) (path : String) :
    Except LoadError (TilesetAsset String) := do
  let document ← documentAt tree path
  let (stream, dependencies) ←
    (tree.bakeTileset document (Path.forwardSlashes path)).mapError LoadError.bake
  let tileset ← (Baked.Tileset.read stream).mapError LoadError.read
  let images ← register tree dependencies []
  let others := images.erase tileset.image
  let tileImages := tileset.tileImages.filterMap fun (id, reference) =>
    (others.get? reference).map (id, ·)
  return ⟨tileset, images.get? tileset.image, .ofEntries tileImages⟩

def ofMapStream (settings : LoadSettings) (stream : List UInt8) :
    Except LoadError (MapAsset String) := do
  let map ← (Baked.Map.read stream).mapError LoadError.read
  return ⟨map, .ofEntries (map.imageReferences.map fun r => (r, settings.imagePath r))⟩

def ofTilesetStream (settings : LoadSettings) (stream : List UInt8) :
    Except LoadError (TilesetAsset String) := do
  let tileset ← (Baked.Tileset.read stream).mapError LoadError.read
  let sheet := if tileset.image == "" then none else some (settings.imagePath tileset.image)
  return ⟨tileset, sheet, .ofEntries (tileset.tileImages.map fun (id, r) => (id, settings.imagePath r))⟩

end Asset

inductive Asset
  | map (asset : MapAsset String)
  | tileset (asset : TilesetAsset String)

namespace Asset

def load (tree : FileTree) (baking : BakeSettings) (loading : LoadSettings) (path : String) :
    Except LoadError Asset :=
  match Path.extension? path with
  | some "tmx" => map <$> ofMapDocument tree baking path
  | some "tsx" => tileset <$> ofTilesetDocument tree path
  | some "tmb" => do map <$> ofMapStream loading (← contentAt tree path)
  | some "tsb" => do tileset <$> ofTilesetStream loading (← contentAt tree path)
  | _ => .error .notFound

end Asset

end TileKiln
