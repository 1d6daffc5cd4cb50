import TileKiln.Host.Basic

namespace TileKiln

inductive Request
  | read (path : String)
  | image (path : String)
  | dependency (path : String)
  | log (level : LogLevel) (message : String)
deriving DecidableEq, Repr, Inhabited

/-- Documents by path, and images by the path that refers to them; without a list of images, each
image is its own reference. -/
structure Library where
  documents : List (String × String)
  images : Option (List (String × String)) := none
deriving Repr, Inhabited

namespace Library

variable {σ : Type}

def document (library : Library) (path : String) : Bake σ String :=
  match library.documents.lookup path with
  | some document => return document
  | none => throw (.missing path .file)

def image? (library : Library) (path : String) : Option String :=
  match library.images with
  | none => some path
  | some images => images.lookup path

def recorder (library : Library) : Host (List Request) where
  readText path := do
    modify (· ++ [.read path])
    library.document path
  addDependency path := modify (· ++ [.dependency path])
  resolveImage path := do
    modify (· ++ [.image path])
    match library.image? path with
    | some reference =>
      modify (· ++ [.dependency path])
      return reference
    | none => throw (.missing path .image)
  log level message := modify (· ++ [.log level message])

def plain (library : Library) : Host Unit where
  readText := library.document

end Library

end TileKiln
