import TileKiln.Document.Map
import TileKiln.Error

namespace TileKiln

inductive LogLevel
  | error
  | warn
  | info
  | debug
  | trace
deriving DecidableEq, Repr, Inhabited

variable {σ α : Type}

def loadDocument (readText : String → Bake σ String) (addDependency : String → StateM σ Unit)
    (parse : (document path : String) → Document.Result α) (path : String) : Bake σ α := do
  let document ← readText path
  addDependency path
  match parse document path with
  | .ok a => return a
  | .error e => throw (.inFile path (.document e))

/-- Services for baking, over a state that remembers what they were asked for. -/
structure Host (σ : Type) where
  readText : String → Bake σ String
  addDependency : String → StateM σ Unit := fun _ => return ()
  resolveImage : String → Bake σ String := fun path => do
    addDependency path
    return path
  log : LogLevel → String → StateM σ Unit := fun _ _ => return ()
  loadTemplate : String → Bake σ Template := loadDocument readText addDependency Template.parse
  loadTileset : String → Bake σ Tileset := loadDocument readText addDependency Tileset.parse

end TileKiln
