import TileKiln.Assembly.Assemble
import TileKiln.Baked.Writer

namespace TileKiln

variable {σ : Type}

/-- Logs why the document at `path` fails to compile. Overflow is nothing that could be logged. -/
def report (host : Host σ) (path : String) : BakeError → Bake σ (List UInt8)
  | .decode .overflow => throw (.decode .overflow)
  | e => do
    let e := BakeError.inFile path e
    host.log .error e.message
    throw e

def reporting (host : Host σ) (path : String) (compile : Bake σ (List UInt8)) :
    Bake σ (List UInt8) :=
  tryCatch compile (report host path)

theorem report_of_ne {host : Host σ} {path : String} {e : BakeError} (h : e ≠ .decode .overflow) :
    report host path e = (do
      host.log .error (BakeError.inFile path e).message
      throw (.inFile path e)) := by
  unfold report
  split
  next => exact absurd rfl h
  next => rfl

def compileWith {α : Type} (parse : Document.Result α) (assemble : α → Work σ α)
    (write : α → Writer Unit) : Bake σ (List UInt8) := do
  let graph ← liftExcept (parse.mapError BakeError.document)
  let graph ← (assemble graph).toBake
  liftExcept ((write graph).bytes.mapError BakeError.write)

def compileMap (host : Host σ) (settings : BakeSettings) (document path : String) :
    Bake σ (List UInt8) := do
  host.log .debug ("compiling map " ++ path)
  reporting host path (compileWith (Map.parse document path) (Map.assemble host settings) Map.write)

def compileTileset (host : Host σ) (document path : String) : Bake σ (List UInt8) := do
  host.log .debug ("compiling tileset " ++ path)
  reporting host path
    (compileWith (Tileset.parse document path) (Tileset.assemble host) Tileset.write)

end TileKiln
