import TileKiln.Host.Basic
import TileKiln.Host.FileTree

namespace TileKiln.FileTree

def readText (tree : FileTree) (path : String) : Except BakeError String :=
  match tree.find path with
  | .file content =>
    match String.fromUTF8? content.toByteArray with
    | some text => .ok text
    | none => .error (.unreadable path)
  | .missing => .error (.missing path .file)
  | .directory | .blocked => .error (.unreadable path)

def addDependency (path : String) (dependencies : List String) : List String :=
  if path ∈ dependencies then dependencies else dependencies ++ [path]

def takeDependencies : StateM (List String) (List String) :=
  modifyGet fun dependencies => (dependencies, [])

def host (tree : FileTree) : Host (List String) where
  readText path := liftExcept (tree.readText path)
  addDependency path := modify (addDependency path)
  resolveImage path := do
    if tree.isFile path then
      modify (addDependency path)
      return path
    else throw (.missing path .image)

end TileKiln.FileTree
