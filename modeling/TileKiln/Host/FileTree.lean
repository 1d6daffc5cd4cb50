namespace TileKiln

/-- Files by the names on the way to them, and directories that are there even if they are empty.
Every directory on the way to one of them is there too. -/
structure FileTree where
  files : List (List String × List UInt8)
  directories : List (List String)
deriving Repr, Inhabited

namespace FileTree

inductive Place
  | file (content : List UInt8)
  | directory
  | missing
  | blocked
deriving DecidableEq, Repr, Inhabited

def file? (tree : FileTree) (names : List String) : Option (List UInt8) :=
  tree.files.lookup names

def isDirectory (tree : FileTree) (names : List String) : Bool :=
  names.isEmpty || tree.directories.any (names.isPrefixOf ·) ||
    tree.files.any fun (file, _) => names.isPrefixOf file && names.length < file.length

def maxName : Nat := 255

def maxPath : Nat := 4095

def isUp (step : String) : Bool := step == ".."

def isStay (step : String) : Bool := step == "" || step == "."

/-- Follows steps from a place outside of the tree, where only the way further up is known. -/
def walkOutside : List String → Place
  | [] => .directory
  | step :: steps =>
    if isUp step || isStay step then walkOutside steps
    else if maxName < step.utf8ByteSize then .blocked
    else .missing

def walk (tree : FileTree) (names : List String) : List String → Place
  | [] => .directory
  | step :: steps =>
    if isStay step then tree.walk names steps
    else if isUp step then
      if names.isEmpty then walkOutside steps else tree.walk names.dropLast steps
    else if maxName < step.utf8ByteSize then .blocked
    else
      let names := names ++ [step]
      match tree.file? names with
      | some content => if steps.isEmpty then .file content else .blocked
      | none => if tree.isDirectory names then tree.walk names steps else .missing

def find (tree : FileTree) (path : String) : Place :=
  let steps := (path.toList.splitOn '/').map String.ofList
  if path.toList.contains '\x00' || maxPath < path.utf8ByteSize then .blocked
  else if path.startsWith "/" then walkOutside steps
  else tree.walk [] steps

def text? (tree : FileTree) (path : String) : Option String :=
  match tree.find path with
  | .file content => String.fromUTF8? content.toByteArray
  | _ => none

def isFile (tree : FileTree) (path : String) : Bool :=
  match tree.find path with
  | .file _ => true
  | _ => false

end FileTree

end TileKiln
