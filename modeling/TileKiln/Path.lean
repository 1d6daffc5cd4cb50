namespace TileKiln.Path

def isRooted (path : String) : Bool :=
  path.startsWith "/"

def components (path : String) : List String :=
  ((path.toList.splitOn '/').map String.ofList).filter fun c => c != "" && c != "."

def collapse (components : List String) : List String :=
  (components.foldl (fun above c => if c == ".." then above.tail else c :: above) []).reverse

def render (rooted : Bool) (components : List String) : String :=
  let body := String.intercalate "/" components
  if rooted then "/" ++ body else if body == "" then "." else body

def forwardSlashes (path : String) : String :=
  String.ofList (path.toList.map fun c => if c == '\\' then '/' else c)

/-- The path that `reference` names when it stands in a file of `dir`; a rooted reference is taken
alone. Components are collapsed before backslashes are turned. -/
def resolve (dir reference : String) : String :=
  let joined := if isRooted reference || dir == "" then reference else dir ++ "/" ++ reference
  forwardSlashes (render (isRooted joined) (collapse (components joined)))

def parent (path : String) : String :=
  match components path with
  | [] => ""
  | cs =>
    let body := String.intercalate "/" cs.dropLast
    forwardSlashes (if isRooted path then "/" ++ body else body)

/-- An image path without the extension of its file name. A name whose only dot comes first has
none. -/
def imageReference (path : String) : String :=
  let backward := path.toList.reverse
  let name := backward.takeWhile (· != '/')
  let dir := backward.dropWhile (· != '/')
  match name.dropWhile (· != '.') with
  | _ :: stem => if stem.isEmpty then path else String.ofList (stem ++ dir).reverse
  | [] => path

/-- Taking the extension off leaves a front part of the path. -/
theorem imageReference_append (path : String) : ∃ rest, imageReference path ++ rest = path := by
  have hwhole : ∃ rest, path ++ rest = path := ⟨"", String.append_empty⟩
  dsimp only [imageReference]
  split
  next dot stem hstem =>
    split
    · exact hwhole
    · generalize hback : path.toList.reverse = backward at hstem ⊢
      have hname := List.takeWhile_append_dropWhile (p := (· != '/')) (l := backward)
      have hdot := List.takeWhile_append_dropWhile (p := (· != '.'))
        (l := backward.takeWhile (· != '/'))
      rw [hstem] at hdot
      generalize (backward.takeWhile (· != '/')).takeWhile (· != '.') = extension at hdot
      generalize backward.dropWhile (· != '/') = dir at hname ⊢
      have hpath : path.toList = (stem ++ dir).reverse ++ (extension ++ [dot]).reverse := by
        rw [← List.reverse_reverse path.toList, hback, ← hname, ← hdot]
        simp
      exact ⟨String.ofList (extension ++ [dot]).reverse, by
        rw [← String.ofList_append, ← hpath, String.ofList_toList]⟩
  next => exact hwhole

theorem utf8ByteSize_imageReference_le (path : String) :
    (imageReference path).utf8ByteSize ≤ path.utf8ByteSize := by
  obtain ⟨rest, hrest⟩ := imageReference_append path
  have hsize := congrArg String.utf8ByteSize hrest
  rw [String.utf8ByteSize_append] at hsize
  omega

def extension? (path : String) : Option String :=
  match (components path).getLast? with
  | none | some ".." => none
  | some name =>
    let backward := name.toList.reverse
    if backward.contains '.' then some (String.ofList (backward.takeWhile (· != '.')).reverse)
    else none

end TileKiln.Path
