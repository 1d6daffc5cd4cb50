namespace TileKiln

structure Property where
  name : String
  value : String
  children : List Property
deriving Repr, Inhabited

namespace Property

def addUnlessNamed (properties : List Property) (p : Property) : List Property :=
  if properties.any (·.name == p.name) then properties else properties ++ [p]

/-- Adds the properties of `fallback` that `own` does not name; of several with one name, the
first. -/
def merge (own fallback : List Property) : List Property :=
  fallback.foldl addUnlessNamed own

end Property

end TileKiln
