import TileKiln.Object

namespace TileKiln

/-- The tileset that a template's own global id counts from. -/
structure TemplateTileset where
  firstGid : UInt32
  source : String
deriving DecidableEq, Repr, Inhabited

structure Template where
  tileset : Option TemplateTileset := none
  object : Object := {}
deriving Repr, Inhabited

end TileKiln
