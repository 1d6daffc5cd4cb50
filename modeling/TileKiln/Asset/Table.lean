namespace TileKiln

abbrev Table (κ η : Type) := List (κ × η)

namespace Table

variable {κ η : Type} [BEq κ]

def erase (table : Table κ η) (key : κ) : Table κ η :=
  table.filter (·.1 != key)

def insert (table : Table κ η) (key : κ) (value : η) : Table κ η :=
  (key, value) :: table.erase key

def get? (table : Table κ η) (key : κ) : Option η :=
  table.lookup key

/-- Of several values for one key, the last counts. -/
def ofEntries (entries : List (κ × η)) : Table κ η :=
  entries.foldl (fun table (key, value) => table.insert key value) []

end Table

end TileKiln
