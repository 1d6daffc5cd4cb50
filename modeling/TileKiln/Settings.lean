import TileKiln.Color

namespace TileKiln

/-- A value of a configuration file. A number that is written as no integer is a fraction. -/
inductive Datum
  | null
  | bool (b : Bool)
  | int (i : Int)
  | fraction
  | text (s : String)
  | list (items : List Datum)
  | record (fields : List (String × Datum))
deriving Repr, Inhabited

namespace Datum

/-- The fields of a structure in the order of `names`, `none` for each that is not given. A list
may be shorter than the names, but not longer. -/
def fields? (names : List String) : Datum → Option (List (Option Datum))
  | record fields => some (names.map (fields.lookup ·))
  | list items =>
    if items.length ≤ names.length then
      some (items.map some ++ List.replicate (names.length - items.length) none)
    else none
  | _ => none

def bool? : Datum → Option Bool
  | bool b => some b
  | _ => none

def text? : Datum → Option String
  | text s => some s
  | _ => none

def byte? : Datum → Option UInt8
  | int i => if 0 ≤ i ∧ i < 256 then some (UInt8.ofNat i.toNat) else none
  | _ => none

def color? : Datum → Option Color
  | list [r, g, b] => do return ⟨← byte? r, ← byte? g, ← byte? b⟩
  | _ => none

def fieldD {α : Type} (read : Datum → Option α) (fallback : α) : Option Datum → Option α
  | none => some fallback
  | some datum => read datum

end Datum

structure BakeSettings where
  background : Color := .black
  checkRanges : Bool := true
deriving DecidableEq, Repr, Inhabited

def BakeSettings.ofDatum? (datum : Datum) : Option BakeSettings :=
  match datum.fields? ["default_background", "validate_tileset_ranges"] with
  | some [background, checkRanges] => do
    let background ← Datum.fieldD Datum.color? .black background
    let checkRanges ← Datum.fieldD Datum.bool? true checkRanges
    return ⟨background, checkRanges⟩
  | _ => none

structure LoadSettings where
  imageExtension : String := "png"
deriving DecidableEq, Repr, Inhabited

namespace LoadSettings

def ofDatum? (datum : Datum) : Option LoadSettings :=
  match datum.fields? ["image_extension"] with
  | some [extension] => (Datum.fieldD Datum.text? "png" extension).map LoadSettings.mk
  | _ => none

def imagePath (settings : LoadSettings) (reference : String) : String :=
  reference ++ "." ++ settings.imageExtension

end LoadSettings

end TileKiln
