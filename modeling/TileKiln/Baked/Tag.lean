import TileKiln.Baked.Basic

namespace TileKiln.Baked

inductive TagKind
  | bool
  | order
  | orientation
  | layer
  | shape
deriving DecidableEq, Repr, Inhabited

namespace TagKind

def name : TagKind → String
  | bool => "bool"
  | order => "render order"
  | orientation => "orientation"
  | layer => "layer"
  | shape => "shape"

def count : TagKind → Nat
  | bool => 2
  | order | orientation | layer => 4
  | shape => 5

theorem count_le (kind : TagKind) : kind.count ≤ 5 := by
  cases kind <;> decide

end TagKind

inductive LayerTag
  | tiles
  | image
  | objects
  | group
deriving DecidableEq, Repr, Inhabited

inductive ShapeTag
  | rectangle
  | ellipse
  | polygon
  | polyline
  | tile
deriving DecidableEq, Repr, Inhabited

/-- Types whose values are told apart by one byte: the place of a value in the list of all. -/
class Tagged (α : Type) [DecidableEq α] where
  kind : TagKind
  values : List α
  mem_values : ∀ a, a ∈ values
  nodup_values : values.Nodup
  length_values : values.length = kind.count

namespace Tagged

variable {α : Type} [DecidableEq α] [Tagged α]

def tag (a : α) : UInt8 :=
  UInt8.ofNat ((values : List α).idxOf a)

def ofTag? (t : UInt8) : Option α :=
  values[t.toNat]?

theorem ofTag?_eq_none_iff (t : UInt8) : (ofTag? t : Option α) = none ↔ (kind α).count ≤ t.toNat := by
  simp [ofTag?, ← length_values]

theorem toNat_tag (a : α) : (tag a).toNat = (values : List α).idxOf a := by
  have hlt := List.idxOf_lt_length_of_mem (mem_values a)
  have hle := TagKind.count_le (kind α)
  rw [length_values] at hlt
  rw [tag, UInt8.toNat_ofNat']
  omega

theorem ofTag?_tag (a : α) : ofTag? (tag a) = some a := by
  have hlt := List.idxOf_lt_length_of_mem (mem_values a)
  rw [ofTag?, toNat_tag, List.getElem?_eq_getElem hlt, List.getElem_idxOf hlt]

end Tagged

instance : Tagged Bool where
  kind := .bool
  values := [false, true]
  mem_values := by decide
  nodup_values := by decide
  length_values := rfl

instance : Tagged PaintOrder where
  kind := .order
  values := [.rightDown, .rightUp, .leftDown, .leftUp]
  mem_values a := by cases a <;> decide
  nodup_values := by decide
  length_values := rfl

instance : Tagged Orientation where
  kind := .orientation
  values := [.orthogonal, .isometric, .staggered, .hexagonal]
  mem_values a := by cases a <;> decide
  nodup_values := by decide
  length_values := rfl

instance : Tagged LayerTag where
  kind := .layer
  values := [.tiles, .image, .objects, .group]
  mem_values a := by cases a <;> decide
  nodup_values := by decide
  length_values := rfl

instance : Tagged ShapeTag where
  kind := .shape
  values := [.rectangle, .ellipse, .polygon, .polyline, .tile]
  mem_values a := by cases a <;> decide
  nodup_values := by decide
  length_values := rfl

end TileKiln.Baked
