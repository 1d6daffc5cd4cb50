import TileKiln.Baked.Cursor
import TileKiln.Baked.Image

namespace TileKiln

open Baked (maxNesting)

def FitsWord (n : Nat) : Prop := n < UInt32.size

instance (n : Nat) : Decidable (FitsWord n) := inferInstanceAs (Decidable (n < UInt32.size))

theorem fitsWord_getD {text : Option String} (h : ∀ t ∈ text, FitsWord t.utf8ByteSize) :
    FitsWord (text.getD "").utf8ByteSize := by
  cases text with
  | none => decide
  | some t => exact h t rfl

namespace Property

mutual

def Fits : Property → Prop
  | ⟨name, value, children⟩ =>
    FitsWord name.utf8ByteSize ∧ FitsWord value.utf8ByteSize ∧ FitsWord children.length ∧
      AllFit children

def AllFit : List Property → Prop
  | [] => True
  | p :: ps => p.Fits ∧ AllFit ps

end

def ListFits (ps : List Property) : Prop := FitsWord ps.length ∧ AllFit ps

mutual

def height : Property → Nat
  | ⟨_, _, children⟩ => listHeight children + 1

def listHeight : List Property → Nat
  | [] => 0
  | p :: ps => max p.height (listHeight ps)

end

end Property

def Image.Fits : Option Image → Prop
  | none => True
  | some image => FitsWord image.source.utf8ByteSize

theorem Image.Fits.reference {image : Option Image} (h : Image.Fits image) :
    FitsWord (Image.reference image).utf8ByteSize := by
  cases image with
  | none => decide
  | some image => exact Nat.lt_of_le_of_lt (Path.utf8ByteSize_imageReference_le _) h

def Shape.Fits : Shape → Prop
  | .polygon points | .polyline points => FitsWord points.length
  | .rectangle | .ellipse | .tile _ => True

namespace Object

structure Fits (o : Object) : Prop where
  name : ∀ name ∈ o.name, FitsWord name.utf8ByteSize
  type : ∀ type ∈ o.type, FitsWord type.utf8ByteSize
  polygon : ∀ points ∈ o.polygon, FitsWord points.length
  polyline : ∀ points ∈ o.polyline, FitsWord points.length
  properties : Property.ListFits o.properties

theorem Fits.shape {o : Object} (h : o.Fits) : o.shape.Fits := by
  have houtline : o.outline.Fits := by
    unfold outline
    split
    · trivial
    · exact h.polygon _ ‹_›
    · exact h.polyline _ ‹_›
    · trivial
  unfold Object.shape
  split
  · split
    · exact houtline
    · trivial
  · exact houtline

def Shallow (depth : Nat) (o : Object) : Prop :=
  depth + Property.listHeight o.properties ≤ maxNesting

end Object

namespace Tile

structure Fits (t : Tile) : Prop where
  type : FitsWord t.type.utf8ByteSize
  frames : FitsWord t.animation.length
  objectCount : FitsWord t.objects.length
  objects : ∀ o ∈ t.objects, o.Fits
  properties : Property.ListFits t.properties
  image : Image.Fits t.image

structure Shallow (t : Tile) : Prop where
  objects : ∀ o ∈ t.objects, o.Shallow 0
  properties : Property.listHeight t.properties ≤ maxNesting

end Tile

namespace Tileset

structure Fits (t : Tileset) : Prop where
  image : Image.Fits t.image
  tileCount : FitsWord t.tiles.length
  tiles : ∀ tile ∈ t.tiles, tile.Fits
  properties : Property.ListFits t.properties

structure Shallow (t : Tileset) : Prop where
  tiles : ∀ tile ∈ t.tiles, tile.Shallow
  properties : Property.listHeight t.properties ≤ maxNesting

end Tileset

structure LayerHead.Fits (head : LayerHead) : Prop where
  name : FitsWord head.name.utf8ByteSize
  properties : Property.ListFits head.properties

def LayerHead.Shallow (depth : Nat) (head : LayerHead) : Prop :=
  depth + Property.listHeight head.properties ≤ maxNesting

namespace Layer

mutual

def Fits : Layer → Prop
  | .tiles head grid => head.Fits ∧ FitsWord grid.placed.length
  | .image head picture => head.Fits ∧ Image.Fits picture.image
  | .objects head items => head.Fits ∧ FitsWord items.length ∧ ∀ o ∈ items, o.Fits
  | .group head members => head.Fits ∧ FitsWord members.length ∧ AllFit members

def AllFit : List Layer → Prop
  | [] => True
  | l :: ls => l.Fits ∧ AllFit ls

end

mutual

/-- Whether a layer below `depth` group layers nests no deeper than allowed: each group layer takes
one level, and so does each level of properties below it. -/
def Shallow (depth : Nat) : Layer → Prop
  | .tiles head _ | .image head _ => head.Shallow depth
  | .objects head items => head.Shallow depth ∧ ∀ o ∈ items, o.Shallow depth
  | .group head members =>
    head.Shallow depth ∧ depth + 1 ≤ maxNesting ∧ AllShallow (depth + 1) members

def AllShallow (depth : Nat) : List Layer → Prop
  | [] => True
  | l :: ls => l.Shallow depth ∧ AllShallow depth ls

end

end Layer

namespace Map

def IsLoaded (map : Map) : Prop :=
  ∀ entry ∈ map.tilesets, ∃ tileset, entry = .inline tileset

structure Fits (map : Map) : Prop where
  properties : Property.ListFits map.properties
  tilesetCount : FitsWord map.tilesets.length
  tilesets : ∀ tileset ∈ map.loaded, tileset.Fits
  layerCount : FitsWord map.layers.length
  layers : Layer.AllFit map.layers

structure Shallow (map : Map) : Prop where
  properties : Property.listHeight map.properties ≤ maxNesting
  tilesets : ∀ tileset ∈ map.loaded, tileset.Shallow
  layers : Layer.AllShallow 0 map.layers

theorem IsLoaded.tilesets_eq {map : Map} (h : map.IsLoaded) :
    map.tilesets = map.loaded.map .inline := by
  unfold IsLoaded at h
  rw [loaded]
  generalize map.tilesets = entries at h
  induction entries with
  | nil => rfl
  | cons entry entries ih =>
      obtain ⟨tileset, rfl⟩ := h entry List.mem_cons_self
      have hrest := ih fun entry he => h entry (List.mem_cons_of_mem _ he)
      simp only [List.filterMap_cons, TilesetEntry.tileset?, List.map_cons, ← hrest]

end Map

end TileKiln
