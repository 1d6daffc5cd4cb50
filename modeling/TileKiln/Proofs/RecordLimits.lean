import TileKiln.Proofs.StreamLimits

namespace TileKiln

namespace Property

theorem allFit_iff {ps : List Property} : AllFit ps ↔ ∀ p ∈ ps, p.Fits := by
  induction ps with
  | nil => simp [AllFit]
  | cons p ps ih => rw [AllFit, ih, List.forall_mem_cons]

end Property

namespace Baked

structure Object.Fits (o : Object) : Prop where
  name : FitsWord o.name.utf8ByteSize
  type : FitsWord o.type.utf8ByteSize
  properties : Property.ListFits o.properties
  shape : o.shape.Fits

structure Tile.Fits (t : Tile) : Prop where
  type : FitsWord t.type.utf8ByteSize
  frames : FitsWord t.animation.length
  objectCount : FitsWord t.objects.length
  objects : ∀ o ∈ t.objects, o.Fits
  properties : Property.ListFits t.properties
  image : FitsWord t.image.utf8ByteSize

structure Tileset.Fits (t : Tileset) : Prop where
  image : FitsWord t.image.utf8ByteSize
  tileCount : FitsWord t.tiles.length
  tiles : ∀ tile ∈ t.tiles, tile.Fits
  properties : Property.ListFits t.properties

namespace Layer

mutual

def Fits : Layer → Prop
  | .tiles head placed _ _ => head.Fits ∧ FitsWord placed.length
  | .image head reference _ => head.Fits ∧ FitsWord reference.utf8ByteSize
  | .objects head items => head.Fits ∧ FitsWord items.length ∧ ∀ o ∈ items, o.Fits
  | .group head members => head.Fits ∧ FitsWord members.length ∧ AllFit members

def AllFit : List Layer → Prop
  | [] => True
  | l :: ls => l.Fits ∧ AllFit ls

end

theorem allFit_iff {ls : List Layer} : AllFit ls ↔ ∀ l ∈ ls, l.Fits := by
  induction ls with
  | nil => simp [AllFit]
  | cons l ls ih => rw [AllFit, ih, List.forall_mem_cons]

end Layer

structure Map.Fits (m : Map) : Prop where
  properties : Property.ListFits m.properties
  tilesetCount : FitsWord m.tilesets.length
  tilesets : ∀ t ∈ m.tilesets, t.Fits
  layerCount : FitsWord m.layers.length
  layers : Layer.AllFit m.layers

end Baked

theorem Object.Fits.baked {o : Object} (h : o.Fits) : o.baked.Fits where
  name := fitsWord_getD h.name
  type := fitsWord_getD h.type
  properties := h.properties
  shape := h.shape

theorem Tile.Fits.baked {t : Tile} (h : t.Fits) : t.baked.Fits where
  type := h.type
  frames := h.frames
  objectCount := by
    rw [Tile.baked, List.length_map]
    exact h.objectCount
  objects o ho := by
    obtain ⟨source, hsource, rfl⟩ := List.mem_map.1 ho
    exact (h.objects source hsource).baked
  properties := h.properties
  image := h.image.reference

theorem Tileset.Fits.baked {t : Tileset} (h : t.Fits) : t.baked.Fits where
  image := h.image.reference
  tileCount := by
    rw [Tileset.baked, List.length_map]
    exact h.tileCount
  tiles tile htile := by
    obtain ⟨source, hsource, rfl⟩ := List.mem_map.1 htile
    exact (h.tiles source hsource).baked
  properties := h.properties

end TileKiln
