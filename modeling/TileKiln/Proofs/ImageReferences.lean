import TileKiln.Asset.Map
import TileKiln.Baked.Image
import TileKiln.Proofs.Parts
import TileKiln.Proofs.StreamLimits

namespace TileKiln

variable {r : String}

namespace Baked

theorem mem_addReference {references : List String} {added : String} :
    r ∈ addReference references added ↔ r ∈ references ∨ r ≠ "" ∧ r = added := by
  by_cases hold : added = "" ∨ added ∈ references
  · rw [addReference, if_pos (by simpa using hold)]
    constructor
    · exact .inl
    · rintro (hr | ⟨hr, rfl⟩)
      · exact hr
      · exact hold.resolve_left hr
  · rw [addReference, if_neg (by simpa using hold), List.mem_append, List.mem_singleton]
    constructor
    · rintro (hr | rfl)
      · exact .inl hr
      · exact .inr ⟨fun hr => hold (.inl hr), rfl⟩
    · exact .imp_right And.right

theorem mem_foldl_addReference {references before : List String} :
    r ∈ references.foldl addReference before ↔ r ∈ before ∨ r ≠ "" ∧ r ∈ references := by
  induction references generalizing before with
  | nil => simp
  | cons first references ih =>
      rw [List.foldl_cons, ih, mem_addReference, or_assoc, ← and_or_left, List.mem_cons]

theorem Tileset.referred_of_mem_tileImages {t : Tileset} {id : UInt32}
    (h : (id, r) ∈ t.tileImages) : r ≠ "" ∧ r ∈ t.references := by
  refine ⟨?_, List.mem_cons_of_mem _ (List.mem_map.2 ⟨_, h, rfl⟩)⟩
  obtain ⟨tile, htile, heq⟩ := List.mem_map.1 h
  cases heq
  exact bne_iff_ne.1 (List.mem_filter.1 htile).2

theorem Map.mem_imageReferences {m : Map} :
    r ∈ m.imageReferences ↔
      r ≠ "" ∧ r ∈ m.tilesets.flatMap Tileset.references ++ Layer.referencesAmong m.layers := by
  rw [imageReferences, mem_foldl_addReference]
  simp

end Baked

namespace Part

def references (parts : List Part) : List String :=
  (parts.filterMap source?).map Path.imageReference

theorem references_append (front back : List Part) :
    references (front ++ back) = references front ++ references back := by
  rw [references, List.filterMap_append, List.map_append, references, references]

theorem references_objects (items : List Object) : references (items.map .object) = [] := by
  rw [references, List.filterMap_map]
  simp [Function.comp_def, source?]

theorem mem_references_ofImage (hr : r ≠ "") {image : Option Image} :
    r ∈ references (ofImage image) ↔ r = Image.reference image := by
  cases image with
  | none =>
      constructor
      · intro h
        cases h
      · rintro rfl
        exact absurd rfl hr
  | some image => exact List.mem_singleton

end Part

open TileKiln.Part

theorem Tile.mem_references (hr : r ≠ "") {t : Tile} :
    r ∈ references t.parts ↔ r = t.baked.image := by
  rw [Tile.parts, references_append, references_objects, List.append_nil, mem_references_ofImage hr]
  rfl

theorem Tileset.mem_references (hr : r ≠ "") {t : Tileset} :
    r ∈ references t.parts ↔ r ∈ t.baked.references := by
  have htiles : r ∈ references (t.tiles.flatMap Tile.parts) ↔
      ∃ tile ∈ t.tiles, r = tile.baked.image := by
    induction t.tiles with
    | nil => simp [references]
    | cons tile tiles ih =>
        rw [List.flatMap_cons, references_append, List.mem_append, ih, Tile.mem_references hr]
        simp
  have himages : r ∈ t.baked.tileImages.map (·.2) ↔ ∃ tile ∈ t.tiles, r = tile.baked.image := by
    simp only [Baked.Tileset.tileImages, Tileset.baked, List.map_map, List.mem_map, List.mem_filter]
    constructor
    · rintro ⟨_, ⟨⟨tile, htile, rfl⟩, _⟩, rfl⟩
      exact ⟨tile, htile, rfl⟩
    · rintro ⟨tile, htile, rfl⟩
      exact ⟨tile.baked, ⟨⟨tile, htile, rfl⟩, bne_iff_ne.2 hr⟩, rfl⟩
  rw [Tileset.parts, references_append, List.mem_append, htiles, ← himages,
    mem_references_ofImage hr, Baked.Tileset.references, List.mem_cons]
  rfl

mutual

theorem Layer.mem_references (hr : r ≠ "") : (l : Layer) →
    (r ∈ references l.parts ↔ r ∈ l.baked.references)
  | .tiles head grid => Iff.rfl
  | .image head picture => by
      rw [Layer.parts, mem_references_ofImage hr]
      exact List.mem_singleton.symm
  | .objects head items => by
      rw [Layer.parts, references_objects]
      rfl
  | .group head members => Layer.mem_referencesAmong hr members

theorem Layer.mem_referencesAmong (hr : r ≠ "") : (ls : List Layer) →
    (r ∈ references (Layer.partsAmong ls) ↔
      r ∈ Baked.Layer.referencesAmong (Layer.bakedAll ls))
  | [] => Iff.rfl
  | l :: ls => by
      rw [Layer.partsAmong, references_append, List.mem_append, Layer.mem_references hr l,
        Layer.mem_referencesAmong hr ls, Layer.bakedAll, Baked.Layer.referencesAmong,
        List.mem_append]

end

theorem Map.mem_imageReferences_baked {map : Map} (h : map.IsLoaded) :
    r ∈ map.baked.imageReferences ↔ r ≠ "" ∧ r ∈ references map.parts := by
  have htilesets (hr : r ≠ "") : r ∈ references (map.loaded.flatMap Tileset.parts) ↔
      r ∈ map.baked.tilesets.flatMap Baked.Tileset.references := by
    rw [Map.baked, List.flatMap_map]
    induction map.loaded with
    | nil => exact Iff.rfl
    | cons t ts ih =>
        rw [List.flatMap_cons, references_append, List.mem_append, ih, Tileset.mem_references hr,
          List.flatMap_cons, List.mem_append]
  rw [Baked.Map.mem_imageReferences, parts_of_inline h.tilesets_eq, references_append]
  refine and_congr_right fun hr => ?_
  rw [List.mem_append, List.mem_append, htilesets hr, Layer.mem_referencesAmong hr]
  rfl

end TileKiln
