import TileKiln.Proofs.StreamLimits

namespace TileKiln

theorem Property.listHeight_le_iff {ps : List Property} {levels : Nat} :
    Property.listHeight ps ≤ levels ↔ ∀ p ∈ ps, p.height ≤ levels := by
  induction ps with
  | nil => simp [Property.listHeight]
  | cons p ps ih => rw [Property.listHeight, Nat.max_le, ih, List.forall_mem_cons]

namespace Baked

def Object.Within (levels : Nat) (o : Object) : Prop := Property.listHeight o.properties ≤ levels

structure Tile.Within (levels : Nat) (t : Tile) : Prop where
  objects : ∀ o ∈ t.objects, o.Within levels
  properties : Property.listHeight t.properties ≤ levels

structure Tileset.Within (levels : Nat) (t : Tileset) : Prop where
  tiles : ∀ tile ∈ t.tiles, tile.Within levels
  properties : Property.listHeight t.properties ≤ levels

namespace Layer

mutual

def Within : (levels : Nat) → Layer → Prop
  | levels, .tiles head _ _ _ | levels, .image head _ _ =>
    Property.listHeight head.properties ≤ levels
  | levels, .objects head items =>
    Property.listHeight head.properties ≤ levels ∧ ∀ o ∈ items, o.Within levels
  | 0, .group _ _ => False
  | levels + 1, .group head members =>
    Property.listHeight head.properties ≤ levels + 1 ∧ AllWithin levels members

def AllWithin : (levels : Nat) → List Layer → Prop
  | _, [] => True
  | levels, l :: ls => l.Within levels ∧ AllWithin levels ls

end

theorem allWithin_iff {levels : Nat} {ls : List Layer} :
    AllWithin levels ls ↔ ∀ l ∈ ls, l.Within levels := by
  induction ls with
  | nil => simp [AllWithin]
  | cons l ls ih => rw [AllWithin, ih, List.forall_mem_cons]

end Layer

structure Map.Within (levels : Nat) (m : Map) : Prop where
  properties : Property.listHeight m.properties ≤ levels
  tilesets : ∀ t ∈ m.tilesets, t.Within levels
  layers : ∀ l ∈ m.layers, l.Within levels

end Baked

theorem Object.shallow_of_baked {o : Object} {depth levels : Nat}
    (hlevels : depth + levels = Baked.maxNesting) (h : o.baked.Within levels) :
    o.Shallow depth := by
  rw [Baked.Object.Within] at h
  rw [Shallow]
  change Property.listHeight o.properties ≤ levels at h
  omega

theorem Tile.shallow_of_baked {t : Tile} (h : t.baked.Within Baked.maxNesting) : t.Shallow where
  objects _ ho := Object.shallow_of_baked (Nat.zero_add _) (h.objects _ (List.mem_map_of_mem ho))
  properties := h.properties

theorem Tileset.shallow_of_baked {t : Tileset} (h : t.baked.Within Baked.maxNesting) :
    t.Shallow where
  tiles _ ht := Tile.shallow_of_baked (h.tiles _ (List.mem_map_of_mem ht))
  properties := h.properties

namespace Layer

theorem headShallow {head : LayerHead} {depth levels : Nat}
    (hlevels : depth + levels = Baked.maxNesting)
    (h : Property.listHeight head.properties ≤ levels) : head.Shallow depth := by
  rw [LayerHead.Shallow]
  omega

mutual

theorem shallow_of_baked : (l : Layer) → {depth levels : Nat} →
    depth + levels = Baked.maxNesting → l.baked.Within levels → l.Shallow depth
  | .tiles head grid, depth, levels, hlevels, h => by
      rw [baked, Baked.Layer.Within] at h
      rw [Shallow]
      exact headShallow hlevels h
  | .image head picture, depth, levels, hlevels, h => by
      rw [baked, Baked.Layer.Within] at h
      rw [Shallow]
      exact headShallow hlevels h
  | .objects head items, depth, levels, hlevels, h => by
      rw [baked, Baked.Layer.Within] at h
      rw [Shallow]
      refine ⟨headShallow hlevels h.1, fun o ho => ?_⟩
      exact Object.shallow_of_baked hlevels (h.2 _ (List.mem_map_of_mem ho))
  | .group head members, depth, 0, hlevels, h => by
      rw [baked, Baked.Layer.Within] at h
      exact h.elim
  | .group head members, depth, levels + 1, hlevels, h => by
      rw [baked, Baked.Layer.Within] at h
      rw [Shallow]
      have hlevels' : depth + 1 + levels = Baked.maxNesting := by omega
      exact ⟨headShallow hlevels h.1, by omega, allShallow_of_baked members hlevels' h.2⟩

theorem allShallow_of_baked : (ls : List Layer) → {depth levels : Nat} →
    depth + levels = Baked.maxNesting → Baked.Layer.AllWithin levels (bakedAll ls) →
      AllShallow depth ls
  | [], _, _, _, _ => trivial
  | l :: ls, _, _, hlevels, h => by
      rw [bakedAll, Baked.Layer.AllWithin] at h
      rw [AllShallow]
      exact ⟨shallow_of_baked l hlevels h.1, allShallow_of_baked ls hlevels h.2⟩

end

end Layer

theorem Map.shallow_of_baked {map : Map} (h : map.baked.Within Baked.maxNesting) :
    map.Shallow where
  properties := h.properties
  tilesets _ ht := Tileset.shallow_of_baked (h.tilesets _ (List.mem_map_of_mem ht))
  layers := Layer.allShallow_of_baked map.layers (Nat.zero_add _)
    (Baked.Layer.allWithin_iff.2 h.layers)

end TileKiln
