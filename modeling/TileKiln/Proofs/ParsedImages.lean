import TileKiln.Proofs.NormalPaths
import TileKiln.Proofs.ParsedMap
import TileKiln.Proofs.Parts

namespace TileKiln

variable {document path dir : String}

namespace Part

variable {part : Part} {parts front back : List Part}

def AllNamed (parts : List Part) : Prop :=
  ∀ part ∈ parts, part.source? ≠ some ""

theorem allNamed_nil : AllNamed [] := List.forall_mem_nil _

theorem allNamed_cons : AllNamed (part :: parts) ↔ part.source? ≠ some "" ∧ AllNamed parts :=
  List.forall_mem_cons

theorem allNamed_append : AllNamed (front ++ back) ↔ AllNamed front ∧ AllNamed back :=
  List.forall_mem_append

theorem allNamed_ofImage_iff {image : Option Image} :
    AllNamed (ofImage image) ↔ ∀ i ∈ image, i.source ≠ "" := by
  cases image with
  | none => simp [ofImage, allNamed_nil]
  | some i => simp [ofImage, AllNamed, source?]

theorem allNamed_objects (items : List Object) : AllNamed (items.map object) := by
  intro part hpart
  obtain ⟨o, _, rfl⟩ := List.mem_map.1 hpart
  exact fun hsource => nomatch hsource

end Part

open TileKiln.Part

theorem Layer.partsAmong_append (front back : List Layer) :
    Layer.partsAmong (front ++ back) = Layer.partsAmong front ++ Layer.partsAmong back := by
  induction front with
  | nil => rfl
  | cons l front ih => rw [List.cons_append, partsAmong, partsAmong, ih, List.append_assoc]

theorem Layer.allNamed_toList {l : Option Layer} (h : ∀ l' ∈ l, AllNamed l'.parts) :
    AllNamed (Layer.partsAmong l.toList) := by
  cases l with
  | none => exact allNamed_nil
  | some l =>
      rw [Option.toList_some, partsAmong, partsAmong, List.append_nil]
      exact h l rfl

namespace Document

open Xml

variable {node : Node}

theorem source_of_image {i : Image} (h : image dir node = .ok i) : i.source ≠ "" := by
  rw [image] at h
  split at h
  next => cases h
  next source _ =>
    obtain ⟨width, _, h⟩ := ok_of_bind h
    obtain ⟨height, _, h⟩ := ok_of_bind h
    cases h
    exact Path.resolve_ne_empty dir source

theorem allNamed_of_tilePart {before after : Tile} (h : tilePart dir before node = .ok after)
    (hbefore : AllNamed before.parts) : AllNamed after.parts := by
  rw [Tile.parts, allNamed_append] at hbefore ⊢
  refine ⟨?_, allNamed_objects _⟩
  rw [tilePart] at h
  split at h
  next =>
    obtain ⟨i, hi, h⟩ := ok_of_bind h
    cases h
    exact allNamed_ofImage_iff.2 fun _ h => Option.some.inj h ▸ source_of_image hi
  next =>
    obtain ⟨objects, _, h⟩ := ok_of_bind h
    cases h
    exact hbefore.1
  next =>
    obtain ⟨frames, _, h⟩ := ok_of_bind h
    cases h
    exact hbefore.1
  next =>
    cases h
    exact hbefore.1

theorem allNamed_of_tile {t : Tile} (h : tile dir node = .ok t) : AllNamed t.parts := by
  obtain ⟨id, _, h⟩ := ok_of_bind h
  obtain ⟨probability, _, h⟩ := ok_of_bind h
  refine foldlM_keeps (P := fun t => AllNamed t.parts) ?_ h ?_
  · intro before child after hpart hbefore
    exact allNamed_of_tilePart hpart hbefore
  · exact allNamed_nil

theorem allNamed_of_tilesetPart {before after : Tileset}
    (h : tilesetPart dir before node = .ok after)
    (hbefore : AllNamed before.parts) : AllNamed after.parts := by
  rw [Tileset.parts, allNamed_append] at hbefore ⊢
  rw [tilesetPart] at h
  split at h
  next =>
    obtain ⟨i, hi, h⟩ := ok_of_bind h
    cases h
    exact ⟨allNamed_ofImage_iff.2 fun _ h => Option.some.inj h ▸ source_of_image hi, hbefore.2⟩
  next =>
    obtain ⟨x, _, h⟩ := ok_of_bind h
    obtain ⟨y, _, h⟩ := ok_of_bind h
    cases h
    exact hbefore
  next =>
    obtain ⟨terrains, _, h⟩ := ok_of_bind h
    cases h
    exact hbefore
  next =>
    obtain ⟨t, ht, h⟩ := ok_of_bind h
    cases h
    rw [List.flatMap_append, allNamed_append, List.flatMap_singleton]
    exact ⟨hbefore.1, hbefore.2, allNamed_of_tile ht⟩
  next =>
    cases h
    exact hbefore

theorem allNamed_of_tileset {t : Tileset} (h : tileset dir node = .ok t) : AllNamed t.parts := by
  obtain ⟨bare, hbare, h⟩ : ∃ bare : Tileset, bare.parts = [] ∧
      node.elements.foldlM (tilesetPart dir) bare = .ok t := by
    obtain ⟨firstGid, _, h⟩ := ok_of_bind h
    obtain ⟨tileWidth, _, h⟩ := ok_of_bind h
    obtain ⟨tileHeight, _, h⟩ := ok_of_bind h
    obtain ⟨spacing, _, h⟩ := ok_of_bind h
    obtain ⟨margin, _, h⟩ := ok_of_bind h
    obtain ⟨columns, _, h⟩ := ok_of_bind h
    obtain ⟨tileCount, _, h⟩ := ok_of_bind h
    exact ⟨_, rfl, h⟩
  refine foldlM_keeps (P := fun t => AllNamed t.parts) ?_ h ?_
  · intro before child after hpart hbefore
    exact allNamed_of_tilesetPart hpart hbefore
  · rw [hbare]
    exact allNamed_nil

theorem allNamed_of_tilesetEntry {entry : TilesetEntry} (h : tilesetEntry dir node = .ok entry) :
    AllNamed entry.parts := by
  obtain ⟨firstGid, _, _, ⟨source, rfl⟩ | ⟨t, ht, rfl⟩⟩ := cases_of_tilesetEntry h
  · exact allNamed_nil
  · exact allNamed_of_tileset ht

theorem source_of_picture {p : Picture} (h : picture dir node = .ok p) :
    ∀ i ∈ p.image, i.source ≠ "" := by
  obtain ⟨found, hfound, h⟩ := ok_of_bind h
  obtain ⟨x, _, h⟩ := ok_of_bind h
  obtain ⟨y, _, h⟩ := ok_of_bind h
  cases h
  cases hfirst : node.first? "image" with
  | none =>
      rw [hfirst] at hfound
      cases hfound
      exact fun _ hi => nomatch hi
  | some child =>
      rw [hfirst] at hfound
      obtain ⟨i, hi, hfound⟩ := ok_of_bind hfound
      cases hfound
      exact fun _ h => Option.some.inj h ▸ source_of_image hi

mutual

theorem allNamed_of_layer (dir : String) : (node : Node) → {l : Layer} →
    (h : layer dir node = .ok (some l)) → AllNamed l.parts
  | .text _, _, h | .aside, _, h => nomatch h
  | .element name attributes children, l, h => by
      rw [layer.eq_def] at h
      dsimp only at h
      split at h
      next =>
        obtain ⟨grid, _, h⟩ := ok_of_bind h
        obtain ⟨head, _, h⟩ := ok_of_bind h
        cases h
        exact allNamed_nil
      next =>
        obtain ⟨picture, hpicture, h⟩ := ok_of_bind h
        obtain ⟨head, _, h⟩ := ok_of_bind h
        cases h
        exact allNamed_ofImage_iff.2 (source_of_picture hpicture)
      next =>
        obtain ⟨objects, _, h⟩ := ok_of_bind h
        obtain ⟨head, _, h⟩ := ok_of_bind h
        cases h
        exact allNamed_objects objects
      next =>
        obtain ⟨members, hmembers, h⟩ := ok_of_bind h
        obtain ⟨head, _, h⟩ := ok_of_bind h
        cases h
        exact allNamed_of_layers dir children hmembers
      next => cases h

theorem allNamed_of_layers (dir : String) : (nodes : List Node) → {ls : List Layer} →
    (h : layers dir nodes = .ok ls) → AllNamed (Layer.partsAmong ls)
  | [], _, h => by
      rw [layers] at h
      cases h
      exact allNamed_nil
  | node :: nodes, _, h => by
      rw [layers] at h
      obtain ⟨first, hfirst, h⟩ := ok_of_bind h
      obtain ⟨others, hothers, h⟩ := ok_of_bind h
      cases h
      rw [Layer.partsAmong_append, allNamed_append]
      refine ⟨Layer.allNamed_toList ?_, allNamed_of_layers dir nodes hothers⟩
      rintro l rfl
      exact allNamed_of_layer dir node hfirst

end

theorem allNamed_of_mapPart {before after : Map} (h : mapPart dir before node = .ok after)
    (hbefore : AllNamed before.parts) : AllNamed after.parts := by
  rw [Map.parts, allNamed_append] at hbefore ⊢
  rw [mapPart] at h
  split at h
  next =>
    obtain ⟨entry, hentry, h⟩ := ok_of_bind h
    cases h
    rw [List.flatMap_append, allNamed_append, List.flatMap_singleton]
    exact ⟨⟨hbefore.1, allNamed_of_tilesetEntry hentry⟩, hbefore.2⟩
  next =>
    obtain ⟨read, hread, h⟩ := ok_of_bind h
    cases h
    rw [Layer.partsAmong_append, allNamed_append]
    refine ⟨hbefore.1, hbefore.2, Layer.allNamed_toList ?_⟩
    rintro l rfl
    exact allNamed_of_layer dir node hread

theorem allNamed_of_map {m : Map} (h : map dir node = .ok m) : AllNamed m.parts := by
  obtain ⟨bare, htilesets, hlayers, h⟩ := fold_of_map h
  refine foldlM_keeps (P := fun m => AllNamed m.parts) ?_ h ?_
  · intro before child after hpart hbefore
    exact allNamed_of_mapPart hpart hbefore
  · rw [Map.parts, htilesets, hlayers]
    exact allNamed_nil

end Document

theorem Tileset.allNamed_of_parse {t : Tileset} (h : Tileset.parse document path = .ok t) :
    AllNamed t.parts := by
  obtain ⟨root, _, h⟩ := ok_of_bind h
  obtain ⟨t', ht, h⟩ := ok_of_bind h
  have hparts := Document.allNamed_of_tileset ht
  cases h
  exact hparts

theorem Map.allNamed_of_parse {map : Map} (h : Map.parse document path = .ok map) :
    AllNamed map.parts := by
  obtain ⟨root, _, h⟩ := ok_of_bind h
  exact Document.allNamed_of_map h

end TileKiln
