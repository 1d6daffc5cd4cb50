import TileKiln.Proofs.Canonical
import TileKiln.Proofs.FileNames
import TileKiln.Proofs.LimitedSink
import TileKiln.Proofs.MapObjects

namespace TileKiln

namespace Path

/-- A path whose image reference is `reference`. A reference that names no file has no extension to
lose. -/
def imageSource (reference : String) : String :=
  if (reference.toList.reverse.takeWhile (· != '/')).isEmpty then reference else reference ++ "."

theorem imageReference_imageSource (reference : String) :
    imageReference (imageSource reference) = reference := by
  obtain ⟨dir, name, hsplits⟩ := exists_splits reference
  rw [imageSource, hsplits.backward.1]
  split
  next hempty =>
    obtain rfl : name = "" := by simpa using hempty
    rw [imageReference_of_splits hsplits (.plain (by decide)), hsplits.append_eq]
  next hempty =>
    have hne : name ≠ "" := by
      rintro rfl
      exact hempty rfl
    have hdotted : Splits (reference ++ ".") dir (name ++ "." ++ "") := by
      refine ⟨?_, hsplits.closed, by simp [hsplits.no_slash]⟩
      rw [String.append_empty, ← String.append_assoc, hsplits.append_eq]
    rw [imageReference_of_splits hdotted (.extended hne (by decide)), hsplits.append_eq]

end Path

def Image.ofReference (reference : String) : Option Image :=
  if reference = "" then none else some ⟨Path.imageSource reference, none, none⟩

theorem Image.reference_ofReference (reference : String) :
    Image.reference (Image.ofReference reference) = reference := by
  rw [Image.ofReference]
  split
  next h => exact h.symm
  next => exact Path.imageReference_imageSource reference

namespace Object

def withShape (object : Object) : Shape → Object
  | .rectangle => object
  | .ellipse => { object with ellipse := some () }
  | .polygon points => { object with polygon := some points }
  | .polyline points => { object with polyline := some points }
  | .tile gid => { object with gid := some gid }

theorem outline_ne_tile (object : Object) (gid : UInt32) : object.outline ≠ .tile gid := by
  unfold outline
  split <;> exact Shape.noConfusion

theorem shape_ne_tile_zero (object : Object) : object.shape ≠ .tile 0 := by
  unfold shape
  split
  next gid hgid =>
    split
    next => exact object.outline_ne_tile 0
    next hne => exact fun heq => hne (Shape.tile.inj heq)
  next => exact object.outline_ne_tile 0

end Object

namespace Baked

theorem map_map_of_cancel {α β : Type} {f : α → β} {g : β → α} {as : List α}
    (h : ∀ a ∈ as, g (f a) = a) : (as.map f).map g = as := by
  rw [List.map_map]
  exact (List.map_congr_left h).trans (List.map_id as)

namespace Object

def authored (o : Object) : TileKiln.Object :=
  TileKiln.Object.withShape
    { id := some o.id, name := some o.name, type := some o.type, x := some o.x, y := some o.y,
      width := some o.width, height := some o.height, rotation := some o.rotation,
      visible := some o.visible, properties := o.properties } o.shape

theorem baked_authored {o : Object} (h : o.shape ≠ .tile 0) : o.authored.baked = o := by
  obtain ⟨id, name, type, x, y, width, height, rotation, visible, shape, properties⟩ := o
  cases shape with
  | rectangle | ellipse | polygon points | polyline points => rfl
  | tile gid =>
      have hgid : gid ≠ 0 := fun heq => h (congrArg Shape.tile heq)
      simp [authored, TileKiln.Object.withShape, TileKiln.Object.baked, TileKiln.Object.shape, hgid]

theorem bakedEach_authored {os : List Object} (h : ∀ o ∈ os, o.shape ≠ .tile 0) :
    (os.map authored).map TileKiln.Object.baked = os :=
  map_map_of_cancel fun o ho => baked_authored (h o ho)

end Object

namespace Tile

def authored (t : Tile) : TileKiln.Tile where
  id := t.id
  type := t.type
  image := Image.ofReference t.image
  objects := t.objects.map Object.authored
  animation := t.animation
  properties := t.properties

theorem baked_authored {t : Tile} (h : ∀ o ∈ t.objects, o.shape ≠ .tile 0) :
    t.authored.baked = t := by
  rw [authored, TileKiln.Tile.baked, Object.bakedEach_authored h, Image.reference_ofReference]

end Tile

namespace Tileset

def authored (t : Tileset) : TileKiln.Tileset where
  firstGid := t.firstGid
  tileWidth := t.tileWidth
  tileHeight := t.tileHeight
  spacing := t.spacing
  margin := t.margin
  columns := t.columns
  tileCount := t.tileCount
  image := Image.ofReference t.image
  tiles := t.tiles.map Tile.authored
  offset := t.offset
  properties := t.properties

theorem baked_authored {t : Tileset} (h : ∀ o ∈ t.tiles.flatMap Tile.objects, o.shape ≠ .tile 0) :
    t.authored.baked = t := by
  have htiles : (t.tiles.map Tile.authored).map TileKiln.Tile.baked = t.tiles :=
    map_map_of_cancel fun tile htile =>
      Tile.baked_authored fun o ho => h o (List.mem_flatMap.2 ⟨tile, htile, ho⟩)
  rw [authored, TileKiln.Tileset.baked, htiles, Image.reference_ofReference]

end Tileset

namespace Layer

mutual

def authored : Layer → TileKiln.Layer
  | .tiles head placed width height => .tiles head { width, height, placed }
  | .image head reference position =>
    .image head { image := Image.ofReference reference, position }
  | .objects head items => .objects head (items.map Object.authored)
  | .group head members => .group head (authoredAll members)

def authoredAll : List Layer → List TileKiln.Layer
  | [] => []
  | l :: ls => l.authored :: authoredAll ls

end

mutual

theorem baked_authored : (l : Layer) → (∀ o ∈ l.allObjects, o.shape ≠ .tile 0) →
    l.authored.baked = l
  | .tiles head placed width height, _ => rfl
  | .image head reference position, _ => by
      rw [authored, TileKiln.Layer.baked, Image.reference_ofReference]
  | .objects head items, h => by
      have hitems : (items.map Object.authored).map TileKiln.Object.baked = items :=
        Object.bakedEach_authored h
      rw [authored, TileKiln.Layer.baked, hitems]
  | .group head members, h => by
      rw [authored, TileKiln.Layer.baked, bakedAll_authoredAll members h]

theorem bakedAll_authoredAll : (ls : List Layer) → (∀ o ∈ objectsAmong ls, o.shape ≠ .tile 0) →
    TileKiln.Layer.bakedAll (authoredAll ls) = ls
  | [], _ => rfl
  | l :: ls, h => by
      have hfirst := baked_authored l fun o ho => h o (List.mem_append_left _ ho)
      have hothers := bakedAll_authoredAll ls fun o ho => h o (List.mem_append_right _ ho)
      rw [authoredAll, TileKiln.Layer.bakedAll, hfirst, hothers]

end

end Layer

namespace Map

def authored (m : Map) : TileKiln.Map where
  orientation := m.orientation
  order := m.order
  width := m.width
  height := m.height
  tileWidth := m.tileWidth
  tileHeight := m.tileHeight
  background := some m.background
  tilesets := m.tilesets.map fun t => .inline t.authored
  layers := Layer.authoredAll m.layers
  properties := m.properties

theorem isLoaded_authored (m : Map) : m.authored.IsLoaded := by
  intro entry hentry
  obtain ⟨t, _, rfl⟩ := List.mem_map.1 hentry
  exact ⟨t.authored, rfl⟩

theorem baked_authored {m : Map} (h : ∀ o ∈ m.objects, o.shape ≠ .tile 0) :
    m.authored.baked = m := by
  have htilesets : m.authored.loaded.map TileKiln.Tileset.baked = m.tilesets := by
    rw [TileKiln.Map.loaded, authored, List.filterMap_map]
    change (m.tilesets.filterMap (some ∘ Tileset.authored)).map TileKiln.Tileset.baked = m.tilesets
    rw [List.filterMap_eq_map]
    refine map_map_of_cancel fun t ht => ?_
    refine Tileset.baked_authored fun o ho => h o (List.mem_append_left _ ?_)
    exact List.mem_flatMap.2 ⟨t, ht, ho⟩
  have hlayers := Layer.bakedAll_authoredAll m.layers fun o ho => h o (List.mem_append_right _ ho)
  rw [TileKiln.Map.baked, htilesets, authored, hlayers]
  rfl

end Map

variable {stream : List UInt8}

theorem LaysOut.bytes_eq {write : Writer Unit} {layout : List UInt8} {fits : Prop}
    (h : LaysOut write (.ok ()) layout fits) (hfits : fits) : Writer.bytes write = .ok layout :=
  h.elim Writer.Emits.bytes_eq fun hlong => absurd hfits hlong.1

/-- Objects of a map that was written have shapes that authored objects can have. -/
theorem shape_ne_of_written {map : TileKiln.Map} {m : Map} (hloaded : map.IsLoaded)
    (hwrite : Writer.bytes map.write = .ok stream) (hread : Map.read stream = .ok m) :
    ∀ o ∈ m.objects, o.shape ≠ .tile 0 := by
  rw [eq_baked_of_read hloaded hwrite hread, Map.objects_baked hloaded, List.forall_mem_map]
  exact fun o _ => o.shape_ne_tile_zero

theorem Tileset.shape_ne_of_written {tileset : TileKiln.Tileset} {t : Tileset}
    (hwrite : Writer.bytes tileset.write = .ok stream) (hread : Tileset.read stream = .ok t) :
    ∀ o ∈ t.tiles.flatMap Tile.objects, o.shape ≠ .tile 0 := by
  rw [Tileset.eq_baked_of_read hwrite hread, Tileset.objects_baked, List.forall_mem_map]
  exact fun o _ => o.shape_ne_tile_zero

theorem write_authored {m : Map} (hread : Map.read stream = .ok m)
    (h : ∀ o ∈ m.objects, o.shape ≠ .tile 0) : Writer.bytes m.authored.write = .ok stream := by
  obtain ⟨hlayout, _, hfits⟩ := layout_of_read hread
  have hwrite := map_laysOut m.isLoaded_authored
  rw [Map.baked_authored h, ← hlayout] at hwrite
  exact hwrite.bytes_eq hfits

theorem Tileset.write_authored {t : Tileset} (hread : Tileset.read stream = .ok t)
    (h : ∀ o ∈ t.tiles.flatMap Tile.objects, o.shape ≠ .tile 0) :
    Writer.bytes t.authored.write = .ok stream := by
  obtain ⟨hlayout, _, hfits⟩ := layout_of_readTileset hread
  have hwrite := tileset_laysOut t.authored
  rw [Tileset.baked_authored h, ← hlayout] at hwrite
  exact hwrite.bytes_eq hfits

/-- A stream that is read is written from a map whose tilesets are all at hand, or from a tileset,
exactly if no object in it is a tile of id 0. -/
theorem written_iff_of_read :
    (∀ (stream : List UInt8) (m : Map), Map.read stream = .ok m →
      ((∃ map : TileKiln.Map, map.IsLoaded ∧ Writer.bytes map.write = .ok stream) ↔
        ∀ o ∈ m.objects, o.shape ≠ .tile 0)) ∧
    ∀ (stream : List UInt8) (t : Tileset), Tileset.read stream = .ok t →
      ((∃ tileset : TileKiln.Tileset, Writer.bytes tileset.write = .ok stream) ↔
        ∀ o ∈ t.tiles.flatMap Tile.objects, o.shape ≠ .tile 0) := by
  constructor
  · intro stream m hread
    constructor
    · rintro ⟨map, hloaded, hwrite⟩
      exact shape_ne_of_written hloaded hwrite hread
    · exact fun h => ⟨m.authored, m.isLoaded_authored, write_authored hread h⟩
  · intro stream t hread
    constructor
    · rintro ⟨tileset, hwrite⟩
      exact Tileset.shape_ne_of_written hwrite hread
    · exact fun h => ⟨t.authored, Tileset.write_authored hread h⟩

theorem written_iff_of_read_sample :
    (∃ stream, Map.read stream = .ok sampleMap.baked ∧
      ∃ map : TileKiln.Map, map.IsLoaded ∧ Writer.bytes map.write = .ok stream) ∧
    ∃ stream, Tileset.read stream = .ok sampleTileset.baked ∧
      ∃ tileset : TileKiln.Tileset, Writer.bytes tileset.write = .ok stream := by
  obtain ⟨stream, hread⟩ := sampleMap_reads
  obtain ⟨stream', hread'⟩ := sampleTileset_reads
  have hmap : ∀ o ∈ sampleMap.baked.objects, o.shape ≠ .tile 0 := by decide
  have htileset : ∀ o ∈ sampleTileset.baked.tiles.flatMap Tile.objects, o.shape ≠ .tile 0 := by
    decide
  exact ⟨⟨stream, hread, (written_iff_of_read.1 stream _ hread).2 hmap⟩,
    stream', hread', (written_iff_of_read.2 stream' _ hread').2 htileset⟩

def tileZeroMap : Map :=
  { (default : Map) with layers := [.objects {} [{ (default : Object) with shape := .tile 0 }]] }

/-- The layout of that map is read, and no map is written as it. -/
theorem tile_zero_not_written :
    ∃ m, Map.read (Layout.map tileZeroMap) = .ok m ∧ m.objects.map Object.shape = [.tile 0] ∧
      ∀ map : TileKiln.Map, map.IsLoaded → Writer.bytes map.write ≠ .ok (Layout.map tileZeroMap) := by
  have hread : (Map.read (Layout.map tileZeroMap)).toOption.map (·.objects.map Object.shape) =
      some [.tile 0] := by decide +kernel
  obtain ⟨m, hm, hshapes⟩ := Option.map_eq_some_iff.1 hread
  refine ⟨m, ok_of_toOption hm, hshapes, fun map hloaded hwrite => ?_⟩
  have hzero : Shape.tile 0 ∈ m.objects.map Object.shape := by
    rw [hshapes]
    exact List.mem_singleton_self _
  obtain ⟨o, ho, hshape⟩ := List.mem_map.1 hzero
  exact shape_ne_of_written hloaded hwrite (ok_of_toOption hm) o ho hshape

end Baked

end TileKiln
