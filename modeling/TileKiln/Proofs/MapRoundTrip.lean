import TileKiln.Compile
import TileKiln.Proofs.ReadBack
import TileKiln.Proofs.StreamLimits

namespace TileKiln.Baked

open ReadsBack

variable {α : Type} {write : Writer Unit} {read : Reader α} {a : α} {fits shallow : Prop}

/-- Where no level is left, what is written next does not matter. -/
theorem ReadsBack.tooDeep {β : Type} {b : β} {shallow' : Prop}
    (h : ReadsBack write read a fits shallow') (hs : ¬ shallow) :
    ReadsBack write Reader.tooDeep b fits shallow := by
  obtain ⟨result, bytes, hw, hok, _⟩ := h
  refine ⟨result, bytes, hw, hok, ?_⟩
  intro _ rest offset
  exact .inr ⟨hs, offset, rfl⟩

theorem point_readsBack (p : Point) : ReadsBack (Writer.point p) Reader.point p fits shallow :=
  (single p.x).bind (single p.y).map

theorem properties_of_each {ps : List Property} {levels : Nat}
    (h : ReadsBack (Writer.eachProperty ps) (Reader.times (Reader.property levels) ps.length) ps
      (Property.AllFit ps) (Property.listHeight ps ≤ levels)) :
    ReadsBack (Writer.properties ps) (Reader.properties levels) ps (Property.ListFits ps)
      (Property.listHeight ps ≤ levels) :=
  (length fun hf => hf.1).bind (h.mono (fun hf => hf.2) id)

mutual

theorem property_readsBack : (p : Property) → (levels : Nat) →
    ReadsBack (Writer.property p) (Reader.property levels) p p.Fits (p.height ≤ levels)
  | ⟨name, value, children⟩, 0 => by
      have hdeep : ¬ Property.height ⟨name, value, children⟩ ≤ 0 := by
        simp only [Property.height, Nat.not_le]
        omega
      have hchildren := properties_of_each (eachProperty_readsBack children 0)
      rw [Writer.property, Reader.property, Property.Fits]
      apply (text fun hf => hf.1).bind
      apply (text fun hf => hf.2.1).bind
      exact (hchildren.mono (fun hf => hf.2.2) id).tooDeep hdeep
  | ⟨name, value, children⟩, levels + 1 => by
      have hchildren := properties_of_each (eachProperty_readsBack children levels)
      rw [Writer.property, Reader.property, Property.Fits, Property.height]
      apply (text fun hf => hf.1).bind
      apply (text fun hf => hf.2.1).bind
      exact (hchildren.mono (fun hf => hf.2.2) fun hs => by omega).map

theorem eachProperty_readsBack : (ps : List Property) → (levels : Nat) →
    ReadsBack (Writer.eachProperty ps) (Reader.times (Reader.property levels) ps.length) ps
      (Property.AllFit ps) (Property.listHeight ps ≤ levels)
  | [], _ => pure []
  | p :: ps, levels => by
      have hfirst := property_readsBack p levels
      have hothers := eachProperty_readsBack ps levels
      rw [Writer.eachProperty, List.length_cons, Reader.times, Property.AllFit, Property.listHeight]
      apply (hfirst.mono (fun hf => hf.1) fun hs => by omega).bind
      exact (hothers.mono (fun hf => hf.2) fun hs => by omega).map

end

theorem properties_readsBack (ps : List Property) (levels : Nat) :
    ReadsBack (Writer.properties ps) (Reader.properties levels) ps (Property.ListFits ps)
      (Property.listHeight ps ≤ levels) :=
  properties_of_each (eachProperty_readsBack ps levels)

theorem shape_readsBack (s : Shape) :
    ReadsBack (Writer.shape s) (Reader.shape (Writer.shapeTag s)) s s.Fits shallow := by
  cases s with
  | rectangle => exact pure _
  | ellipse => exact pure _
  | polygon points => exact (tableSame id fun p _ => point_readsBack p).map
  | polyline points => exact (tableSame id fun p _ => point_readsBack p).map
  | tile gid => exact (word gid).map

theorem object_readsBack (o : TileKiln.Object) {depth levels : Nat}
    (hlevels : depth + levels = maxNesting) :
    ReadsBack (Writer.object o) (Reader.object levels) o.baked o.Fits (o.Shallow depth) := by
  apply (tagged (Writer.shapeTag o.shape)).bind
  apply (word (o.id.getD 0)).bind
  apply (text fun hf => fitsWord_getD hf.name).bind
  apply (text fun hf => fitsWord_getD hf.type).bind
  apply (single (o.x.getD .zero)).bind
  apply (single (o.y.getD .zero)).bind
  apply (single (o.width.getD .zero)).bind
  apply (single (o.height.getD .zero)).bind
  apply (single (o.rotation.getD .zero)).bind
  apply (tagged (o.visible.getD true)).bind
  have hproperties := properties_readsBack o.properties levels
  apply (hproperties.mono (fun hf => hf.properties) fun hs => by
    rw [TileKiln.Object.Shallow] at hs
    omega).bind
  exact ((shape_readsBack o.shape).mono (fun hf => hf.shape) id).map

theorem frame_readsBack (f : Frame) : ReadsBack (Writer.frame f) Reader.frame f fits shallow :=
  (word f.tile).bind (word f.duration).map

theorem tile_readsBack (t : TileKiln.Tile) :
    ReadsBack (Writer.tile t) (Reader.tile maxNesting) t.baked t.Fits t.Shallow := by
  have hobjects : ∀ o ∈ t.objects, ReadsBack (Writer.object o) (Reader.object maxNesting) o.baked
      t.Fits t.Shallow := fun o ho =>
    (object_readsBack o (Nat.zero_add _)).mono (fun hf => hf.objects o ho)
      fun hs => hs.objects o ho
  apply (word t.id).bind
  apply (text fun hf => hf.type).bind
  apply (length fun hf => hf.frames).bind
  apply (length fun hf => hf.objectCount).bind
  apply (each hobjects).bind
  apply (eachSame fun f _ => frame_readsBack f).bind
  apply ((properties_readsBack t.properties maxNesting).mono (fun hf => hf.properties)
    fun hs => hs.properties).bind
  exact (text fun hf => hf.image.reference).map

theorem tileset_readsBack (t : TileKiln.Tileset) :
    ReadsBack (Writer.tileset t) (Reader.tileset maxNesting) t.baked t.Fits t.Shallow := by
  have htiles : ∀ tile ∈ t.tiles, ReadsBack (Writer.tile tile) (Reader.tile maxNesting) tile.baked
      t.Fits t.Shallow := fun tile ht =>
    (tile_readsBack tile).mono (fun hf => hf.tiles tile ht) fun hs => hs.tiles tile ht
  apply (text fun hf => hf.image.reference).bind
  apply (word t.firstGid).bind
  apply (word t.tileWidth).bind
  apply (word t.tileHeight).bind
  apply (word t.spacing).bind
  apply (word t.margin).bind
  apply (word t.columns).bind
  apply (word t.tileCount).bind
  apply (table (fun hf => hf.tileCount) htiles).bind
  apply ((properties_readsBack t.properties maxNesting).mono (fun hf => hf.properties)
    fun hs => hs.properties).bind
  apply (int t.offset.x).bind
  exact (int t.offset.y).map

theorem placedTile_readsBack (t : PlacedTile) :
    ReadsBack (Writer.placedTile t) Reader.placedTile t fits shallow :=
  (word t.gid).bind ((word t.x).bind (word t.y).map)

/-- A layer is its content between what all layers have. -/
theorem layerAround_readsBack {head : LayerHead} {depth levels : Nat} {tag : LayerTag}
    {content : Writer Unit} {group : Reader (List Layer)} {layer : LayerHead → Layer}
    (hlevels : depth + levels = maxNesting) (hf : fits → head.Fits)
    (hs : shallow → head.Shallow depth)
    (h : ReadsBack content (Reader.layerContent levels group tag) layer fits shallow) :
    ReadsBack (Writer.layerAround head tag content) (Reader.layerAround levels group) (layer head)
      fits shallow := by
  apply (text fun h => (hf h).name).bind
  apply (tagged head.visible).bind
  apply (single head.opacity).bind
  apply (tagged tag).bind
  apply h.bind
  apply (point_readsBack head.offset).bind
  have hproperties := properties_readsBack head.properties levels
  exact (hproperties.mono (fun h => (hf h).properties) fun h => by
    have hdepth := hs h
    rw [LayerHead.Shallow] at hdepth
    omega).map

def Reader.members : (levels : Nat) → Reader (List Layer)
  | 0 => Reader.tooDeep
  | levels + 1 => Reader.table (Reader.layer levels)

theorem Reader.layer_eq (levels : Nat) :
    Reader.layer levels = Reader.layerAround levels (Reader.members levels) := by
  cases levels <;> rfl

theorem layers_of_each {ls : List TileKiln.Layer} {depth levels : Nat}
    (h : ReadsBack (Writer.eachLayer ls) (Reader.times (Reader.layer levels) ls.length)
      (TileKiln.Layer.bakedAll ls) (TileKiln.Layer.AllFit ls)
      (TileKiln.Layer.AllShallow depth ls)) :
    ReadsBack (Writer.layers ls) (Reader.table (Reader.layer levels)) (TileKiln.Layer.bakedAll ls)
      (FitsWord ls.length ∧ TileKiln.Layer.AllFit ls) (TileKiln.Layer.AllShallow depth ls) :=
  (length fun hf => hf.1).bind (h.mono (fun hf => hf.2) id)

mutual

theorem layer_readsBack : (l : TileKiln.Layer) → {depth levels : Nat} →
    (hlevels : depth + levels = maxNesting) →
    ReadsBack (Writer.layer l) (Reader.layer levels) l.baked l.Fits (l.Shallow depth)
  | .tiles head grid, depth, levels, hlevels => by
      rw [Reader.layer_eq, TileKiln.Layer.Fits, TileKiln.Layer.Shallow]
      apply layerAround_readsBack hlevels (fun hf => hf.1) id
      apply (tableSame (fun hf => hf.2) fun t _ => placedTile_readsBack t).bind
      exact (word grid.width).bind (word grid.height).map
  | .image head picture, depth, levels, hlevels => by
      rw [Reader.layer_eq, TileKiln.Layer.Fits, TileKiln.Layer.Shallow]
      apply layerAround_readsBack hlevels (fun hf => hf.1) id
      apply (text fun hf => hf.2.reference).bind
      exact (point_readsBack picture.position).map
  | .objects head items, depth, levels, hlevels => by
      rw [Reader.layer_eq, TileKiln.Layer.Fits, TileKiln.Layer.Shallow]
      apply layerAround_readsBack hlevels (fun hf => hf.1) fun hs => hs.1
      exact (table (fun hf => hf.2.1) fun o ho =>
        (object_readsBack o hlevels).mono (fun hf => hf.2.2 o ho) fun hs => hs.2 o ho).map
  | .group head members, depth, 0, hlevels => by
      have hdeep : ¬ TileKiln.Layer.Shallow depth (.group head members) := by
        rw [TileKiln.Layer.Shallow]
        omega
      -- The members are written all the same, but the reader gives up before their count.
      have hmembers := layers_of_each (eachLayer_readsBack members hlevels)
      rw [Reader.layer_eq]
      apply layerAround_readsBack hlevels (fun hf => hf.1) fun hs => hs.1
      exact ((hmembers.mono (fun hf => hf.2) id).tooDeep hdeep).map
  | .group head members, depth, levels + 1, hlevels => by
      have hlevels' : depth + 1 + levels = maxNesting := by omega
      have hmembers := layers_of_each (eachLayer_readsBack members hlevels')
      rw [Reader.layer_eq, TileKiln.Layer.Fits, TileKiln.Layer.Shallow]
      apply layerAround_readsBack hlevels (fun hf => hf.1) fun hs => hs.1
      exact (hmembers.mono (fun hf => hf.2) fun hs => hs.2.2).map

theorem eachLayer_readsBack : (ls : List TileKiln.Layer) → {depth levels : Nat} →
    (hlevels : depth + levels = maxNesting) →
    ReadsBack (Writer.eachLayer ls) (Reader.times (Reader.layer levels) ls.length)
      (TileKiln.Layer.bakedAll ls) (TileKiln.Layer.AllFit ls) (TileKiln.Layer.AllShallow depth ls)
  | [], _, _, _ => pure []
  | l :: ls, depth, levels, hlevels => by
      have hfirst := layer_readsBack l hlevels
      have hothers := eachLayer_readsBack ls hlevels
      rw [Writer.eachLayer, List.length_cons, Reader.times, TileKiln.Layer.AllFit,
        TileKiln.Layer.AllShallow]
      apply (hfirst.mono (fun hf => hf.1) fun hs => hs.1).bind
      exact (hothers.mono (fun hf => hf.2) fun hs => hs.2).map

end

theorem layers_readsBack (ls : List TileKiln.Layer) :
    ReadsBack (Writer.layers ls) (Reader.table (Reader.layer maxNesting))
      (TileKiln.Layer.bakedAll ls) (FitsWord ls.length ∧ TileKiln.Layer.AllFit ls)
      (TileKiln.Layer.AllShallow 0 ls) :=
  layers_of_each (eachLayer_readsBack ls (Nat.zero_add _))

theorem color_readsBack (c : Color) :
    ReadsBack (Writer.color c) (Reader.take 3) [c.red, c.green, c.blue] fits shallow := by
  have hred := Writer.emits_put [c.red]
  have hgreen := Writer.emits_put [c.green]
  have hblue := Writer.emits_put [c.blue]
  exact of_ok (hred.bind (hgreen.bind hblue)) (Reader.gives_take [c.red, c.green, c.blue])

theorem tilesets_readsBack {map : TileKiln.Map} (h : map.IsLoaded) :
    ReadsBack (Writer.table Writer.tilesetEntry map.tilesets)
      (Reader.table (Reader.tileset maxNesting)) (map.loaded.map TileKiln.Tileset.baked) map.Fits
      map.Shallow := by
  have htilesets : ∀ t ∈ map.loaded, ReadsBack (Writer.tilesetEntry (.inline t))
      (Reader.tileset maxNesting) t.baked map.Fits map.Shallow := fun t ht =>
    (tileset_readsBack t).mono (fun hf => hf.tilesets t ht) fun hs => hs.tilesets t ht
  have hcount : map.tilesets.length = map.loaded.length := by
    rw [h.tilesets_eq, List.length_map]
  rw [h.tilesets_eq, Writer.table_map]
  exact table (fun hf => hcount ▸ hf.tilesetCount) htilesets

theorem map_readsBack {map : TileKiln.Map} (h : map.IsLoaded) :
    ReadsBack map.write (Reader.map maxNesting) map.baked map.Fits map.Shallow := by
  apply (color_readsBack (map.background.getD .black)).bind
  apply (tagged map.order).bind
  apply (word map.width).bind
  apply (word map.height).bind
  apply (word map.tileWidth).bind
  apply (word map.tileHeight).bind
  apply (tagged map.orientation).bind
  apply ((properties_readsBack map.properties maxNesting).mono (fun hf => hf.properties)
    fun hs => hs.properties).bind
  apply (tilesets_readsBack h).bind
  exact ((layers_readsBack map.layers).mono (fun hf => ⟨hf.layerCount, hf.layers⟩)
    fun hs => hs.layers).map

theorem eq_baked_of_read {map : TileKiln.Map} {stream : List UInt8} {m : Map} (h : map.IsLoaded)
    (hwrite : Writer.bytes map.write = .ok stream) (hread : Map.read stream = .ok m) :
    m = map.baked :=
  (map_readsBack h).eq_of_run hwrite hread

theorem Tileset.eq_baked_of_read {tileset : TileKiln.Tileset} {stream : List UInt8} {t : Tileset}
    (hwrite : Writer.bytes tileset.write = .ok stream) (hread : Tileset.read stream = .ok t) :
    t = tileset.baked :=
  (tileset_readsBack tileset).eq_of_run hwrite hread

/-- Maps whose tilesets are all at hand and tilesets, if they stay inside the limits of the format,
are written without an error, and reading the stream gives their baked record. -/
theorem read_written :
    (∀ map : TileKiln.Map, map.IsLoaded → map.Fits → map.Shallow →
      ∃ stream, Writer.bytes map.write = .ok stream ∧ Map.read stream = .ok map.baked) ∧
    ∀ tileset : TileKiln.Tileset, tileset.Fits → tileset.Shallow →
      ∃ stream, Writer.bytes tileset.write = .ok stream ∧
        Tileset.read stream = .ok tileset.baked := by
  constructor
  · intro map hloaded hfits hshallow
    have hmap := map_readsBack hloaded
    obtain ⟨stream, hstream⟩ := hmap.bytes_of_fits hfits
    refine ⟨stream, hstream, ?_⟩
    rcases hmap.run hstream with hread | ⟨hdeep, _⟩
    · exact hread
    · exact absurd hshallow hdeep
  · intro tileset hfits hshallow
    have htileset := tileset_readsBack tileset
    obtain ⟨stream, hstream⟩ := htileset.bytes_of_fits hfits
    refine ⟨stream, hstream, ?_⟩
    rcases htileset.run hstream with hread | ⟨hdeep, _⟩
    · exact hread
    · exact absurd hshallow hdeep

def sampleTileset : TileKiln.Tileset where
  firstGid := 1
  tileWidth := 16
  tileHeight := 16
  columns := 8
  tileCount := 64
  image := some ⟨"images/dungeon.v2.png", none, none⟩
  tiles := [{ id := 3, type := "Torch", objects := [{ ellipse := some (), x := some .nan }],
              animation := [⟨3, 100⟩, ⟨4, 150⟩], properties := [⟨"light", "4", []⟩] }]
  offset := ⟨-2, 4⟩
  properties := [⟨"biome", "cave", [⟨"depth", "2", []⟩]⟩]

def sampleMap : TileKiln.Map where
  order := .leftUp
  width := 2
  height := 1
  tilesets := [.inline sampleTileset]
  layers :=
    [.tiles { name := "Ground" } { width := 2, height := 1, placed := [⟨2147483651, 1, 0⟩] },
     .group { name := "outer" } [.group { name := "inner" }
       [.objects { name := "Things" }
         [{ gid := some 4, polygon := some [.origin], properties := [⟨"hp", "10", []⟩] }]]]]

theorem sampleTileset_fits : sampleTileset.Fits where
  image := by change FitsWord _; decide
  tileCount := by decide
  properties := by
    simp only [sampleTileset, Property.ListFits, Property.AllFit, Property.Fits]
    decide
  tiles tile htile := by
    obtain rfl := List.mem_singleton.1 htile
    refine ⟨by decide, by decide, by decide, ?_, ?_, trivial⟩
    · intro o ho
      obtain rfl := List.mem_singleton.1 ho
      exact ⟨by decide, by decide, by decide, by decide, by decide, trivial⟩
    · simp only [Property.ListFits, Property.AllFit, Property.Fits]
      decide

theorem sampleTileset_shallow : sampleTileset.Shallow where
  properties := by decide
  tiles tile htile := by
    obtain rfl := List.mem_singleton.1 htile
    refine ⟨?_, by decide⟩
    intro o ho
    obtain rfl := List.mem_singleton.1 ho
    change 0 + Property.listHeight [] ≤ maxNesting
    decide

theorem sampleMap_fits : sampleMap.Fits where
  properties := ⟨by decide, trivial⟩
  tilesetCount := by decide
  tilesets tileset ht := by
    obtain rfl := List.mem_singleton.1 ht
    exact sampleTileset_fits
  layerCount := by decide
  layers := by
    have hbare : ∀ name, FitsWord name.utf8ByteSize → LayerHead.Fits { name } := by
      intro name hname
      have hnone : FitsWord 0 := by decide
      exact ⟨hname, hnone, trivial⟩
    refine ⟨⟨hbare _ (by decide), by decide⟩, ⟨hbare _ (by decide), by decide,
      ⟨hbare _ (by decide), by decide, ⟨hbare _ (by decide), by decide, ?_⟩, trivial⟩, trivial⟩,
      trivial⟩
    intro o ho
    obtain rfl := List.mem_singleton.1 ho
    refine ⟨by decide, by decide, by decide, by decide, ?_⟩
    simp only [Property.ListFits, Property.AllFit, Property.Fits]
    decide

theorem sampleMap_shallow : sampleMap.Shallow where
  properties := by decide
  tilesets tileset ht := by
    obtain rfl := List.mem_singleton.1 ht
    exact sampleTileset_shallow
  layers := by
    simp only [sampleMap, TileKiln.Layer.AllShallow, TileKiln.Layer.Shallow, LayerHead.Shallow,
      TileKiln.Object.Shallow]
    decide

theorem read_written_sample :
    (sampleMap.IsLoaded ∧ sampleMap.Fits ∧ sampleMap.Shallow ∧
      ∃ stream, Writer.bytes sampleMap.write = .ok stream ∧
        Map.read stream = .ok sampleMap.baked) ∧
    sampleTileset.Fits ∧ sampleTileset.Shallow ∧
      ∃ stream, Writer.bytes sampleTileset.write = .ok stream ∧
        Tileset.read stream = .ok sampleTileset.baked := by
  have hloaded : sampleMap.IsLoaded := by
    intro entry he
    exact ⟨sampleTileset, List.mem_singleton.1 he⟩
  exact ⟨⟨hloaded, sampleMap_fits, sampleMap_shallow,
      read_written.1 sampleMap hloaded sampleMap_fits sampleMap_shallow⟩,
    sampleTileset_fits, sampleTileset_shallow,
    read_written.2 sampleTileset sampleTileset_fits sampleTileset_shallow⟩

end TileKiln.Baked
