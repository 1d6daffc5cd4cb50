import TileKiln.Proofs.Emission
import TileKiln.Proofs.Layout
import TileKiln.Proofs.RecordLimits

namespace TileKiln

namespace Writer

variable {write : Writer Unit} {result : Except WriteError Unit} {bytes : List UInt8}

def into (write : Writer Unit) (capacity : Option Nat) : Except WriteError Unit × List UInt8 :=
  let (result, sink) := write { capacity }
  (result, sink.written)

theorem Emits.into_unlimited (h : write.Emits result bytes) : write.into none = (result, bytes) := by
  have hroom : Sink.Holds {} bytes := Sink.holds_of_unlimited rfl bytes
  have hwritten := Sink.written_push_of_holds hroom
  rw [into, h, if_pos hroom]
  exact congrArg (Prod.mk result) hwritten

theorem Emits.into_of_le (h : write.Emits result bytes) {limit : Nat} (hle : bytes.length ≤ limit) :
    write.into (some limit) = (result, bytes) := by
  have hroom : Sink.Holds { capacity := some limit } bytes := (Sink.holds_iff rfl bytes).2 hle
  have hwritten := Sink.written_push_of_holds hroom
  rw [into, h, if_pos hroom]
  exact congrArg (Prod.mk result) hwritten

theorem Emits.into_of_lt (h : write.Emits result bytes) {limit : Nat} (hlt : limit < bytes.length) :
    write.into (some limit) = (.error .sinkFull, bytes.take limit) := by
  have hfull : ¬ Sink.Holds { capacity := some limit } bytes := by
    rw [Sink.holds_iff rfl]
    exact Nat.not_le.2 hlt
  have hroom : Sink.room { capacity := some limit } bytes.length = limit := Nat.min_eq_right (Nat.le_of_lt hlt)
  rw [into, h, if_neg hfull, Sink.push, hroom]
  simp [Sink.written]

/-- In a sink that accepts no more than `limit` bytes everything goes as in one that never fails, if
that is enough room, and else the sink keeps the front of what is handed over and fails the writer. -/
structure Truncates (write : Writer Unit) : Prop where
  whole : ∀ limit, (write.into none).2.length ≤ limit → write.into (some limit) = write.into none
  cut : ∀ limit < (write.into none).2.length,
    write.into (some limit) = (.error .sinkFull, (write.into none).2.take limit)

theorem Emits.truncates (h : write.Emits result bytes) : write.Truncates := by
  constructor
  · intro limit hle
    rw [h.into_unlimited] at hle ⊢
    exact h.into_of_le hle
  · intro limit hlt
    rw [h.into_unlimited] at hlt ⊢
    exact h.into_of_lt hlt

end Writer

namespace Baked

open TileKiln.Writer (Emits)

variable {α : Type} {write next : Writer Unit} {result : Except WriteError Unit}
  {layout front back : List UInt8} {fits fits' : Prop}

/-- A writer hands over `layout` and then ends with `result`, unless it stops before that at a length
that is no word. In a record that fits there is no such length. -/
def LaysOut (write : Writer Unit) (result : Except WriteError Unit) (layout : List UInt8)
    (fits : Prop) : Prop :=
  Emits write result layout ∨
    ¬ fits ∧ ∃ length front, front <+: layout ∧ Emits write (.error (.lengthOverflow length)) front

namespace LaysOut

theorem emits (h : LaysOut write result layout fits) : ∃ result bytes, Emits write result bytes := by
  rcases h with h | ⟨_, length, front, _, h⟩
  · exact ⟨result, layout, h⟩
  · exact ⟨_, front, h⟩

theorem mono (h : LaysOut write result layout fits) (hfits : fits' → fits) :
    LaysOut write result layout fits' :=
  h.imp_right fun ⟨hlong, hstops⟩ => ⟨fun h => hlong (hfits h), hstops⟩

theorem put (bytes : List UInt8) : LaysOut (Writer.put bytes) (.ok ()) bytes fits :=
  .inl (Writer.emits_put bytes)

theorem pure : LaysOut (Pure.pure ()) (.ok ()) [] fits := .inl Writer.emits_pure

theorem bind (h : LaysOut write (.ok ()) front fits) (hnext : LaysOut next result back fits) :
    LaysOut (write >>= fun _ => next) result (front ++ back) fits := by
  rcases h with h | ⟨hlong, length, stopped, hprefix, h⟩
  · rcases hnext with hnext | ⟨hlong, length, stopped, hprefix, hnext⟩
    · exact .inl (h.bind hnext)
    · exact .inr ⟨hlong, length, front ++ stopped, List.prefix_append_right_inj front |>.2 hprefix,
        h.bind hnext⟩
  · exact .inr ⟨hlong, length, stopped, hprefix.trans (List.prefix_append front back),
      h.bind_error next⟩

theorem bind_error {e : WriteError} (h : LaysOut write (.error e) layout fits)
    (next : Writer Unit) : LaysOut (write >>= fun _ => next) (.error e) layout fits := by
  rcases h with h | ⟨hlong, length, stopped, hprefix, h⟩
  · exact .inl (h.bind_error next)
  · exact .inr ⟨hlong, length, stopped, hprefix, h.bind_error next⟩

theorem word (w : UInt32) : LaysOut (Writer.word w) (.ok ()) (Word.bytes32 w) fits := put _

theorem int (i : Int32) : LaysOut (Writer.int i) (.ok ()) (Layout.int i) fits := put _

theorem single (x : Single) : LaysOut (Writer.single x) (.ok ()) (Layout.single x) fits := put _

theorem tagged [DecidableEq α] [Tagged α] (a : α) :
    LaysOut (Writer.tagged a) (.ok ()) (Layout.tag a) fits := put _

theorem length {n : Nat} (h : fits → FitsWord n) :
    LaysOut (Writer.length n) (.ok ()) (Layout.count n) fits := by
  by_cases hn : n < UInt32.size
  · rw [Writer.length, if_pos hn]
    exact word (UInt32.ofNat n)
  · rw [Writer.length, if_neg hn]
    exact .inr ⟨fun hfits => hn (h hfits), n, [], List.nil_prefix, Writer.emits_throw _⟩

theorem text {s : String} (h : fits → FitsWord s.utf8ByteSize) :
    LaysOut (Writer.text s) (.ok ()) (Layout.text s) fits :=
  (length h).bind (put _)

theorem each {writeOne : α → Writer Unit} {layoutOne : α → List UInt8} {as : List α}
    (h : ∀ a ∈ as, LaysOut (writeOne a) (.ok ()) (layoutOne a) fits) :
    LaysOut (Writer.each writeOne as) (.ok ()) (as.flatMap layoutOne) fits := by
  induction as with
  | nil => exact pure
  | cons a as ih =>
      rw [List.flatMap_cons]
      exact (h a List.mem_cons_self).bind (ih fun b hb => h b (List.mem_cons_of_mem a hb))

theorem table {writeOne : α → Writer Unit} {layoutOne : α → List UInt8} {as : List α}
    (hcount : fits → FitsWord as.length)
    (h : ∀ a ∈ as, LaysOut (writeOne a) (.ok ()) (layoutOne a) fits) :
    LaysOut (Writer.table writeOne as) (.ok ()) (Layout.table layoutOne as) fits :=
  (length hcount).bind (each h)

end LaysOut

open LaysOut

theorem point_laysOut (p : Point) : LaysOut (Writer.point p) (.ok ()) (Layout.point p) fits :=
  (single p.x).bind (single p.y)

mutual

theorem property_laysOut : (p : Property) →
    LaysOut (Writer.property p) (.ok ()) (Layout.property p) p.Fits
  | ⟨name, value, children⟩ => by
      have hchildren := eachProperty_laysOut children
      rw [Writer.property, Layout.property, Property.Fits, List.append_assoc, List.append_assoc]
      apply (text fun hf => hf.1).bind
      apply (text fun hf => hf.2.1).bind
      apply (length fun hf => hf.2.2.1).bind
      exact hchildren.mono fun hf => hf.2.2.2

theorem eachProperty_laysOut : (ps : List Property) →
    LaysOut (Writer.eachProperty ps) (.ok ()) (Layout.eachProperty ps) (Property.AllFit ps)
  | [] => pure
  | p :: ps => by
      have hfirst := property_laysOut p
      have hothers := eachProperty_laysOut ps
      rw [Writer.eachProperty, Layout.eachProperty, Property.AllFit]
      exact (hfirst.mono fun hf => hf.1).bind (hothers.mono fun hf => hf.2)

end

theorem properties_laysOut (ps : List Property) :
    LaysOut (Writer.properties ps) (.ok ()) (Layout.properties ps) (Property.ListFits ps) := by
  rw [Layout.properties, Layout.table, ← Layout.eachProperty_eq]
  apply (length fun hf => hf.1).bind
  exact (eachProperty_laysOut ps).mono fun hf => hf.2

theorem shape_laysOut (s : Shape) : LaysOut (Writer.shape s) (.ok ()) (Layout.shape s) s.Fits := by
  cases s with
  | rectangle | ellipse => exact pure
  | polygon points | polyline points => exact table id fun p _ => point_laysOut p
  | tile gid => exact word gid

theorem object_laysOut (o : TileKiln.Object) :
    LaysOut (Writer.object o) (.ok ()) (Layout.object o.baked) o.baked.Fits := by
  simp only [Layout.object, List.append_assoc]
  apply (tagged (Writer.shapeTag o.shape)).bind
  apply (word (o.id.getD 0)).bind
  apply (text fun hf => hf.name).bind
  apply (text fun hf => hf.type).bind
  apply (single (o.x.getD .zero)).bind
  apply (single (o.y.getD .zero)).bind
  apply (single (o.width.getD .zero)).bind
  apply (single (o.height.getD .zero)).bind
  apply (single (o.rotation.getD .zero)).bind
  apply (tagged (o.visible.getD true)).bind
  apply ((properties_laysOut o.properties).mono fun hf => hf.properties).bind
  exact (shape_laysOut o.shape).mono fun hf => hf.shape

theorem objects_laysOut {items : List TileKiln.Object}
    (h : fits → ∀ o ∈ items.map TileKiln.Object.baked, o.Fits) :
    LaysOut (Writer.each Writer.object items) (.ok ())
      ((items.map TileKiln.Object.baked).flatMap Layout.object) fits := by
  rw [List.flatMap_map]
  exact each fun o ho => (object_laysOut o).mono fun hf => h hf _ (List.mem_map_of_mem ho)

theorem frame_laysOut (f : Frame) : LaysOut (Writer.frame f) (.ok ()) (Layout.frame f) fits :=
  (word f.tile).bind (word f.duration)

theorem tile_laysOut (t : TileKiln.Tile) :
    LaysOut (Writer.tile t) (.ok ()) (Layout.tile t.baked) t.baked.Fits := by
  simp only [Layout.tile, List.append_assoc]
  apply (word t.id).bind
  apply (text fun hf => hf.type).bind
  apply (length fun hf => hf.frames).bind
  apply LaysOut.bind
  · have hcount : t.baked.objects.length = t.objects.length := List.length_map ..
    rw [hcount]
    exact length fun hf => hcount ▸ hf.objectCount
  apply (objects_laysOut fun hf => hf.objects).bind
  apply (each fun f _ => frame_laysOut f).bind
  apply ((properties_laysOut t.properties).mono fun hf => hf.properties).bind
  exact text fun hf => hf.image

theorem tileset_laysOut (t : TileKiln.Tileset) :
    LaysOut (Writer.tileset t) (.ok ()) (Layout.tileset t.baked) t.baked.Fits := by
  have htiles : LaysOut (Writer.table Writer.tile t.tiles) (.ok ())
      (Layout.table Layout.tile t.baked.tiles) t.baked.Fits := by
    have hcount : t.baked.tiles.length = t.tiles.length := List.length_map ..
    rw [Layout.table, hcount, TileKiln.Tileset.baked, List.flatMap_map]
    apply table fun hf => hcount ▸ hf.tileCount
    exact fun tile htile => (tile_laysOut tile).mono fun hf =>
      hf.tiles tile.baked (List.mem_map_of_mem htile)
  simp only [Layout.tileset, List.append_assoc]
  apply (text fun hf => hf.image).bind
  apply (word t.firstGid).bind
  apply (word t.tileWidth).bind
  apply (word t.tileHeight).bind
  apply (word t.spacing).bind
  apply (word t.margin).bind
  apply (word t.columns).bind
  apply (word t.tileCount).bind
  apply htiles.bind
  apply ((properties_laysOut t.properties).mono fun hf => hf.properties).bind
  exact (int t.offset.x).bind (int t.offset.y)

theorem placedTile_laysOut (t : PlacedTile) :
    LaysOut (Writer.placedTile t) (.ok ()) (Layout.placedTile t) fits := by
  rw [Layout.placedTile, List.append_assoc]
  exact (word t.gid).bind ((word t.x).bind (word t.y))

theorem layerAround_laysOut {head : LayerHead} {kind : LayerTag} {content : Writer Unit}
    (hhead : fits → head.Fits) (h : LaysOut content (.ok ()) layout fits) :
    LaysOut (Writer.layerAround head kind content) (.ok ()) (Layout.layerAround head kind layout)
      fits := by
  simp only [Layout.layerAround, List.append_assoc]
  apply (text fun hf => (hhead hf).name).bind
  apply (tagged head.visible).bind
  apply (single head.opacity).bind
  apply (tagged kind).bind
  apply h.bind
  apply (point_laysOut head.offset).bind
  exact (properties_laysOut head.properties).mono fun hf => (hhead hf).properties

theorem bakedAll_length (ls : List TileKiln.Layer) :
    (TileKiln.Layer.bakedAll ls).length = ls.length := by
  induction ls with
  | nil => rfl
  | cons l ls ih => rw [TileKiln.Layer.bakedAll, List.length_cons, List.length_cons, ih]

mutual

theorem layer_laysOut : (l : TileKiln.Layer) →
    LaysOut (Writer.layer l) (.ok ()) (Layout.layer l.baked) l.baked.Fits
  | .tiles head grid => by
      rw [Writer.layer, TileKiln.Layer.baked, Layout.layer, Layer.Fits]
      apply layerAround_laysOut fun hf => hf.1
      rw [List.append_assoc]
      apply (table (fun hf => hf.2) fun t _ => placedTile_laysOut t).bind
      exact (word grid.width).bind (word grid.height)
  | .image head picture => by
      rw [Writer.layer, TileKiln.Layer.baked, Layout.layer, Layer.Fits]
      apply layerAround_laysOut fun hf => hf.1
      exact (text fun hf => hf.2).bind (point_laysOut picture.position)
  | .objects head items => by
      rw [Writer.layer, TileKiln.Layer.baked, Layout.layer, Layer.Fits, Layout.table,
        List.length_map]
      apply layerAround_laysOut fun hf => hf.1
      exact (length fun hf => hf.2.1).bind (objects_laysOut fun hf => hf.2.2)
  | .group head members => by
      have hmembers := eachLayer_laysOut members
      rw [Writer.layer, TileKiln.Layer.baked, Layout.layer, Layer.Fits, bakedAll_length]
      apply layerAround_laysOut fun hf => hf.1
      exact (length fun hf => hf.2.1).bind (hmembers.mono fun hf => hf.2.2)

theorem eachLayer_laysOut : (ls : List TileKiln.Layer) →
    LaysOut (Writer.eachLayer ls) (.ok ()) (Layout.eachLayer (TileKiln.Layer.bakedAll ls))
      (Layer.AllFit (TileKiln.Layer.bakedAll ls))
  | [] => pure
  | l :: ls => by
      have hfirst := layer_laysOut l
      have hothers := eachLayer_laysOut ls
      rw [Writer.eachLayer, TileKiln.Layer.bakedAll, Layout.eachLayer, Layer.AllFit]
      exact (hfirst.mono fun hf => hf.1).bind (hothers.mono fun hf => hf.2)

end

theorem layers_laysOut (ls : List TileKiln.Layer) :
    LaysOut (Writer.layers ls) (.ok ()) (Layout.table Layout.layer (TileKiln.Layer.bakedAll ls))
      (FitsWord ls.length ∧ Layer.AllFit (TileKiln.Layer.bakedAll ls)) := by
  rw [Layout.table, bakedAll_length, ← Layout.eachLayer_eq]
  apply (length fun hf => hf.1).bind
  exact (eachLayer_laysOut ls).mono fun hf => hf.2

def Layout.header (m : Map) : List UInt8 :=
  color m.background ++ tag m.order ++ Word.bytes32 m.width ++ Word.bytes32 m.height ++
    Word.bytes32 m.tileWidth ++ Word.bytes32 m.tileHeight ++ tag m.orientation ++
    properties m.properties

/-- A map is its header and then its tilesets and layers, as far as these get. -/
theorem header_laysOut {map : TileKiln.Map} (hproperties : fits → Property.ListFits map.properties)
    (h : LaysOut (do Writer.table Writer.tilesetEntry map.tilesets; Writer.layers map.layers) result
      layout fits) :
    LaysOut map.write result (Layout.header map.baked ++ layout) fits := by
  have hcolor (c : Color) : LaysOut (Writer.color c) (.ok ()) (Layout.color c) fits :=
    (put [c.red]).bind ((put [c.green]).bind (put [c.blue]))
  simp only [Layout.header, List.append_assoc]
  apply (hcolor (map.background.getD .black)).bind
  apply (tagged map.order).bind
  apply (word map.width).bind
  apply (word map.height).bind
  apply (word map.tileWidth).bind
  apply (word map.tileHeight).bind
  apply (tagged map.orientation).bind
  exact ((properties_laysOut map.properties).mono hproperties).bind h

theorem inlineEntries_laysOut {tilesets : List TileKiln.Tileset}
    (h : fits → ∀ t ∈ tilesets, t.baked.Fits) :
    LaysOut (Writer.each Writer.tilesetEntry (tilesets.map .inline)) (.ok ())
      (tilesets.flatMap fun t => Layout.tileset t.baked) fits := by
  rw [Writer.each_map]
  exact each fun t ht => (tileset_laysOut t).mono fun hf => h hf t ht

theorem map_laysOut {map : TileKiln.Map} (h : map.IsLoaded) :
    LaysOut map.write (.ok ()) (Layout.map map.baked) map.baked.Fits := by
  have hcount : map.baked.tilesets.length = map.tilesets.length := by
    rw [h.tilesets_eq, TileKiln.Map.baked, List.length_map, List.length_map]
  have htilesets : LaysOut (Writer.table Writer.tilesetEntry map.tilesets) (.ok ())
      (Layout.table Layout.tileset map.baked.tilesets) map.baked.Fits := by
    rw [Writer.table, Layout.table, hcount, TileKiln.Map.baked, List.flatMap_map]
    apply (length fun hf => hcount ▸ hf.tilesetCount).bind
    rw [h.tilesets_eq]
    exact inlineEntries_laysOut fun hf t ht => hf.tilesets t.baked (List.mem_map_of_mem ht)
  have hmap : Layout.map map.baked = Layout.header map.baked ++
      (Layout.table Layout.tileset map.baked.tilesets ++
        Layout.table Layout.layer map.baked.layers) := List.append_assoc ..
  rw [hmap]
  apply header_laysOut fun hf => hf.properties
  apply htilesets.bind
  have hlayers : map.baked.layers.length = map.layers.length := bakedAll_length map.layers
  exact (layers_laysOut map.layers).mono fun hf => ⟨hlayers ▸ hf.layerCount, hf.layers⟩

/-- Writing stops in front of the first tileset that was never loaded. -/
theorem unloadedEntries_laysOut {before : List TileKiln.Tileset} (firstGid : UInt32)
    (source : String) (after : List TilesetEntry) (h : fits → ∀ t ∈ before, t.baked.Fits) :
    LaysOut (Writer.each Writer.tilesetEntry
        (before.map .inline ++ .external firstGid source :: after))
      (.error (.unresolvedTileset firstGid source))
      (before.flatMap fun t => Layout.tileset t.baked) fits := by
  induction before with
  | nil => exact .inl ((Writer.emits_throw _).bind_error _)
  | cons t before ih =>
      rw [List.flatMap_cons]
      apply LaysOut.bind
      · exact (tileset_laysOut t).mono fun hf => h hf t List.mem_cons_self
      · exact ih fun hf t' ht' => h hf t' (List.mem_cons_of_mem t ht')

end Baked

namespace Map

variable {map : Map} {before : List Tileset} {firstGid : UInt32} {source : String}

def FirstUnloaded (map : Map) (before : List Tileset) (firstGid : UInt32) (source : String) : Prop :=
  ∃ after, map.tilesets = before.map .inline ++ .external firstGid source :: after

def layoutBefore (map : Map) (before : List Tileset) : List UInt8 :=
  Baked.Layout.header map.baked ++ Baked.Layout.count map.tilesets.length ++
    before.flatMap fun t => Baked.Layout.tileset t.baked

structure FitsBefore (map : Map) (before : List Tileset) : Prop where
  properties : Property.ListFits map.properties
  tilesetCount : FitsWord map.tilesets.length
  tilesets : ∀ t ∈ before, t.Fits

theorem isLoaded_or_firstUnloaded (map : Map) :
    map.IsLoaded ∨ ∃ before firstGid source, map.FirstUnloaded before firstGid source := by
  unfold IsLoaded FirstUnloaded
  induction map.tilesets with
  | nil => simp
  | cons entry entries ih =>
      cases entry with
      | external firstGid source => exact .inr ⟨[], firstGid, source, entries, rfl⟩
      | inline t =>
          rcases ih with hloaded | ⟨before, firstGid, source, after, hentries⟩
          · exact .inl (List.forall_mem_cons.2 ⟨⟨t, rfl⟩, hloaded⟩)
          · exact .inr ⟨t :: before, firstGid, source, after, congrArg (.inline t :: ·) hentries⟩

theorem FirstUnloaded.laysOut (h : map.FirstUnloaded before firstGid source) :
    Baked.LaysOut map.write (.error (.unresolvedTileset firstGid source)) (map.layoutBefore before)
      (map.FitsBefore before) := by
  obtain ⟨after, htilesets⟩ := h
  rw [layoutBefore, List.append_assoc]
  apply Baked.header_laysOut fun hf => hf.properties
  apply Baked.LaysOut.bind_error
  apply (Baked.LaysOut.length fun hf => hf.tilesetCount).bind
  rw [htilesets]
  exact Baked.unloadedEntries_laysOut firstGid source after fun hf t ht => (hf.tilesets t ht).baked

theorem exists_emits (map : Map) : ∃ result bytes, map.write.Emits result bytes := by
  rcases map.isLoaded_or_firstUnloaded with hloaded | ⟨before, firstGid, source, hunloaded⟩
  · exact (Baked.map_laysOut hloaded).emits
  · exact hunloaded.laysOut.emits

end Map

/-- A sink that runs out of room keeps the front of the bytes of a map or a tileset, and changes
nothing else. In front of the first tileset that was never loaded the bytes of a map end, unless a
length before it is no word. -/
theorem truncates_write :
    (∀ map : Map, map.write.Truncates) ∧ (∀ tileset : Tileset, tileset.write.Truncates) ∧
    ∀ (map : Map) (before : List Tileset) (firstGid : UInt32) (source : String),
      map.FirstUnloaded before firstGid source →
        map.write.into none = (.error (.unresolvedTileset firstGid source), map.layoutBefore before) ∨
        ¬ map.FitsBefore before ∧ ∃ length front, front <+: map.layoutBefore before ∧
          map.write.into none = (.error (.lengthOverflow length), front) := by
  refine ⟨fun map => ?_, fun tileset => ?_, fun map before firstGid source h => ?_⟩
  · obtain ⟨result, bytes, hemits⟩ := map.exists_emits
    exact hemits.truncates
  · obtain ⟨result, bytes, hemits⟩ := (Baked.tileset_laysOut tileset).emits
    exact hemits.truncates
  · rcases h.laysOut with hemits | ⟨hlong, length, front, hprefix, hemits⟩
    · exact .inl hemits.into_unlimited
    · exact .inr ⟨hlong, length, front, hprefix, hemits.into_unlimited⟩

def unloadedSample : Map where
  tilesets := [.inline { firstGid := 1, tileCount := 4 }, .external 5 "cave.tsx"]

/-- The header and the tileset at hand take 77 bytes. -/
theorem truncates_write_sample :
    unloadedSample.FirstUnloaded [{ firstGid := 1, tileCount := 4 }] 5 "cave.tsx" ∧
    ∃ bytes, bytes.length = 77 ∧
      unloadedSample.write.into none = (.error (.unresolvedTileset 5 "cave.tsx"), bytes) ∧
      unloadedSample.write.into (some 77) = (.error (.unresolvedTileset 5 "cave.tsx"), bytes) ∧
      unloadedSample.write.into (some 40) = (.error .sinkFull, bytes.take 40) := by
  have hfirst : unloadedSample.FirstUnloaded [{ firstGid := 1, tileCount := 4 }] 5 "cave.tsx" :=
    ⟨[], rfl⟩
  have hlength : (unloadedSample.layoutBefore [{ firstGid := 1, tileCount := 4 }]).length = 77 := by
    decide
  have hfits : unloadedSample.FitsBefore [{ firstGid := 1, tileCount := 4 }] := by
    have hnone : FitsWord 0 := by decide
    have htwo : FitsWord 2 := by decide
    refine ⟨⟨hnone, trivial⟩, htwo, List.forall_mem_singleton.2 ?_⟩
    exact ⟨trivial, hnone, fun _ ht => absurd ht List.not_mem_nil, ⟨hnone, trivial⟩⟩
  obtain ⟨hmap, _, hunloaded⟩ := truncates_write
  have hwhole := (hunloaded _ _ _ _ hfirst).resolve_right fun hlong => hlong.1 hfits
  have hroom : (unloadedSample.write.into none).2.length = 77 := by rw [hwhole, hlength]
  refine ⟨hfirst, _, hlength, hwhole, ?_, ?_⟩
  · rw [(hmap unloadedSample).whole 77 (Nat.le_of_eq hroom), hwhole]
  · rw [(hmap unloadedSample).cut 40 (by rw [hroom]; decide), hwhole]

end TileKiln
