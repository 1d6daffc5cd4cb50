import TileKiln.Proofs.ExactReader
import TileKiln.Proofs.MapRoundTrip
import TileKiln.Proofs.Nesting
import TileKiln.Proofs.RecordLimits

namespace TileKiln.Baked

namespace Reader

theorem point_exact : point.Exact fun p front => front = Layout.point p := by
  refine single_exact.bind ?_
  rintro x _ rfl
  refine single_exact.map ?_
  rintro y _ rfl
  rfl

theorem property_exact (levels : Nat) :
    (property levels).Exact fun p front =>
      front = Layout.property p ∧ p.height ≤ levels ∧ p.Fits := by
  induction levels with
  | zero =>
      refine text_exact.bind fun _ _ _ => ?_
      exact text_exact.bind fun _ _ _ => tooDeep_exact
  | succ levels ih =>
      refine text_exact.bind ?_
      rintro name _ ⟨rfl, hname⟩
      refine text_exact.bind ?_
      rintro value _ ⟨rfl, hvalue⟩
      refine (table_exact ih).map ?_
      rintro children _ ⟨rfl, hcount, hchildren⟩
      rw [Layout.property_eq, List.append_assoc, Property.height, Property.Fits]
      exact ⟨rfl,
        Nat.succ_le_succ (Property.listHeight_le_iff.2 fun p hp => (hchildren p hp).1),
        hname, hvalue, hcount, Property.allFit_iff.2 fun p hp => (hchildren p hp).2⟩

theorem properties_exact (levels : Nat) :
    (properties levels).Exact fun ps front =>
      front = Layout.properties ps ∧ Property.listHeight ps ≤ levels ∧ Property.ListFits ps := by
  refine (table_exact (property_exact levels)).mono ?_
  rintro ps _ ⟨rfl, hcount, hps⟩
  exact ⟨rfl, Property.listHeight_le_iff.2 fun p hp => (hps p hp).1,
    hcount, Property.allFit_iff.2 fun p hp => (hps p hp).2⟩

theorem shape_exact (tag : ShapeTag) :
    (shape tag).Exact fun s front =>
      front = Layout.shape s ∧ Writer.shapeTag s = tag ∧ s.Fits := by
  cases tag with
  | rectangle => exact exact_pure ⟨rfl, rfl, trivial⟩
  | ellipse => exact exact_pure ⟨rfl, rfl, trivial⟩
  | polygon => exact (table_exact point_exact.plain).map fun _ _ h => ⟨h.1, rfl, h.2.1⟩
  | polyline => exact (table_exact point_exact.plain).map fun _ _ h => ⟨h.1, rfl, h.2.1⟩
  | tile => exact word_exact.map fun _ _ h => ⟨h, rfl, trivial⟩

theorem object_exact (levels : Nat) :
    (object levels).Exact fun o front =>
      front = Layout.object o ∧ o.Within levels ∧ o.Fits := by
  refine tagged_exact.bind ?_
  rintro tag _ rfl
  refine word_exact.bind ?_
  rintro id _ rfl
  refine text_exact.bind ?_
  rintro name _ ⟨rfl, hname⟩
  refine text_exact.bind ?_
  rintro type _ ⟨rfl, htype⟩
  refine single_exact.bind ?_
  rintro x _ rfl
  refine single_exact.bind ?_
  rintro y _ rfl
  refine single_exact.bind ?_
  rintro width _ rfl
  refine single_exact.bind ?_
  rintro height _ rfl
  refine single_exact.bind ?_
  rintro rotation _ rfl
  refine tagged_exact.bind ?_
  rintro visible _ rfl
  refine (properties_exact levels).bind ?_
  rintro properties _ ⟨rfl, hheight, hproperties⟩
  refine (shape_exact tag).map ?_
  rintro shape _ ⟨rfl, rfl, hshape⟩
  refine ⟨?_, hheight, hname, htype, hproperties, hshape⟩
  simp only [Layout.object, List.append_assoc]

theorem frame_exact : frame.Exact fun f front => front = Layout.frame f := by
  refine word_exact.bind ?_
  rintro tile _ rfl
  refine word_exact.map ?_
  rintro duration _ rfl
  rfl

theorem tile_exact (levels : Nat) :
    (tile levels).Exact fun t front =>
      front = Layout.tile t ∧ t.Within levels ∧ t.Fits := by
  refine word_exact.bind ?_
  rintro id _ rfl
  refine text_exact.bind ?_
  rintro type _ ⟨rfl, htype⟩
  refine length_exact.bind ?_
  rintro frameCount _ ⟨rfl, hframes⟩
  refine length_exact.bind ?_
  rintro objectCount _ ⟨rfl, hcount⟩
  refine (times_exact (object_exact levels) objectCount).bind ?_
  rintro objects _ ⟨rfl, rfl, hobjects⟩
  refine (times_exact frame_exact.plain frameCount).bind ?_
  rintro animation _ ⟨rfl, rfl, _⟩
  refine (properties_exact levels).bind ?_
  rintro properties _ ⟨rfl, hheight, hproperties⟩
  refine text_exact.map ?_
  rintro image _ ⟨rfl, himage⟩
  refine ⟨?_, ⟨fun o ho => (hobjects o ho).1, hheight⟩, htype, hframes, hcount,
    fun o ho => (hobjects o ho).2, hproperties, himage⟩
  simp only [Layout.tile, List.append_assoc]

theorem tileset_exact (levels : Nat) :
    (tileset levels).Exact fun t front =>
      front = Layout.tileset t ∧ t.Within levels ∧ t.Fits := by
  refine text_exact.bind ?_
  rintro image _ ⟨rfl, himage⟩
  refine word_exact.bind ?_
  rintro firstGid _ rfl
  refine word_exact.bind ?_
  rintro tileWidth _ rfl
  refine word_exact.bind ?_
  rintro tileHeight _ rfl
  refine word_exact.bind ?_
  rintro spacing _ rfl
  refine word_exact.bind ?_
  rintro margin _ rfl
  refine word_exact.bind ?_
  rintro columns _ rfl
  refine word_exact.bind ?_
  rintro tileCount _ rfl
  refine (table_exact (tile_exact levels)).bind ?_
  rintro tiles _ ⟨rfl, hcount, htiles⟩
  refine (properties_exact levels).bind ?_
  rintro properties _ ⟨rfl, hheight, hproperties⟩
  refine int_exact.bind ?_
  rintro x _ rfl
  refine int_exact.map ?_
  rintro y _ rfl
  refine ⟨?_, ⟨fun tile ht => (htiles tile ht).1, hheight⟩, himage, hcount,
    fun tile ht => (htiles tile ht).2, hproperties⟩
  simp only [Layout.tileset, List.append_assoc]

theorem placedTile_exact : placedTile.Exact fun t front => front = Layout.placedTile t := by
  refine word_exact.bind ?_
  rintro gid _ rfl
  refine word_exact.bind ?_
  rintro x _ rfl
  refine word_exact.map ?_
  rintro y _ rfl
  rw [Layout.placedTile, List.append_assoc]

/-- What a layer shows is put into any head, which brings its own properties. -/
def ContentOf (levels : Nat) (kind : LayerTag) (content : LayerHead → Layer) (front : List UInt8) :
    Prop :=
  ∀ head : LayerHead, Layout.layer (content head) = Layout.layerAround head kind front ∧
    (Property.listHeight head.properties ≤ levels → (content head).Within levels) ∧
    (head.Fits → (content head).Fits)

variable {levels : Nat} {group : Reader (List Layer)}

def ReadsMembers (levels : Nat) (group : Reader (List Layer)) : Prop :=
  group.Exact fun members => ContentOf levels .group (.group · members)

theorem layerContent_exact (hgroup : ReadsMembers levels group) (kind : LayerTag) :
    (layerContent levels group kind).Exact (ContentOf levels kind) := by
  cases kind with
  | tiles =>
      refine (table_exact placedTile_exact.plain).bind ?_
      rintro placed _ ⟨rfl, hcount, _⟩
      refine word_exact.bind ?_
      rintro width _ rfl
      refine word_exact.map ?_
      rintro height _ rfl head
      refine ⟨?_, fun hheight => hheight, fun hhead => ⟨hhead, hcount⟩⟩
      rw [Layout.layer, List.append_assoc]
  | image =>
      refine text_exact.bind ?_
      rintro image _ ⟨rfl, himage⟩
      refine point_exact.map ?_
      rintro position _ rfl head
      exact ⟨rfl, fun hheight => hheight, fun hhead => ⟨hhead, himage⟩⟩
  | objects =>
      refine (table_exact (object_exact levels)).map ?_
      rintro objects _ ⟨rfl, hcount, hobjects⟩ head
      exact ⟨rfl, fun hheight => ⟨hheight, fun o ho => (hobjects o ho).1⟩,
        fun hhead => ⟨hhead, hcount, fun o ho => (hobjects o ho).2⟩⟩
  | group => exact hgroup.map fun _ _ h => h

theorem layerAround_exact (hgroup : ReadsMembers levels group) :
    (layerAround levels group).Exact fun l front =>
      front = Layout.layer l ∧ l.Within levels ∧ l.Fits := by
  refine text_exact.bind ?_
  rintro name _ ⟨rfl, hname⟩
  refine tagged_exact.bind ?_
  rintro visible _ rfl
  refine single_exact.bind ?_
  rintro opacity _ rfl
  refine tagged_exact.bind ?_
  rintro kind _ rfl
  refine (layerContent_exact hgroup kind).bind ?_
  intro content front hcontent
  refine point_exact.bind ?_
  rintro offset _ rfl
  refine (properties_exact levels).map ?_
  rintro properties _ ⟨rfl, hheight, hproperties⟩
  obtain ⟨hlayout, hwithin, hfits⟩ := hcontent { name, opacity, visible, offset, properties }
  refine ⟨?_, hwithin hheight, hfits ⟨hname, hproperties⟩⟩
  simp only [hlayout, Layout.layerAround, List.append_assoc]

theorem layer_exact (levels : Nat) :
    (layer levels).Exact fun l front =>
      front = Layout.layer l ∧ l.Within levels ∧ l.Fits := by
  induction levels with
  | zero => exact layerAround_exact tooDeep_exact
  | succ levels ih =>
      refine layerAround_exact ((table_exact ih).mono ?_)
      rintro members _ ⟨rfl, hcount, hmembers⟩ head
      exact ⟨Layout.layer_group head members,
        fun hheight => ⟨hheight, Layer.allWithin_iff.2 fun l hl => (hmembers l hl).1⟩,
        fun hhead => ⟨hhead, hcount, Layer.allFit_iff.2 fun l hl => (hmembers l hl).2⟩⟩

theorem color_exact :
    (take 3).Exact fun rgb front =>
      front = Layout.color ⟨rgb.getD 0 0, rgb.getD 1 0, rgb.getD 2 0⟩ := by
  refine (take_exact 3).mono ?_
  rintro rgb _ ⟨rfl, hlength⟩
  match rgb, hlength with
  | [_, _, _], _ => rfl

theorem map_exact (levels : Nat) :
    (map levels).Exact fun m front =>
      front = Layout.map m ∧ m.Within levels ∧ m.Fits := by
  refine color_exact.bind ?_
  rintro rgb _ rfl
  refine tagged_exact.bind ?_
  rintro order _ rfl
  refine word_exact.bind ?_
  rintro width _ rfl
  refine word_exact.bind ?_
  rintro height _ rfl
  refine word_exact.bind ?_
  rintro tileWidth _ rfl
  refine word_exact.bind ?_
  rintro tileHeight _ rfl
  refine tagged_exact.bind ?_
  rintro orientation _ rfl
  refine (properties_exact levels).bind ?_
  rintro properties _ ⟨rfl, hheight, hproperties⟩
  refine (table_exact (tileset_exact levels)).bind ?_
  rintro tilesets _ ⟨rfl, htilesetCount, htilesets⟩
  refine (table_exact (layer_exact levels)).map ?_
  rintro layers _ ⟨rfl, hlayerCount, hlayers⟩
  refine ⟨?_, ⟨hheight, fun t ht => (htilesets t ht).1, fun l hl => (hlayers l hl).1⟩,
    hproperties, htilesetCount, fun t ht => (htilesets t ht).2, hlayerCount,
    Layer.allFit_iff.2 fun l hl => (hlayers l hl).2⟩
  simp only [Layout.map, List.append_assoc]

end Reader

variable {α : Type}

theorem Reader.Exact.of_run {read : Reader α} {told : α → List UInt8 → Prop}
    {stream : List UInt8} {a : α} (h : read.Exact told) (hrun : read.run stream = .ok a) :
    told a stream ∧ read.Gives True stream a := by
  rw [Reader.run] at hrun
  split at hrun
  next => cases hrun
  next value cursor hread =>
    obtain ⟨front, hfront, htold, hgives⟩ := h.takes hread
    split at hrun
    next hrest =>
      cases hrun
      rw [List.isEmpty_iff.1 hrest, List.append_nil] at hfront
      rw [hfront]
      exact ⟨htold, hgives⟩
    next => cases hrun

theorem layout_of_read {stream : List UInt8} {m : Map} (h : Map.read stream = .ok m) :
    stream = Layout.map m ∧ m.Within maxNesting ∧ m.Fits :=
  ((Reader.map_exact maxNesting).of_run h).1

theorem layout_of_readTileset {stream : List UInt8} {t : Tileset}
    (h : Tileset.read stream = .ok t) :
    stream = Layout.tileset t ∧ t.Within maxNesting ∧ t.Fits :=
  ((Reader.tileset_exact maxNesting).of_run h).1

/-- A stream that is read is the layout of its value, byte for byte, and no other stream is read as
that value. -/
theorem read_canonical :
    (∀ (stream : List UInt8) (m : Map), Map.read stream = .ok m →
      stream = Layout.map m ∧ ∀ other, Map.read other = .ok m → other = stream) ∧
    ∀ (stream : List UInt8) (t : Tileset), Tileset.read stream = .ok t →
      stream = Layout.tileset t ∧ ∀ other, Tileset.read other = .ok t → other = stream := by
  constructor
  · intro stream m h
    refine ⟨(layout_of_read h).1, fun other hother => ?_⟩
    rw [(layout_of_read hother).1, (layout_of_read h).1]
  · intro stream t h
    refine ⟨(layout_of_readTileset h).1, fun other hother => ?_⟩
    rw [(layout_of_readTileset hother).1, (layout_of_readTileset h).1]

theorem sampleMap_reads : ∃ stream, Map.read stream = .ok sampleMap.baked := by
  have hloaded : sampleMap.IsLoaded := by
    intro entry hentry
    exact ⟨sampleTileset, List.mem_singleton.1 hentry⟩
  obtain ⟨stream, hstream⟩ := (map_readsBack hloaded).bytes_of_fits sampleMap_fits
  rcases (map_readsBack hloaded).run hstream with hread | ⟨hdeep, _⟩
  · exact ⟨stream, hread⟩
  · exact absurd sampleMap_shallow hdeep

theorem sampleTileset_reads : ∃ stream, Tileset.read stream = .ok sampleTileset.baked := by
  have htileset := tileset_readsBack sampleTileset
  obtain ⟨stream, hstream⟩ := htileset.bytes_of_fits sampleTileset_fits
  rcases htileset.run hstream with hread | ⟨hdeep, _⟩
  · exact ⟨stream, hread⟩
  · exact absurd sampleTileset_shallow hdeep

theorem read_canonical_sample :
    (∃ stream, Map.read stream = .ok sampleMap.baked ∧ stream = Layout.map sampleMap.baked) ∧
    ∃ stream, Tileset.read stream = .ok sampleTileset.baked ∧
      stream = Layout.tileset sampleTileset.baked := by
  obtain ⟨stream, hread⟩ := sampleMap_reads
  obtain ⟨stream', hread'⟩ := sampleTileset_reads
  exact ⟨⟨stream, hread, (read_canonical.1 stream _ hread).1⟩,
    stream', hread', (read_canonical.2 stream' _ hread').1⟩

end TileKiln.Baked
