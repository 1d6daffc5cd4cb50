import TileKiln.Proofs.StreamWalk

namespace TileKiln.Baked

namespace Walker

def point : Walker Point :=
  return ⟨← single, ← single⟩

def property : (frames : Nat) → Walker Property
  | 0 => panic
  | frames + 1 =>
    return ⟨← text, ← text, ← nested (table (property frames))⟩

def properties (frames : Nat) : Walker (List Property) :=
  table (property frames)

def shape : ShapeTag → Walker Shape
  | .rectangle => return .rectangle
  | .ellipse => return .ellipse
  | .polygon => return .polygon (← table point)
  | .polyline => return .polyline (← table point)
  | .tile => return .tile (← word)

def object (frames : Nat) : Walker Object := do
  let tag ← tagged ShapeTag
  let id ← word
  let name ← text
  let type ← text
  let x ← single
  let y ← single
  let width ← single
  let height ← single
  let rotation ← single
  let visible ← tagged Bool
  let properties ← properties frames
  let shape ← shape tag
  return { id, name, type, x, y, width, height, rotation, visible, shape, properties }

def frame : Walker Frame :=
  return ⟨← word, ← word⟩

def tile (frames : Nat) : Walker Tile := do
  let id ← word
  let type ← text
  let frameCount ← length
  let objectCount ← length
  let objects ← times (object frames) objectCount
  let animation ← times frame frameCount
  let properties ← properties frames
  let image ← text
  return { id, type, objects, animation, properties, image }

def tileset (frames : Nat) : Walker Tileset := do
  let image ← text
  let firstGid ← word
  let tileWidth ← word
  let tileHeight ← word
  let spacing ← word
  let margin ← word
  let columns ← word
  let tileCount ← word
  let tiles ← table (tile frames)
  let properties ← properties frames
  let offset : TileOffset := ⟨← int, ← int⟩
  return { image, firstGid, tileWidth, tileHeight, spacing, margin, columns, tileCount, tiles,
           properties, offset }

def placedTile : Walker PlacedTile :=
  return ⟨← word, ← word, ← word⟩

def layerContent (frames : Nat) (group : Walker (List Layer)) :
    LayerTag → Walker (LayerHead → Layer)
  | .tiles => do
    let placed ← table placedTile
    let width ← word
    let height ← word
    return fun head => .tiles head placed width height
  | .image => do
    let image ← text
    let position ← point
    return fun head => .image head image position
  | .objects => do
    let objects ← table (object frames)
    return fun head => .objects head objects
  | .group => do
    let members ← group
    return fun head => .group head members

def layerAround (frames : Nat) (group : Walker (List Layer)) : Walker Layer := do
  let name ← text
  let visible ← tagged Bool
  let opacity ← single
  let tag ← tagged LayerTag
  let content ← layerContent frames group tag
  let offset ← point
  let properties ← properties frames
  return content { name, opacity, visible, offset, properties }

def layer : (frames : Nat) → Walker Layer
  | 0 => panic
  | frames + 1 => layerAround (frames + 1) (nested (table (layer frames)))

def map (frames : Nat) : Walker Map := do
  let rgb ← array 3
  let order ← tagged PaintOrder
  let width ← word
  let height ← word
  let tileWidth ← word
  let tileHeight ← word
  let orientation ← tagged Orientation
  let properties ← properties frames
  let tilesets ← table (tileset frames)
  let layers ← table (layer frames)
  return { background := ⟨rgb.getD 0 0, rgb.getD 1 0, rgb.getD 2 0⟩, order, width, height,
           tileWidth, tileHeight, orientation, properties, tilesets, layers }

end Walker

open Tracks

variable {levels frames : Nat}

theorem point_tracks : Tracks levels Walker.point Reader.point :=
  single.bind fun _ => single.map

theorem property_tracks (h : levels < frames) :
    Tracks levels (Walker.property frames) (Reader.property levels) := by
  obtain ⟨frames, rfl⟩ := Nat.exists_eq_add_one.2 (Nat.zero_lt_of_lt h)
  induction levels generalizing frames with
  | zero =>
      refine text.bind fun name => text.bind fun value => ?_
      -- Both stop in front of the count of the children, even if there are none.
      have hdeep : Tracks 0 (Walker.nested (Walker.table (Walker.property frames)) >>=
          fun children => Pure.pure (Property.mk name value children))
          (Reader.tooDeep >>= fun children => Pure.pure (Property.mk name value children)) :=
        (nested_zero _).map
      exact hdeep
  | succ levels ih =>
      obtain ⟨frames, rfl⟩ := Nat.exists_eq_add_one.2 (Nat.zero_lt_of_lt (Nat.lt_of_succ_lt_succ h))
      refine text.bind fun name => text.bind fun value => ?_
      exact (ih frames (Nat.lt_of_succ_lt_succ h)).table.nested.map

theorem properties_tracks (h : levels < frames) :
    Tracks levels (Walker.properties frames) (Reader.properties levels) :=
  (property_tracks h).table

theorem shape_tracks (tag : ShapeTag) : Tracks levels (Walker.shape tag) (Reader.shape tag) := by
  cases tag with
  | rectangle | ellipse => exact pure _
  | polygon | polyline => exact point_tracks.table.map
  | tile => exact word.map

theorem object_tracks (h : levels < frames) :
    Tracks levels (Walker.object frames) (Reader.object levels) := by
  refine tagged.bind fun tag => word.bind fun id => text.bind fun name => text.bind fun type => ?_
  refine single.bind fun x => single.bind fun y => single.bind fun width => ?_
  refine single.bind fun height => single.bind fun rotation => tagged.bind fun visible => ?_
  exact (properties_tracks h).bind fun properties => (shape_tracks tag).map

theorem frame_tracks : Tracks levels Walker.frame Reader.frame :=
  word.bind fun _ => word.map

theorem tile_tracks (h : levels < frames) :
    Tracks levels (Walker.tile frames) (Reader.tile levels) := by
  refine word.bind fun id => text.bind fun type => ?_
  refine length.bind fun frameCount => length.bind fun objectCount => ?_
  refine ((object_tracks h).times objectCount).bind fun objects => ?_
  refine (frame_tracks.times frameCount).bind fun animation => ?_
  exact (properties_tracks h).bind fun properties => text.map

theorem tileset_tracks (h : levels < frames) :
    Tracks levels (Walker.tileset frames) (Reader.tileset levels) := by
  refine text.bind fun image => word.bind fun firstGid => word.bind fun tileWidth => ?_
  refine word.bind fun tileHeight => word.bind fun spacing => word.bind fun margin => ?_
  refine word.bind fun columns => word.bind fun tileCount => ?_
  refine (tile_tracks h).table.bind fun tiles => (properties_tracks h).bind fun properties => ?_
  exact int.bind fun x => int.map

theorem placedTile_tracks : Tracks levels Walker.placedTile Reader.placedTile :=
  word.bind fun _ => word.bind fun _ => word.map

variable {walkGroup : Walker (List Layer)} {readGroup : Reader (List Layer)}

theorem layerContent_tracks (h : levels < frames) (hgroup : Tracks levels walkGroup readGroup)
    (tag : LayerTag) :
    Tracks levels (Walker.layerContent frames walkGroup tag)
      (Reader.layerContent levels readGroup tag) := by
  cases tag with
  | tiles => exact placedTile_tracks.table.bind fun placed => word.bind fun width => word.map
  | image => exact text.bind fun image => point_tracks.map
  | objects => exact (object_tracks h).table.map
  | group => exact hgroup.map

theorem layerAround_tracks (h : levels < frames) (hgroup : Tracks levels walkGroup readGroup) :
    Tracks levels (Walker.layerAround frames walkGroup) (Reader.layerAround levels readGroup) := by
  refine text.bind fun name => tagged.bind fun visible => single.bind fun opacity => ?_
  refine tagged.bind fun tag => (layerContent_tracks h hgroup tag).bind fun content => ?_
  exact point_tracks.bind fun offset => (properties_tracks h).map

theorem layer_tracks (h : levels < frames) :
    Tracks levels (Walker.layer frames) (Reader.layer levels) := by
  obtain ⟨frames, rfl⟩ := Nat.exists_eq_add_one.2 (Nat.zero_lt_of_lt h)
  induction levels generalizing frames with
  | zero => exact layerAround_tracks h (nested_zero _)
  | succ levels ih =>
      obtain ⟨frames, rfl⟩ := Nat.exists_eq_add_one.2 (Nat.zero_lt_of_lt (Nat.lt_of_succ_lt_succ h))
      exact layerAround_tracks h (ih frames (Nat.lt_of_succ_lt_succ h)).table.nested

theorem map_tracks (h : levels < frames) :
    Tracks levels (Walker.map frames) (Reader.map levels) := by
  refine (array 3).bind fun rgb => tagged.bind fun order => word.bind fun width => ?_
  refine word.bind fun height => word.bind fun tileWidth => word.bind fun tileHeight => ?_
  refine tagged.bind fun orientation => (properties_tracks h).bind fun properties => ?_
  exact (tileset_tracks h).table.bind fun tilesets => (layer_tracks h).table.map

end TileKiln.Baked
