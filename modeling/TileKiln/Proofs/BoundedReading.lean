import TileKiln.Proofs.Canonical
import TileKiln.Proofs.RecordCounts
import TileKiln.Proofs.RecordWalks

namespace TileKiln.Baked

theorem Reader.Exact.pays {α : Type} {read : Reader α} {layout : α → List UInt8} {P : α → Prop}
    {records : α → Nat} (h : read.Exact fun a front => front = layout a ∧ P a)
    (hpos : ∀ a, 0 < records a) (hrecords : ∀ a, 8 * records a ≤ (layout a).length) :
    read.Exact fun _ front => 8 ≤ front.length := by
  refine h.mono ?_
  rintro a _ ⟨rfl, _⟩
  exact Nat.le_trans (Nat.mul_le_mul_left 8 (hpos a)) (hrecords a)

inductive Record
  | property
  | point
  | object
  | frame
  | tile
  | tileset
  | placedTile
  | layer

namespace Record

def Value : Record → Type
  | .property => Property
  | .point => Point
  | .object => Object
  | .frame => Frame
  | .tile => Tile
  | .tileset => Tileset
  | .placedTile => PlacedTile
  | .layer => Layer

def walk (frames : Nat) : (kind : Record) → Walker kind.Value
  | .property => Walker.property frames
  | .point => Walker.point
  | .object => Walker.object frames
  | .frame => Walker.frame
  | .tile => Walker.tile frames
  | .tileset => Walker.tileset frames
  | .placedTile => Walker.placedTile
  | .layer => Walker.layer frames

def read (levels : Nat) : (kind : Record) → Reader kind.Value
  | .property => Reader.property levels
  | .point => Reader.point
  | .object => Reader.object levels
  | .frame => Reader.frame
  | .tile => Reader.tile levels
  | .tileset => Reader.tileset levels
  | .placedTile => Reader.placedTile
  | .layer => Reader.layer levels

variable {levels frames : Nat} {w : Walk}

theorem walk_tracks (h : levels < frames) (kind : Record) :
    Tracks levels (kind.walk frames) (kind.read levels) := by
  cases kind with
  | property => exact property_tracks h
  | point => exact point_tracks
  | object => exact object_tracks h
  | frame => exact frame_tracks
  | tile => exact tile_tracks h
  | tileset => exact tileset_tracks h
  | placedTile => exact placedTile_tracks
  | layer => exact layer_tracks h

theorem read_exact (levels : Nat) (kind : Record) :
    (kind.read levels).Exact fun _ front => 8 ≤ front.length := by
  cases kind with
  | property => exact (Reader.property_exact levels).pays Property.records_pos Layout.property_records
  | point =>
      refine Reader.point_exact.plain.pays (fun _ => Nat.one_pos) fun p => ?_
      exact Nat.le_of_eq (Layout.length_point p).symm
  | object => exact (Reader.object_exact levels).pays (fun _ => Nat.succ_pos _) Layout.object_records
  | frame =>
      refine Reader.frame_exact.plain.pays (fun _ => Nat.one_pos) fun f => ?_
      exact Nat.le_of_eq (Layout.length_frame f).symm
  | tile => exact (Reader.tile_exact levels).pays (fun _ => Nat.succ_pos _) Layout.tile_records
  | tileset =>
      exact (Reader.tileset_exact levels).pays (fun _ => Nat.succ_pos _) Layout.tileset_records
  | placedTile =>
      refine Reader.placedTile_exact.plain.pays (fun _ => Nat.one_pos) fun t => ?_
      rw [Layout.length_placedTile]
      decide
  | layer => exact (Reader.layer_exact levels).pays Layer.records_pos Layout.layer_records

/-- A record that is read or refused closes every level that it opens, and one that is read takes at
least 8 bytes. The frames have to last for the levels that are left. -/
theorem walk_advances (hw : w.Sound) (hdepth : w.depth ≤ maxNesting)
    (hframes : maxNesting < w.depth + frames) (kind : Record) :
    w.Continues (kind.walk frames w).2 ∧ (kind.walk frames w).1 ≠ .error .panicked ∧
      ∀ a, (kind.walk frames w).1 = .ok a → w.position + 8 ≤ (kind.walk frames w).2.position := by
  have hlevels : maxNesting - w.depth < frames := by omega
  obtain ⟨hcontinues, halike⟩ := kind.walk_tracks hlevels w hw (Nat.add_sub_cancel' hdepth)
  generalize hread : kind.read (maxNesting - w.depth) w.cursor = read at halike
  generalize kind.walk frames w = ended at hcontinues halike ⊢
  cases halike with
  | refused e w' => exact ⟨hcontinues, by simp, by simp⟩
  | ok a w' =>
      obtain ⟨front, hfront, hlength, _⟩ := (kind.read_exact _).takes hread
      -- What was left before is what the record took and what is left now, of one stream.
      have htaken : (w.stream.drop w.position).length =
          (front ++ w'.stream.drop w'.position).length := congrArg List.length hfront
      rw [List.length_append, List.length_drop, List.length_drop, hcontinues.stream] at htaken
      have hend := hcontinues.sound.position
      rw [hcontinues.stream] at hend
      refine ⟨hcontinues, by simp, fun _ _ => ?_⟩
      simp only
      omega

end Record

/-- Whatever a stream holds, a walk over it ends as reading does: without a breakdown, inside the
stream, with every level closed again and never more than `maxNesting` of them open. So does the walk
over each record, and one that is read takes at least 8 bytes. A stream that is read has at most one
record to every 8 bytes. -/
theorem walks_bounded :
    (∀ (kind : Record) (frames : Nat) (w : Walk), w.Sound → w.depth ≤ maxNesting →
      maxNesting < w.depth + frames →
        w.Continues (kind.walk frames w).2 ∧ (kind.walk frames w).1 ≠ .error .panicked ∧
        ∀ a, (kind.walk frames w).1 = .ok a → w.position + 8 ≤ (kind.walk frames w).2.position) ∧
    (∀ stream : List UInt8,
      ((Walker.map (maxNesting + 1)).whole { stream }).1 =
        (Map.read stream).mapError .refused ∧
      Walk.Continues { stream } ((Walker.map (maxNesting + 1)).whole { stream }).2) ∧
    (∀ stream : List UInt8,
      ((Walker.tileset (maxNesting + 1)).whole { stream }).1 =
        (Tileset.read stream).mapError .refused ∧
      Walk.Continues { stream } ((Walker.tileset (maxNesting + 1)).whole { stream }).2) ∧
    (∀ (stream : List UInt8) (m : Map), Map.read stream = .ok m →
      m.records ≤ stream.length / 8) ∧
    ∀ (stream : List UInt8) (t : Tileset), Tileset.read stream = .ok t →
      t.records ≤ stream.length / 8 := by
  have hframes : maxNesting < maxNesting + 1 := Nat.lt_succ_self _
  refine ⟨fun kind frames w hw hdepth hframes => kind.walk_advances hw hdepth hframes,
    (map_tracks hframes).whole, (tileset_tracks hframes).whole,
    fun stream m hread => ?_, fun stream t hread => ?_⟩
  · have hrecords := Layout.map_records m
    rw [← (layout_of_read hread).1] at hrecords
    omega
  · have hrecords := Layout.tileset_records t
    rw [← (layout_of_readTileset hread).1] at hrecords
    omega

def fullSample : Walk where
  stream := Layout.property ⟨"hp", "10", [⟨"max", "12", []⟩]⟩
  depth := 63
  deepest := 63

theorem walks_bounded_sample :
    (fullSample.Sound ∧ fullSample.depth ≤ maxNesting ∧ maxNesting < fullSample.depth + 2 ∧
      (Record.property.walk 2 fullSample).1 = .error (.refused (.tooDeep 29)) ∧
      fullSample.Continues (Record.property.walk 2 fullSample).2) ∧
    (∃ stream, Map.read stream = .ok sampleMap.baked ∧ sampleMap.baked.records = 19 ∧
      sampleMap.baked.records ≤ stream.length / 8) ∧
    ∃ stream, Tileset.read stream = .ok sampleTileset.baked ∧ sampleTileset.baked.records = 8 ∧
      sampleTileset.baked.records ≤ stream.length / 8 := by
  obtain ⟨hrecord, _, _, hmap, htileset⟩ := walks_bounded
  obtain ⟨stream, hread⟩ := sampleMap_reads
  obtain ⟨stream', hread'⟩ := sampleTileset_reads
  have hsound : fullSample.Sound := ⟨by decide, by decide, by decide⟩
  have hdepth : fullSample.depth ≤ maxNesting := by decide
  have hframes : maxNesting < fullSample.depth + 2 := by decide
  exact ⟨⟨hsound, hdepth, hframes, rfl, (hrecord .property 2 fullSample hsound hdepth hframes).1⟩,
    ⟨stream, hread, by decide, hmap stream _ hread⟩,
    stream', hread', by decide, htileset stream' _ hread'⟩

end TileKiln.Baked
