import TileKiln.Proofs.Layout

namespace TileKiln

namespace Property

mutual

def records : Property → Nat
  | ⟨_, _, children⟩ => recordsAmong children + 1

def recordsAmong : List Property → Nat
  | [] => 0
  | p :: ps => p.records + recordsAmong ps

end

theorem records_pos (p : Property) : 0 < p.records := by
  cases p
  exact Nat.succ_pos _

end Property

def Shape.points : Shape → List Point
  | .polygon points | .polyline points => points
  | .rectangle | .ellipse | .tile _ => []

namespace Baked

def total {α : Type} (records : α → Nat) : List α → Nat
  | [] => 0
  | a :: as => records a + total records as

theorem total_one {α : Type} (as : List α) : total (fun _ => 1) as = as.length := by
  induction as with
  | nil => rfl
  | cons a as ih => rw [total, ih, List.length_cons, Nat.add_comm]

def Object.records (o : Object) : Nat :=
  o.shape.points.length + Property.recordsAmong o.properties + 1

def Tile.records (t : Tile) : Nat :=
  total Object.records t.objects + t.animation.length + Property.recordsAmong t.properties + 1

def Tileset.records (t : Tileset) : Nat :=
  total Tile.records t.tiles + Property.recordsAmong t.properties + 1

namespace Layer

mutual

/-- A layer with the point of its offset, and an image layer with that of its position too. -/
def records : Layer → Nat
  | .tiles head placed _ _ => placed.length + Property.recordsAmong head.properties + 2
  | .image head _ _ => Property.recordsAmong head.properties + 3
  | .objects head items => total Object.records items + Property.recordsAmong head.properties + 2
  | .group head members => recordsAmong members + Property.recordsAmong head.properties + 2

def recordsAmong : List Layer → Nat
  | [] => 0
  | l :: ls => l.records + recordsAmong ls

end

theorem records_pos (l : Layer) : 0 < l.records := by
  cases l <;> exact Nat.succ_pos _

end Layer

def Map.records (m : Map) : Nat :=
  Property.recordsAmong m.properties + total Tileset.records m.tilesets +
    Layer.recordsAmong m.layers

namespace Layout

variable {α : Type} {layout : α → List UInt8}

theorem length_word (w : UInt32) : (Word.bytes32 w).length = 4 := Word.length_bytes 4 _

theorem length_count (n : Nat) : (count n).length = 4 := length_word _

theorem length_single (x : Single) : (single x).length = 4 := length_word _

theorem le_length_text (s : String) : 4 ≤ (text s).length := by
  rw [text, List.length_append, length_count]
  exact Nat.le_add_right 4 _

theorem length_point (p : Point) : (point p).length = 8 := by
  rw [point, List.length_append, length_single, length_single]

theorem length_table (as : List α) :
    (table layout as).length = 4 + (as.flatMap layout).length := by
  rw [table, List.length_append, length_count]

/-- Records of one kind, one after another, have room for all records in them if each one has. -/
theorem total_le {records : α → Nat} {as : List α}
    (h : ∀ a ∈ as, 8 * records a ≤ (layout a).length) :
    8 * total records as ≤ (as.flatMap layout).length := by
  induction as with
  | nil => exact Nat.zero_le _
  | cons a as ih =>
      have hfirst := h a List.mem_cons_self
      have hothers := ih fun b hb => h b (List.mem_cons_of_mem a hb)
      rw [total, List.flatMap_cons, List.length_append]
      omega

theorem le_length_flatMap {as : List α} (h : ∀ a, 8 ≤ (layout a).length) :
    8 * as.length ≤ (as.flatMap layout).length := by
  rw [← total_one]
  exact total_le fun a _ => h a

mutual

theorem property_records : (p : Property) → 8 * p.records ≤ (property p).length
  | ⟨name, value, children⟩ => by
      have hname := le_length_text name
      have hvalue := le_length_text value
      have hchildren := eachProperty_records children
      simp only [Property.records, property, List.length_append, length_count]
      omega

theorem eachProperty_records : (ps : List Property) →
    8 * Property.recordsAmong ps ≤ (eachProperty ps).length
  | [] => Nat.zero_le _
  | p :: ps => by
      have hfirst := property_records p
      have hothers := eachProperty_records ps
      rw [Property.recordsAmong, eachProperty, List.length_append]
      omega

end

theorem properties_records (ps : List Property) :
    8 * Property.recordsAmong ps + 4 ≤ (properties ps).length := by
  have heach := eachProperty_records ps
  rw [properties, length_table, ← eachProperty_eq]
  omega

theorem shape_records (s : Shape) : 8 * s.points.length ≤ (shape s).length := by
  have htable (points : List Point) : 8 * points.length ≤ (table point points).length := by
    have hpoints : 8 * points.length ≤ (points.flatMap point).length :=
      le_length_flatMap fun p => Nat.le_of_eq (length_point p).symm
    rw [length_table]
    omega
  cases s with
  | rectangle | ellipse | tile => exact Nat.zero_le _
  | polygon points | polyline points => exact htable points

theorem object_records (o : Object) : 8 * o.records ≤ (object o).length := by
  have hname := le_length_text o.name
  have htype := le_length_text o.type
  have hproperties := properties_records o.properties
  have hshape := shape_records o.shape
  simp only [Object.records, object, List.length_append]
  omega

theorem length_frame (f : Frame) : (frame f).length = 8 := by
  rw [frame, List.length_append, length_word, length_word]

theorem tile_records (t : Tile) : 8 * t.records ≤ (tile t).length := by
  have htype := le_length_text t.type
  have himage := le_length_text t.image
  have hobjects := total_le fun o (_ : o ∈ t.objects) => object_records o
  have hframes : 8 * t.animation.length ≤ (t.animation.flatMap frame).length :=
    le_length_flatMap fun f => Nat.le_of_eq (length_frame f).symm
  have hproperties := properties_records t.properties
  simp only [Tile.records, tile, List.length_append]
  omega

theorem tileset_records (t : Tileset) : 8 * t.records ≤ (tileset t).length := by
  have himage := le_length_text t.image
  have htiles := total_le fun tile (_ : tile ∈ t.tiles) => tile_records tile
  have hproperties := properties_records t.properties
  simp only [Tileset.records, tileset, List.length_append, length_table]
  omega

theorem length_placedTile (t : PlacedTile) : (placedTile t).length = 12 := by
  rw [placedTile, List.length_append, List.length_append, length_word, length_word, length_word]

/-- What stands around the content of a layer pays for the layer, its offset and its properties. -/
theorem layerAround_records (head : LayerHead) (kind : LayerTag) (content : List UInt8) :
    8 * (Property.recordsAmong head.properties + 2) + content.length ≤
      (layerAround head kind content).length := by
  have hname := le_length_text head.name
  have hproperties := properties_records head.properties
  simp only [layerAround, List.length_append, length_single, length_point]
  omega

mutual

theorem layer_records : (l : Layer) → 8 * l.records ≤ (layer l).length
  | .tiles head placed width height => by
      have hplaced : 8 * placed.length ≤ (placed.flatMap placedTile).length :=
        le_length_flatMap fun t => by rw [length_placedTile]; decide
      have haround := layerAround_records head .tiles
        (table placedTile placed ++ Word.bytes32 width ++ Word.bytes32 height)
      rw [List.length_append, List.length_append, length_table] at haround
      rw [Layer.records, layer]
      omega
  | .image head image position => by
      have haround := layerAround_records head .image (text image ++ point position)
      rw [List.length_append, length_point] at haround
      rw [Layer.records, layer]
      omega
  | .objects head items => by
      have hitems := total_le fun o (_ : o ∈ items) => object_records o
      have haround := layerAround_records head .objects (table object items)
      rw [length_table] at haround
      rw [Layer.records, layer]
      omega
  | .group head members => by
      have hmembers := eachLayer_records members
      have haround := layerAround_records head .group (count members.length ++ eachLayer members)
      rw [List.length_append] at haround
      rw [Layer.records, layer]
      omega

theorem eachLayer_records : (ls : List Layer) →
    8 * Layer.recordsAmong ls ≤ (eachLayer ls).length
  | [] => Nat.zero_le _
  | l :: ls => by
      have hfirst := layer_records l
      have hothers := eachLayer_records ls
      rw [Layer.recordsAmong, eachLayer, List.length_append]
      omega

end

theorem map_records (m : Map) : 8 * m.records ≤ (map m).length := by
  have hproperties := properties_records m.properties
  have htilesets := total_le fun t (_ : t ∈ m.tilesets) => tileset_records t
  have hlayers := eachLayer_records m.layers
  rw [eachLayer_eq] at hlayers
  simp only [Map.records, map, List.length_append, length_table]
  omega

end Layout

end Baked

end TileKiln
