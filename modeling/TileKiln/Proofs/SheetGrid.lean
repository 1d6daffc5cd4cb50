import Mathlib.Algebra.Order.Floor.Div
import TileKiln.Asset.Tileset
import TileKiln.Proofs.CheckedWords

namespace TileKiln

namespace Strip

open Word

variable {s : Strip} {i j x : Nat} {k first last : UInt32}

def pitch (s : Strip) : Nat := s.size.toNat + s.spacing.toNat

def start (s : Strip) (i : Nat) : Nat := s.margin.toNat + i * s.pitch

def Covers (s : Strip) (i x : Nat) : Prop :=
  s.start i ≤ x ∧ x < s.start i + s.size.toNat

/-- Whether everything on the way to a cell is a word. -/
def Fits (s : Strip) (i : Nat) : Prop :=
  s.pitch < UInt32.size ∧ s.start i + s.size.toNat < UInt32.size

theorem start_mono (h : i ≤ j) : s.start i ≤ s.start j :=
  Nat.add_le_add_left (Nat.mul_le_mul_right _ h) _

theorem start_succ (i : Nat) : s.start (i + 1) = s.start i + s.pitch := by
  rw [start, start, Nat.succ_mul, Nat.add_assoc]

/-- A cell ends before the later ones begin. -/
theorem end_le_start (h : i < j) : s.start i + s.size.toNat ≤ s.start j :=
  calc s.start i + s.size.toNat
    _ ≤ s.start i + s.pitch := Nat.add_le_add_left (Nat.le_add_right _ _) _
    _ = s.start (i + 1) := (start_succ i).symm
    _ ≤ s.start j := start_mono h

theorem margin_le_start (i : Nat) : s.margin.toNat ≤ s.start i :=
  Nat.le_add_right _ _

/-- No place lies in two cells. -/
theorem Covers.unique (hi : s.Covers i x) (hj : s.Covers j x) : i = j := by
  rcases Nat.lt_trichotomy i j with hlt | heq | hlt
  · exact absurd hi.2 (Nat.not_lt.2 (Nat.le_trans (end_le_start hlt) hj.1))
  · exact heq
  · exact absurd hj.2 (Nat.not_lt.2 (Nat.le_trans (end_le_start hlt) hi.1))

theorem Fits.of_le (h : s.Fits j) (hle : i ≤ j) : s.Fits i :=
  ⟨h.1, Nat.lt_of_le_of_lt (Nat.add_le_add_right (start_mono hle) _) h.2⟩

/-- All cells fit that lie before a place which is a word. -/
theorem fits_of_lt (h : s.start j < UInt32.size) (hlt : i < j) : s.Fits i := by
  refine ⟨?_, Nat.lt_of_le_of_lt (end_le_start hlt) h⟩
  calc s.pitch
    _ ≤ s.start i + s.pitch := Nat.le_add_left _ _
    _ = s.start (i + 1) := (start_succ i).symm
    _ ≤ s.start j := start_mono hlt
    _ < UInt32.size := h

theorem span?_eq_some_iff :
    s.span? k = some (first, last) ↔
      s.pitch < UInt32.size ∧ first.toNat = s.start k.toNat ∧
        last.toNat = s.start k.toNat + s.size.toNat := by
  simp only [span?, Option.bind_eq_bind, Option.bind_eq_some_iff, Option.pure_def,
    Option.some.injEq, Prod.mk.injEq, add32?_eq_some_iff, mul32?_eq_some_iff]
  constructor
  · rintro ⟨pitch, hpitch, offset, hoffset, _, hfirst, _, hlast, rfl, rfl⟩
    have hpitch' : pitch.toNat = s.pitch := hpitch
    have hstart : s.start k.toNat = s.margin.toNat + offset.toNat := by rw [start, hoffset, hpitch']
    rw [hstart, ← hfirst]
    exact ⟨hpitch' ▸ pitch.toNat_lt, rfl, hlast⟩
  · rintro ⟨hpitch, hfirst, hlast⟩
    have hoffset : k.toNat * s.pitch < UInt32.size := by
      have hlt : first.toNat < UInt32.size := first.toNat_lt
      rw [hfirst, start] at hlt
      omega
    obtain ⟨pitch, hpitch'⟩ := exists_toNat32_eq hpitch
    obtain ⟨offset, hoffset'⟩ := exists_toNat32_eq hoffset
    refine ⟨pitch, hpitch', offset, by rw [hoffset', hpitch'], first, ?_, last, ?_, rfl, rfl⟩
    · rw [hfirst, start, hoffset']
    · rw [hlast, hfirst]

theorem isSome_span?_iff : (s.span? k).isSome ↔ s.Fits k.toNat := by
  rw [Option.isSome_iff_exists]
  constructor
  · rintro ⟨⟨first, last⟩, h⟩
    obtain ⟨hpitch, _, hlast⟩ := span?_eq_some_iff.1 h
    exact ⟨hpitch, hlast ▸ last.toNat_lt⟩
  · rintro ⟨hpitch, hend⟩
    obtain ⟨first, hfirst⟩ := exists_toNat32_eq (Nat.lt_of_le_of_lt (Nat.le_add_right _ _) hend)
    obtain ⟨last, hlast⟩ := exists_toNat32_eq hend
    exact ⟨(first, last), span?_eq_some_iff.2 ⟨hpitch, hfirst, hlast⟩⟩

end Strip

namespace Box

/-- The pixels of a rectangle; its greatest corner lies outside. -/
def Has (box : Box UInt32) (x y : Nat) : Prop :=
  (box.minX.toNat ≤ x ∧ x < box.maxX.toNat) ∧ box.minY.toNat ≤ y ∧ y < box.maxY.toNat

def Measures (box : Box UInt32) (extent : Extent) : Prop :=
  box.maxX.toNat = box.minX.toNat + extent.width.toNat ∧
    box.maxY.toNat = box.minY.toNat + extent.height.toNat

def Within (box : Box UInt32) (left top right bottom : Nat) : Prop :=
  (left ≤ box.minX.toNat ∧ box.maxX.toNat ≤ right) ∧
    top ≤ box.minY.toNat ∧ box.maxY.toNat ≤ bottom

theorem ofCorners_of_le {x y x' y' : UInt32} (hx : x ≤ x') (hy : y ≤ y') :
    ofCorners x y x' y' = ⟨x, y, x', y'⟩ := by
  simp only [ofCorners, UInt32.min_def, UInt32.max_def, if_pos hx, if_pos hy]

end Box

namespace Baked.Tileset

open Word

variable {t : Tileset} {id : UInt32} {found : Option (Box UInt32)} {box box' : Box UInt32}
  {column column' row row' n x y : Nat}

def rows (t : Tileset) : Nat := t.tileCount.toNat ⌈/⌉ t.columns.toNat

structure Occupies (t : Tileset) (column row : Nat) (box : Box UInt32) : Prop where
  minX : box.minX.toNat = t.across.start column
  maxX : box.maxX.toNat = t.across.start column + t.tileWidth.toNat
  minY : box.minY.toNat = t.down.start row
  maxY : box.maxY.toNat = t.down.start row + t.tileHeight.toNat

def checkedGridSize? (t : Tileset) : Option Extent :=
  if t.columns = 0 then some .zero
  else
    let full := t.tileCount / t.columns
    if t.tileCount % t.columns = 0 then some ⟨t.columns, full⟩
    else (add32? full 1).map (⟨t.columns, ·⟩)

section

variable (hcolumns : t.columns ≠ 0)

include hcolumns

theorem toNat_columns_pos : 0 < t.columns.toNat :=
  Nat.pos_of_ne_zero fun h => hcolumns (UInt32.toNat_inj.1 h)

theorem rows_le_iff : t.rows ≤ n ↔ t.tileCount.toNat ≤ t.columns.toNat * n :=
  ceilDiv_le_iff_le_mul (toNat_columns_pos hcolumns)

/-- The rows are those that begin below the count. -/
theorem lt_rows_iff : row < t.rows ↔ t.columns.toNat * row < t.tileCount.toNat := by
  rw [← not_le, rows_le_iff hcolumns, not_le]

theorem row_lt_rows (hid : id < t.tileCount) : (id / t.columns).toNat < t.rows := by
  rw [lt_rows_iff hcolumns, UInt32.toNat_div]
  exact Nat.lt_of_le_of_lt (Nat.mul_div_le _ _) (UInt32.lt_iff_toNat_lt.1 hid)

theorem column_lt_columns : (id % t.columns).toNat < t.columns.toNat := by
  rw [UInt32.toNat_mod]
  exact Nat.mod_lt _ (toNat_columns_pos hcolumns)

theorem rows_of_mod_eq (h : t.tileCount % t.columns = 0) :
    t.rows = (t.tileCount / t.columns).toNat := by
  rw [← UInt32.toNat_inj, UInt32.toNat_mod] at h
  rw [UInt32.toNat_div]
  apply le_antisymm
  · rw [rows_le_iff hcolumns, Nat.mul_div_cancel' (Nat.dvd_of_mod_eq_zero h)]
  · exact Nat.div_le_of_le_mul ((rows_le_iff hcolumns).1 le_rfl)

theorem rows_of_mod_ne (h : t.tileCount % t.columns ≠ 0) :
    t.rows = (t.tileCount / t.columns).toNat + 1 := by
  rw [ne_eq, ← UInt32.toNat_inj, UInt32.toNat_mod] at h
  have hdiv := Nat.div_add_mod t.tileCount.toNat t.columns.toNat
  rw [UInt32.toNat_div]
  apply le_antisymm
  · rw [rows_le_iff hcolumns, Nat.mul_add, Nat.mul_one]
    have hmod := Nat.mod_lt t.tileCount.toNat (toNat_columns_pos hcolumns)
    omega
  · rw [Nat.succ_le_iff, lt_rows_iff hcolumns]
    have hpos := Nat.pos_of_ne_zero h
    omega

theorem toNat_height_gridSize : t.gridSize.height.toNat = t.rows := by
  rw [gridSize, if_neg hcolumns]
  dsimp only
  split
  next h => exact (rows_of_mod_eq hcolumns h).symm
  next h =>
    have hrows := rows_of_mod_ne hcolumns h
    have hle : t.rows ≤ t.tileCount.toNat :=
      (rows_le_iff hcolumns).2 (Nat.le_mul_of_pos_left _ (toNat_columns_pos hcolumns))
    have hlt : (t.tileCount / t.columns).toNat + 1 < UInt32.size :=
      Nat.lt_of_le_of_lt (hrows ▸ hle) t.tileCount.toNat_lt
    rw [hrows, UInt32.toNat_add]
    exact Nat.mod_eq_of_lt hlt

end

/-- The grid of every sheet is told without a sum that wraps. -/
theorem checkedGridSize?_eq (t : Tileset) : t.checkedGridSize? = some t.gridSize := by
  by_cases hcolumns : t.columns = 0
  · rw [checkedGridSize?, if_pos hcolumns, gridSize, if_pos hcolumns]
  · have hheight := toNat_height_gridSize hcolumns
    rw [gridSize, if_neg hcolumns] at hheight ⊢
    rw [checkedGridSize?, if_neg hcolumns]
    by_cases hmod : t.tileCount % t.columns = 0
    · simp only [if_pos hmod]
    · simp only [if_neg hmod] at hheight ⊢
      rw [rows_of_mod_ne hcolumns hmod] at hheight
      rw [add32?_eq_some_iff.2 hheight, Option.map_some]

theorem tileBox?_of_none (h : t.columns = 0 ∨ t.tileCount ≤ id) : t.tileBox? id = some none := by
  refine if_pos ?_
  simpa using h

section

variable (hcolumns : t.columns ≠ 0) (hid : id < t.tileCount)

include hcolumns hid

theorem tileBox?_eq_some_iff :
    t.tileBox? id = some found ↔
      ∃ left right top bottom, t.across.span? (id % t.columns) = some (left, right) ∧
        t.down.span? (id / t.columns) = some (top, bottom) ∧
        some (.ofCorners left top right bottom) = found := by
  have hsome : ¬ (decide (t.columns = 0) || decide (t.tileCount ≤ id)) = true := by
    simpa [hcolumns] using hid
  rw [tileBox?, if_neg hsome]
  simp [Option.bind_eq_some_iff]

theorem isSome_tileBox?_iff_fits :
    (t.tileBox? id).isSome ↔
      t.across.Fits (id % t.columns).toNat ∧ t.down.Fits (id / t.columns).toNat := by
  simp only [← Strip.isSome_span?_iff, Option.isSome_iff_exists,
    tileBox?_eq_some_iff hcolumns hid, Prod.exists]
  constructor
  · rintro ⟨_, left, right, top, bottom, hx, hy, _⟩
    exact ⟨⟨left, right, hx⟩, top, bottom, hy⟩
  · rintro ⟨⟨left, right, hx⟩, top, bottom, hy⟩
    exact ⟨_, left, right, top, bottom, hx, hy, rfl⟩

theorem isSome_of_tileBox? (h : t.tileBox? id = some found) : found.isSome := by
  obtain ⟨_, _, _, _, _, _, rfl⟩ := (tileBox?_eq_some_iff hcolumns hid).1 h
  rfl

end

theorem mem_of_tileBox? (h : t.tileBox? id = some (some box)) :
    t.columns ≠ 0 ∧ id < t.tileCount := by
  by_contra hnone
  rw [not_and_or, not_not, UInt32.not_lt] at hnone
  rw [tileBox?_of_none hnone] at h
  cases h

theorem occupies_of_tileBox? (h : t.tileBox? id = some (some box)) :
    t.Occupies (id % t.columns).toNat (id / t.columns).toNat box := by
  obtain ⟨hcolumns, hid⟩ := mem_of_tileBox? h
  obtain ⟨left, right, top, bottom, hx, hy, h⟩ := (tileBox?_eq_some_iff hcolumns hid).1 h
  obtain ⟨_, hleft, hright⟩ := Strip.span?_eq_some_iff.1 hx
  obtain ⟨_, htop, hbottom⟩ := Strip.span?_eq_some_iff.1 hy
  have hacross : left ≤ right := UInt32.le_iff_toNat_le.2 (by omega)
  have hdown : top ≤ bottom := UInt32.le_iff_toNat_le.2 (by omega)
  rw [Box.ofCorners_of_le hacross hdown] at h
  cases h
  exact ⟨hleft, hright, htop, hbottom⟩

/-- A tile is told exactly if everything on the way to its column and to its row is a word. -/
theorem isSome_tileBox?_iff :
    (t.tileBox? id).isSome ↔
      (t.columns ≠ 0 → id < t.tileCount →
        t.across.Fits (id % t.columns).toNat ∧ t.down.Fits (id / t.columns).toNat) := by
  by_cases hnone : t.columns = 0 ∨ t.tileCount ≤ id
  · rw [tileBox?_of_none hnone]
    refine iff_of_true rfl fun hcolumns hid => ?_
    rcases hnone with hzero | hcount
    · exact absurd hzero hcolumns
    · exact absurd hid (UInt32.not_lt.2 hcount)
  · rw [not_or, UInt32.not_le] at hnone
    obtain ⟨hcolumns, hid⟩ := hnone
    rw [isSome_tileBox?_iff_fits hcolumns hid]
    exact ⟨fun h _ _ => h, fun h => h hcolumns hid⟩

namespace Occupies

theorem measures (h : t.Occupies column row box) : box.Measures t.tileSize := by
  refine ⟨?_, ?_⟩
  · rw [h.maxX, h.minX]
    rfl
  · rw [h.maxY, h.minY]
    rfl

theorem within (h : t.Occupies column row box) (hcolumn : column < column') (hrow : row < row') :
    box.Within t.margin.toNat t.margin.toNat (t.across.start column') (t.down.start row') := by
  refine ⟨⟨?_, ?_⟩, ?_, ?_⟩
  · rw [h.minX]
    exact t.across.margin_le_start column
  · rw [h.maxX]
    exact Strip.end_le_start hcolumn
  · rw [h.minY]
    exact t.down.margin_le_start row
  · rw [h.maxY]
    exact Strip.end_le_start hrow

theorem has_iff (h : t.Occupies column row box) :
    box.Has x y ↔ t.across.Covers column x ∧ t.down.Covers row y := by
  rw [Box.Has, h.minX, h.maxX, h.minY, h.maxY]
  rfl

theorem unique_of_has (h : t.Occupies column row box) (h' : t.Occupies column' row' box')
    (hhas : box.Has x y) (hhas' : box'.Has x y) : column = column' ∧ row = row' := by
  rw [h.has_iff] at hhas
  rw [h'.has_iff] at hhas'
  exact ⟨hhas.1.unique hhas'.1, hhas.2.unique hhas'.2⟩

end Occupies

/-- An id is told by its column and its row. -/
theorem eq_of_column_of_row {id id' : UInt32} (hcolumn : id % t.columns = id' % t.columns)
    (hrow : id / t.columns = id' / t.columns) : id = id' := by
  rw [← UInt32.toNat_inj] at hcolumn hrow ⊢
  rw [UInt32.toNat_mod, UInt32.toNat_mod] at hcolumn
  rw [UInt32.toNat_div, UInt32.toNat_div] at hrow
  rw [← Nat.div_add_mod id.toNat t.columns.toNat, hcolumn, hrow, Nat.div_add_mod]

/-- Where the ends of the grid are words, so is everything on the way to a tile. -/
theorem exists_tileBox?_of_grid (hcolumns : t.columns ≠ 0)
    (hwidth : t.across.start t.columns.toNat < UInt32.size)
    (hheight : t.down.start t.rows < UInt32.size) (id : UInt32) :
    ∃ found, t.tileBox? id = some found ∧ (found.isSome ↔ id < t.tileCount) := by
  by_cases hid : id < t.tileCount
  · have hacross : t.across.Fits (id % t.columns).toNat :=
      Strip.fits_of_lt hwidth (column_lt_columns hcolumns)
    have hdown := Strip.fits_of_lt hheight (row_lt_rows hcolumns hid)
    obtain ⟨found, hfound⟩ :=
      Option.isSome_iff_exists.1 ((isSome_tileBox?_iff_fits hcolumns hid).2 ⟨hacross, hdown⟩)
    exact ⟨found, hfound, iff_of_true (isSome_of_tileBox? hcolumns hid hfound) hid⟩
  · exact ⟨none, tileBox?_of_none (.inr (UInt32.not_lt.1 hid)), iff_of_false Bool.false_ne_true hid⟩

/-- Let a sheet have columns, and let its last column and its last row, with the gaps after them, end
at words. Then nothing on the way to its grid or to a tile leaves the words; there is a rectangle for
each id below the count and for no other. It measures as much as a tile and lies within the grid, and
no pixel is in the rectangles of two tiles, whatever the sizes are and even if the last row is not
full. -/
theorem tileBox?_of_grid (hcolumns : t.columns ≠ 0)
    (hwidth : t.across.start t.columns.toNat < UInt32.size)
    (hheight : t.down.start t.rows < UInt32.size) :
    t.checkedGridSize? = some t.gridSize ∧ t.gridSize.height.toNat = t.rows ∧
    (∀ id, ∃ found, t.tileBox? id = some found ∧ (found.isSome ↔ id < t.tileCount)) ∧
    (∀ id box, t.tileBox? id = some (some box) → box.Measures t.tileSize ∧
      box.Within t.margin.toNat t.margin.toNat (t.across.start t.columns.toNat)
        (t.down.start t.rows)) ∧
    ∀ id id' box box', id ≠ id' → t.tileBox? id = some (some box) →
      t.tileBox? id' = some (some box') → ∀ x y, box.Has x y → ¬ box'.Has x y := by
  refine ⟨checkedGridSize?_eq t, toNat_height_gridSize hcolumns,
    exists_tileBox?_of_grid hcolumns hwidth hheight, ?_, ?_⟩
  · intro id box h
    have hbox := occupies_of_tileBox? h
    obtain ⟨_, hid⟩ := mem_of_tileBox? h
    exact ⟨hbox.measures, hbox.within (column_lt_columns hcolumns) (row_lt_rows hcolumns hid)⟩
  · intro id id' box box' hne h h' x y hhas hhas'
    obtain ⟨hcolumn, hrow⟩ :=
      (occupies_of_tileBox? h).unique_of_has (occupies_of_tileBox? h') hhas hhas'
    exact hne (eq_of_column_of_row (UInt32.toNat_inj.1 hcolumn) (UInt32.toNat_inj.1 hrow))

def sampleSheet : Tileset :=
  { (default : Tileset) with
    image := "cave", firstGid := 1, tileWidth := 16, tileHeight := 16, spacing := 2, margin := 1,
    columns := 4, tileCount := 10 }

/-- Two tiles of the second row, and the first id beyond the last, which is not full. -/
theorem tileBox?_of_grid_sample :
    sampleSheet.columns ≠ 0 ∧
    sampleSheet.across.start sampleSheet.columns.toNat < UInt32.size ∧
    sampleSheet.down.start sampleSheet.rows < UInt32.size ∧
    sampleSheet.gridSize.height.toNat = 3 ∧ sampleSheet.tileBox? 10 = some none ∧
    (5 : UInt32) ≠ 6 ∧ sampleSheet.tileBox? 5 = some (some ⟨19, 19, 35, 35⟩) ∧
    sampleSheet.tileBox? 6 = some (some ⟨37, 19, 53, 35⟩) ∧
    (Box.mk 19 19 35 35 : Box UInt32).Measures sampleSheet.tileSize ∧
    ∀ x y, (Box.mk 19 19 35 35 : Box UInt32).Has x y →
      ¬ (Box.mk 37 19 53 35 : Box UInt32).Has x y := by
  have hcolumns : sampleSheet.columns ≠ 0 := by decide
  have hwidth : sampleSheet.across.start sampleSheet.columns.toNat < UInt32.size := by decide
  have hheight : sampleSheet.down.start sampleSheet.rows < UInt32.size := by decide
  have hfifth : sampleSheet.tileBox? 5 = some (some ⟨19, 19, 35, 35⟩) := by decide
  have hsixth : sampleSheet.tileBox? 6 = some (some ⟨37, 19, 53, 35⟩) := by decide
  obtain ⟨_, hrows, htold, hwithin, hapart⟩ := tileBox?_of_grid hcolumns hwidth hheight
  obtain ⟨found, hfound, hsome⟩ := htold 10
  obtain rfl : found = none := by
    rw [← Option.not_isSome_iff_eq_none, hsome]
    decide
  exact ⟨hcolumns, hwidth, hheight, hrows.trans (by decide), hfound, by decide, hfifth, hsixth,
    (hwithin 5 _ hfifth).1, hapart 5 6 _ _ (by decide) hfifth hsixth⟩

end Baked.Tileset

end TileKiln
