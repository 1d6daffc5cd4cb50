import TileKiln.PaintOrder

namespace TileKiln

def Horizontal.Before : Horizontal → UInt32 → UInt32 → Prop
  | right, x, x' => x < x'
  | left, x, x' => x' < x

def Vertical.Before : Vertical → UInt32 → UInt32 → Prop
  | down, y, y' => y < y'
  | up, y, y' => y' < y

namespace PlacedTile

variable {width height : UInt32} {grid : List UInt32} {a b : PlacedTile}

def cell (width : UInt32) (tile : PlacedTile) : Nat :=
  tile.y.toNat * width.toNat + tile.x.toNat

structure Shows (tile : PlacedTile) (width height : UInt32) (grid : List UInt32) : Prop where
  column : tile.x < width
  row : tile.y < height
  filled : tile.gid ≠ 0
  gid : grid[tile.cell width]? = some tile.gid

theorem div_cell (h : a.x < width) : a.cell width / width.toNat = a.y.toNat := by
  have hx : a.x.toNat < width.toNat := UInt32.lt_iff_toNat_lt.1 h
  have hwidth : 0 < width.toNat := by omega
  rw [cell, Nat.mul_comm, Nat.mul_add_div hwidth, Nat.div_eq_of_lt hx, Nat.add_zero]

theorem mod_cell (h : a.x < width) : a.cell width % width.toNat = a.x.toNat := by
  have hx : a.x.toNat < width.toNat := UInt32.lt_iff_toNat_lt.1 h
  rw [cell, Nat.mul_comm, Nat.mul_add_mod, Nat.mod_eq_of_lt hx]

/-- Every cell that is not empty has a tile. -/
theorem exists_shows (hgrid : grid.length = width.toNat * height.toNat) {i : Nat} {gid : UInt32}
    (hcell : grid[i]? = some gid) (hgid : gid ≠ 0) :
    ∃ tile : PlacedTile, tile.Shows width height grid ∧ tile.cell width = i ∧ tile.gid = gid := by
  obtain ⟨hi, _⟩ := List.getElem?_eq_some_iff.1 hcell
  rw [hgrid] at hi
  have hwidth : 0 < width.toNat := Nat.pos_of_lt_mul_right hi
  have hx : i % width.toNat < width.toNat := Nat.mod_lt i hwidth
  have hy : i / width.toNat < height.toNat := Nat.div_lt_of_lt_mul hi
  have hx' : (UInt32.ofNat (i % width.toNat)).toNat = i % width.toNat :=
    UInt32.toNat_ofNat_of_lt' (Nat.lt_trans hx width.toNat_lt)
  have hy' : (UInt32.ofNat (i / width.toNat)).toNat = i / width.toNat :=
    UInt32.toNat_ofNat_of_lt' (Nat.lt_trans hy height.toNat_lt)
  let tile : PlacedTile := ⟨gid, UInt32.ofNat (i % width.toNat), UInt32.ofNat (i / width.toNat)⟩
  have hplace : tile.cell width = i := by
    rw [cell, hx', hy', Nat.mul_comm, Nat.div_add_mod]
  refine ⟨tile, ⟨?_, ?_, hgid, hplace ▸ hcell⟩, hplace, rfl⟩
  · rw [UInt32.lt_iff_toNat_lt, hx']
    exact hx
  · rw [UInt32.lt_iff_toNat_lt, hy']
    exact hy

end PlacedTile

namespace PaintOrder

variable {order : PaintOrder} {width height : UInt32} {grid : List UInt32} {tile : PlacedTile}

/-- Row by row, and within a row column by column. -/
def Before : PaintOrder → PlacedTile → PlacedTile → Prop
  | rightDown, a, b => a.y < b.y ∨ a.y = b.y ∧ a.x < b.x
  | rightUp, a, b => b.y < a.y ∨ a.y = b.y ∧ a.x < b.x
  | leftDown, a, b => a.y < b.y ∨ a.y = b.y ∧ b.x < a.x
  | leftUp, a, b => b.y < a.y ∨ a.y = b.y ∧ b.x < a.x

theorem before_iff {a b : PlacedTile} :
    order.Before a b ↔
      order.vertical.Before a.y b.y ∨ a.y = b.y ∧ order.horizontal.Before a.x b.x := by
  cases order <;> rfl

def place (width : UInt32) (grid : List UInt32) (tiles : List PlacedTile) : List UInt32 :=
  tiles.foldl (fun grid tile => grid.set (tile.cell width) tile.gid) grid

theorem rows_of_no_width (height y : Nat) (cells : List UInt32) : rows 0 height y cells = [] := by
  cases height with
  | zero => rfl
  | succ height => exact if_neg fun h => Nat.lt_irrefl 0 h.1

theorem rows_eq {width height y : Nat} {cells : List UInt32} (hwidth : 0 < width)
    (hcells : cells.length = width * height) :
    rows width height y cells =
      (List.range height).map fun i => (y + i, (cells.drop (width * i)).take width) := by
  induction height generalizing y cells with
  | zero => rfl
  | succ height ih =>
      rw [Nat.mul_succ] at hcells
      have hrest : (cells.drop width).length = width * height := by
        rw [List.length_drop]
        omega
      rw [rows, if_pos ⟨hwidth, by omega⟩, ih hrest, List.range_succ_eq_map, List.map_cons,
        List.map_map]
      congr 1
      apply List.map_congr_left
      intro i _
      have hnumber : y + 1 + i = y + (i + 1) := by omega
      have hstart : width + width * i = width * (i + 1) := by rw [Nat.mul_succ, Nat.add_comm]
      rw [List.drop_drop, Function.comp_apply, hnumber, hstart]

theorem mem_rows {width height y : Nat} {cells : List UInt32} (hcells : cells.length = width * height)
    {entry : Nat × List UInt32} :
    entry ∈ rows width height y cells ↔
      0 < width ∧ ∃ i < height, entry = (y + i, (cells.drop (width * i)).take width) := by
  rcases Nat.eq_zero_or_pos width with rfl | hwidth
  · rw [rows_of_no_width]
    exact ⟨fun h => absurd h List.not_mem_nil, fun h => absurd h.1 (Nat.lt_irrefl 0)⟩
  · rw [rows_eq hwidth hcells, List.mem_map, and_iff_right hwidth]
    simp only [List.mem_range, eq_comm]

theorem pairwise_rows {width height y : Nat} {cells : List UInt32}
    (hcells : cells.length = width * height) :
    (rows width height y cells).Pairwise fun a b => a.1 < b.1 := by
  rcases Nat.eq_zero_or_pos width with rfl | hwidth
  · rw [rows_of_no_width]
    exact List.Pairwise.nil
  · rw [rows_eq hwidth hcells, List.pairwise_map]
    exact List.pairwise_lt_range.imp fun h => Nat.add_lt_add_left h y

theorem mem_placeRow {y : Nat} {row : List UInt32} :
    tile ∈ placeRow y row ↔
      tile.y = UInt32.ofNat y ∧ tile.gid ≠ 0 ∧
        ∃ x, row[x]? = some tile.gid ∧ tile.x = UInt32.ofNat x := by
  rw [placeRow, List.mem_map]
  constructor
  · rintro ⟨⟨gid, x⟩, hentry, rfl⟩
    obtain ⟨hcell, hgid⟩ := List.mem_filter.1 hentry
    exact ⟨rfl, bne_iff_ne.1 hgid, x, List.mem_zipIdx_iff_getElem?.1 hcell, rfl⟩
  · rintro ⟨hy, hgid, x, hcell, hx⟩
    refine ⟨(tile.gid, x), List.mem_filter.2 ⟨?_, bne_iff_ne.2 hgid⟩, ?_⟩
    · exact List.mem_zipIdx_iff_getElem?.2 hcell
    · change PlacedTile.mk tile.gid (UInt32.ofNat x) (UInt32.ofNat y) = tile
      rw [← hy, ← hx]

/-- A row that is no longer than the columns have numbers is placed from left to right. -/
theorem pairwise_placeRow {y : Nat} {row : List UInt32} (h : row.length ≤ UInt32.size) :
    (placeRow y row).Pairwise fun a b => a.x < b.x := by
  have hindex : row.zipIdx.Pairwise fun a b => a.2 < b.2 := by
    rw [← List.pairwise_map (f := Prod.snd) (R := fun i j => i < j), List.zipIdx_map_snd]
    exact List.pairwise_lt_range'
  rw [placeRow, List.pairwise_map]
  refine (hindex.filter _).imp_of_mem ?_
  rintro ⟨gid, x⟩ ⟨gid', x'⟩ _ hmem hlt
  have hx' : x' < row.length := by
    have hcell := List.mem_zipIdx_iff_getElem?.1 (List.mem_filter.1 hmem).1
    exact (List.getElem?_eq_some_iff.1 hcell).1
  have hx : x < x' := hlt
  rw [UInt32.lt_iff_toNat_lt, UInt32.toNat_ofNat_of_lt' (by omega),
    UInt32.toNat_ofNat_of_lt' (by omega)]
  exact hx

def paintedRows (order : PaintOrder) (width height : UInt32) (grid : List UInt32) :
    List (List PlacedTile) :=
  (rows width.toNat height.toNat 0 grid).map fun entry => order.directRow (placeRow entry.1 entry.2)

theorem sequence_of_down (h : order.vertical = .down) :
    order.sequence width height grid = (order.paintedRows width height grid).flatten := by
  rw [sequence, h]
  rfl

theorem sequence_of_up (h : order.vertical = .up) :
    order.sequence width height grid = (order.paintedRows width height grid).reverse.flatten := by
  rw [sequence, h]
  rfl

theorem mem_directRow {tiles : List PlacedTile} : tile ∈ order.directRow tiles ↔ tile ∈ tiles := by
  rw [directRow]
  cases order.horizontal with
  | right => rfl
  | left => exact List.mem_reverse

theorem mem_sequence :
    tile ∈ order.sequence width height grid ↔
      ∃ entry ∈ rows width.toNat height.toNat 0 grid, tile ∈ placeRow entry.1 entry.2 := by
  have hpainted : tile ∈ (order.paintedRows width height grid).flatten ↔
      ∃ entry ∈ rows width.toNat height.toNat 0 grid, tile ∈ placeRow entry.1 entry.2 := by
    rw [paintedRows, List.mem_flatten]
    constructor
    · rintro ⟨tiles, htiles, htile⟩
      obtain ⟨entry, hentry, rfl⟩ := List.mem_map.1 htiles
      exact ⟨entry, hentry, mem_directRow.1 htile⟩
    · rintro ⟨entry, hentry, htile⟩
      exact ⟨_, List.mem_map_of_mem hentry, mem_directRow.2 htile⟩
  cases hvertical : order.vertical with
  | down => rw [sequence_of_down hvertical, hpainted]
  | up =>
      rw [sequence_of_up hvertical, ← hpainted, List.mem_flatten, List.mem_flatten]
      simp only [List.mem_reverse]

section

variable (hgrid : grid.length = width.toNat * height.toNat)

include hgrid

theorem mem_sequence_iff : tile ∈ order.sequence width height grid ↔ tile.Shows width height grid := by
  rw [mem_sequence]
  constructor
  · rintro ⟨entry, hentry, htile⟩
    obtain ⟨_, y, hy, rfl⟩ := (mem_rows hgrid).1 hentry
    obtain ⟨hrow, hfilled, x, hcell, hcolumn⟩ := mem_placeRow.1 htile
    dsimp only at hrow hcell
    rw [List.getElem?_take] at hcell
    split at hcell
    next hx =>
      have hx' : tile.x.toNat = x := by
        rw [hcolumn, UInt32.toNat_ofNat_of_lt' (Nat.lt_trans hx width.toNat_lt)]
      have hy' : tile.y.toNat = y := by
        rw [hrow, Nat.zero_add, UInt32.toNat_ofNat_of_lt' (Nat.lt_trans hy height.toNat_lt)]
      refine ⟨UInt32.lt_iff_toNat_lt.2 (hx' ▸ hx), UInt32.lt_iff_toNat_lt.2 (hy' ▸ hy), hfilled, ?_⟩
      rw [PlacedTile.cell, hx', hy', Nat.mul_comm, ← List.getElem?_drop]
      exact hcell
    next => cases hcell
  · intro h
    have hx : tile.x.toNat < width.toNat := UInt32.lt_iff_toNat_lt.1 h.column
    have hy : tile.y.toNat < height.toNat := UInt32.lt_iff_toNat_lt.1 h.row
    have hgid := h.gid
    rw [PlacedTile.cell, Nat.mul_comm, ← List.getElem?_drop, ← List.getElem?_take_of_lt hx] at hgid
    refine ⟨_, (mem_rows hgrid).2 ⟨by omega, tile.y.toNat, hy, rfl⟩, mem_placeRow.2 ?_⟩
    refine ⟨?_, h.filled, tile.x.toNat, hgid, UInt32.ofNat_toNat.symm⟩
    rw [Nat.zero_add, UInt32.ofNat_toNat]

/-- A row of the grid is painted in the horizontal direction. -/
theorem pairwise_of_mem_paintedRows {tiles : List PlacedTile}
    (h : tiles ∈ order.paintedRows width height grid) : tiles.Pairwise order.Before := by
  obtain ⟨entry, hentry, rfl⟩ := List.mem_map.1 h
  obtain ⟨_, y, _, rfl⟩ := (mem_rows hgrid).1 hentry
  have hwidth : ((grid.drop (width.toNat * y)).take width.toNat).length ≤ UInt32.size :=
    Nat.le_trans (List.length_take_le _ _) (Nat.le_of_lt width.toNat_lt)
  have hrow := (pairwise_placeRow (y := 0 + y) hwidth).imp_of_mem
    (S := fun a b => a.y = b.y ∧ a.x < b.x) fun ha hb hlt =>
      ⟨(mem_placeRow.1 ha).1.trans (mem_placeRow.1 hb).1.symm, hlt⟩
  cases hhorizontal : order.horizontal with
  | right =>
      rw [directRow, hhorizontal]
      refine hrow.imp fun h => before_iff.2 (.inr ?_)
      rw [hhorizontal]
      exact h
  | left =>
      rw [directRow, hhorizontal]
      refine List.pairwise_reverse.2 (hrow.imp fun h => before_iff.2 (.inr ?_))
      rw [hhorizontal]
      exact ⟨h.1.symm, h.2⟩

theorem pairwise_paintedRows (order : PaintOrder) :
    (order.paintedRows width height grid).Pairwise
      fun as bs => ∀ a ∈ as, ∀ b ∈ bs, a.y < b.y := by
  rw [paintedRows, List.pairwise_map]
  refine (pairwise_rows hgrid).imp_of_mem ?_
  intro upper lower hupper hlower hlt a ha b hb
  obtain ⟨_, y, hy, rfl⟩ := (mem_rows hgrid).1 hupper
  obtain ⟨_, y', hy', rfl⟩ := (mem_rows hgrid).1 hlower
  have hheight : height.toNat < UInt32.size := height.toNat_lt
  have ha' : a.y = UInt32.ofNat (0 + y) := (mem_placeRow.1 (mem_directRow.1 ha)).1
  have hb' : b.y = UInt32.ofNat (0 + y') := (mem_placeRow.1 (mem_directRow.1 hb)).1
  rw [ha', hb', UInt32.lt_iff_toNat_lt, UInt32.toNat_ofNat_of_lt' (by omega),
    UInt32.toNat_ofNat_of_lt' (by omega)]
  exact hlt

theorem pairwise_sequence (order : PaintOrder) :
    (order.sequence width height grid).Pairwise order.Before := by
  have hrows := pairwise_paintedRows hgrid order
  cases hvertical : order.vertical with
  | down =>
      rw [sequence_of_down hvertical, List.pairwise_flatten]
      refine ⟨fun tiles h => pairwise_of_mem_paintedRows hgrid h, hrows.imp ?_⟩
      intro as bs h a ha b hb
      refine before_iff.2 (.inl ?_)
      rw [hvertical]
      exact h a ha b hb
  | up =>
      rw [sequence_of_up hvertical, List.pairwise_flatten]
      refine ⟨fun tiles h => pairwise_of_mem_paintedRows hgrid (List.mem_reverse.1 h), ?_⟩
      refine List.pairwise_reverse.2 (hrows.imp ?_)
      intro as bs h a ha b hb
      refine before_iff.2 (.inl ?_)
      rw [hvertical]
      exact h b hb a ha

end

/-- If of two orders one goes down and the other up, and they paint rows in opposite directions, one
is the other backwards. -/
theorem sequence_eq_reverse (order backwards : PaintOrder) (hdown : order.vertical = .down)
    (hup : backwards.vertical = .up)
    (hrow : ∀ tiles, backwards.directRow tiles = (order.directRow tiles).reverse)
    (width height : UInt32) (grid : List UInt32) :
    backwards.sequence width height grid = (order.sequence width height grid).reverse := by
  have hrows : backwards.paintedRows width height grid =
      (order.paintedRows width height grid).map List.reverse := by
    rw [paintedRows, paintedRows, List.map_map]
    exact List.map_congr_left fun entry _ => hrow (placeRow entry.1 entry.2)
  rw [sequence_of_down hdown, sequence_of_up hup, hrows, List.reverse_flatten]

theorem Before.cell_ne {a b : PlacedTile} (h : order.Before a b) (ha : a.x < width)
    (hb : b.x < width) : a.cell width ≠ b.cell width := by
  intro hcell
  have hx : a.x = b.x := by
    rw [← UInt32.toNat_inj, ← PlacedTile.mod_cell ha, hcell, PlacedTile.mod_cell hb]
  have hy : a.y = b.y := by
    rw [← UInt32.toNat_inj, ← PlacedTile.div_cell ha, hcell, PlacedTile.div_cell hb]
  rcases before_iff.1 h with h | ⟨_, h⟩
  · rw [hy] at h
    cases hvertical : order.vertical with
    | down | up =>
        rw [hvertical] at h
        exact UInt32.lt_irrefl _ h
  · rw [hx] at h
    cases hhorizontal : order.horizontal with
    | right | left =>
        rw [hhorizontal] at h
        exact UInt32.lt_irrefl _ h

section

variable {tiles : List PlacedTile} {i : Nat}

theorem length_place : (place width grid tiles).length = grid.length := by
  induction tiles generalizing grid with
  | nil => rfl
  | cons tile tiles ih => exact ih.trans List.length_set

theorem getElem?_place_of_ne (h : ∀ tile ∈ tiles, tile.cell width ≠ i) :
    (place width grid tiles)[i]? = grid[i]? := by
  induction tiles generalizing grid with
  | nil => rfl
  | cons tile tiles ih =>
      rw [List.forall_mem_cons] at h
      exact (ih h.2).trans (List.getElem?_set_ne h.1)

theorem getElem?_place_of_mem
    (htiles : tiles.Pairwise fun a b => a.cell width ≠ b.cell width) (hmem : tile ∈ tiles)
    (hcell : tile.cell width < grid.length) :
    (place width grid tiles)[tile.cell width]? = some tile.gid := by
  induction tiles generalizing grid with
  | nil => exact absurd hmem List.not_mem_nil
  | cons first tiles ih =>
      rw [List.pairwise_cons] at htiles
      rcases List.mem_cons.1 hmem with rfl | hmem
      · refine Eq.trans ?_ (List.getElem?_set_self hcell)
        exact getElem?_place_of_ne fun other hother => (htiles.1 other hother).symm
      · exact ih htiles.2 hmem (by rwa [List.length_set])

end

/-- On an empty grid, the tiles of a grid give back the grid. -/
theorem place_sequence (hgrid : grid.length = width.toNat * height.toNat) (order : PaintOrder) :
    place width (List.replicate grid.length 0) (order.sequence width height grid) = grid := by
  have hcells : (order.sequence width height grid).Pairwise
      fun a b => a.cell width ≠ b.cell width :=
    (pairwise_sequence hgrid order).imp_of_mem fun ha hb h =>
      h.cell_ne ((mem_sequence_iff hgrid).1 ha).column ((mem_sequence_iff hgrid).1 hb).column
  apply List.ext_getElem?
  intro i
  cases hcell : grid[i]? with
  | none =>
      rw [List.getElem?_eq_none_iff, length_place, List.length_replicate]
      exact List.getElem?_eq_none_iff.1 hcell
  | some gid =>
      obtain ⟨hi, _⟩ := List.getElem?_eq_some_iff.1 hcell
      by_cases hgid : gid = 0
      · rw [getElem?_place_of_ne, List.getElem?_replicate, if_pos hi, hgid]
        rintro tile htile rfl
        have hshows := (mem_sequence_iff hgrid).1 htile
        rw [hshows.gid, hgid] at hcell
        exact hshows.filled (Option.some.inj hcell)
      · obtain ⟨tile, hshows, rfl, rfl⟩ := PlacedTile.exists_shows hgrid hcell hgid
        have hmem : tile ∈ order.sequence width height grid := (mem_sequence_iff hgrid).2 hshows
        exact getElem?_place_of_mem hcells hmem (by rwa [List.length_replicate])

/-- A grid places a tile for each cell that is not empty, once and with the id that the cell holds,
in the order in which they are painted. From these tiles alone the grid can be built again, and
opposite orders paint them backwards. -/
theorem sequence_of_grid (hgrid : grid.length = width.toNat * height.toNat) (order : PaintOrder) :
    (∀ tile, tile ∈ order.sequence width height grid ↔ tile.Shows width height grid) ∧
    (order.sequence width height grid).Nodup ∧
    (order.sequence width height grid).Pairwise order.Before ∧
    place width (List.replicate grid.length 0) (order.sequence width height grid) = grid ∧
    leftUp.sequence width height grid = (rightDown.sequence width height grid).reverse ∧
    leftDown.sequence width height grid = (rightUp.sequence width height grid).reverse := by
  refine ⟨fun tile => mem_sequence_iff hgrid, ?_, pairwise_sequence hgrid order,
    place_sequence hgrid order, ?_, ?_⟩
  · refine (pairwise_sequence hgrid order).imp_of_mem ?_
    rintro a b ha hb hbefore rfl
    have hcolumn := ((mem_sequence_iff hgrid).1 ha).column
    exact hbefore.cell_ne hcolumn hcolumn rfl
  · exact sequence_eq_reverse rightDown leftUp rfl rfl (fun tiles => rfl) width height grid
  · have hrightUp := sequence_eq_reverse leftDown rightUp rfl rfl
      (fun tiles => (List.reverse_reverse tiles).symm) width height grid
    rw [hrightUp, List.reverse_reverse]

def sampleGrid : List UInt32 := [1, 2, 0, 4, 0, 6]

/-- Two rows of three cells, painted from the lower right corner on. -/
theorem sequence_of_grid_sample :
    sampleGrid.length = (3 : UInt32).toNat * (2 : UInt32).toNat ∧
    leftUp.sequence 3 2 sampleGrid = [⟨6, 2, 1⟩, ⟨4, 0, 1⟩, ⟨2, 1, 0⟩, ⟨1, 0, 0⟩] ∧
    leftUp.Before ⟨4, 0, 1⟩ ⟨2, 1, 0⟩ ∧
    place 3 [0, 0, 0, 0, 0, 0] [⟨6, 2, 1⟩, ⟨4, 0, 1⟩, ⟨2, 1, 0⟩, ⟨1, 0, 0⟩] = sampleGrid ∧
    rightDown.sequence 3 2 sampleGrid = [⟨1, 0, 0⟩, ⟨2, 1, 0⟩, ⟨4, 0, 1⟩, ⟨6, 2, 1⟩] := by
  have hgrid : sampleGrid.length = (3 : UInt32).toNat * (2 : UInt32).toNat := rfl
  have hpainted : leftUp.sequence 3 2 sampleGrid =
      [⟨6, 2, 1⟩, ⟨4, 0, 1⟩, ⟨2, 1, 0⟩, ⟨1, 0, 0⟩] := by decide
  obtain ⟨_, _, hordered, hplaced, hreversed, _⟩ := sequence_of_grid hgrid leftUp
  rw [hpainted] at hordered hplaced hreversed
  refine ⟨hgrid, hpainted, ?_, hplaced, ?_⟩
  · exact List.pairwise_iff_getElem.1 hordered 1 2 (by decide) (by decide) (by decide)
  · rw [← List.reverse_inj, ← hreversed]
    rfl

end PaintOrder

end TileKiln
