import TileKiln.Asset.Map
import TileKiln.Baked.Reader
import TileKiln.Proofs.SheetGrid
import TileKiln.Proofs.TileOwnership

namespace TileKiln

open Word

namespace Baked.Tileset

variable {t : Tileset} {id : UInt32}

/-- Whether everything on the way to the last column and to the last row is a word. A set without
tiles in a grid has neither. -/
def SheetFits (t : Tileset) : Prop :=
  t.columns ≠ 0 → t.tileCount ≠ 0 →
    t.across.Fits (min t.columns.toNat t.tileCount.toNat - 1) ∧ t.down.Fits (t.rows - 1)

section

variable (hcolumns : t.columns ≠ 0)

include hcolumns

theorem exists_in_last_column (hcount : t.tileCount ≠ 0) :
    ∃ id < t.tileCount, (id % t.columns).toNat = min t.columns.toNat t.tileCount.toNat - 1 := by
  have hcolumns' := toNat_columns_pos hcolumns
  have hcount' : 0 < t.tileCount.toNat := Nat.pos_of_ne_zero fun h => hcount (UInt32.toNat_inj.1 h)
  have hlt : min t.columns.toNat t.tileCount.toNat - 1 < t.columns.toNat := by omega
  obtain ⟨id, hid⟩ := exists_toNat32_eq (Nat.lt_trans hlt t.columns.toNat_lt)
  refine ⟨id, UInt32.lt_iff_toNat_lt.2 (by omega), ?_⟩
  rw [UInt32.toNat_mod, hid, Nat.mod_eq_of_lt hlt]

theorem exists_in_last_row (hcount : t.tileCount ≠ 0) :
    ∃ id < t.tileCount, (id / t.columns).toNat = t.rows - 1 := by
  have hcount' : 0 < t.tileCount.toNat := Nat.pos_of_ne_zero fun h => hcount (UInt32.toNat_inj.1 h)
  have hrows : 0 < t.rows := by rwa [lt_rows_iff hcolumns]
  have hlast : t.columns.toNat * (t.rows - 1) < t.tileCount.toNat :=
    (lt_rows_iff hcolumns).1 (Nat.sub_one_lt_of_lt hrows)
  obtain ⟨id, hid⟩ := exists_toNat32_eq (Nat.lt_trans hlast t.tileCount.toNat_lt)
  refine ⟨id, UInt32.lt_iff_toNat_lt.2 (hid ▸ hlast), ?_⟩
  rw [UInt32.toNat_div, hid, Nat.mul_div_cancel_left _ (toNat_columns_pos hcolumns)]

theorem column_le_last (hid : id < t.tileCount) :
    (id % t.columns).toNat ≤ min t.columns.toNat t.tileCount.toNat - 1 := by
  have hcolumn : (id % t.columns).toNat < t.columns.toNat := column_lt_columns hcolumns
  have hle : (id % t.columns).toNat ≤ id.toNat := by
    rw [UInt32.toNat_mod]
    exact Nat.mod_le _ _
  have hid' := UInt32.lt_iff_toNat_lt.1 hid
  omega

end

/-- The tiles of a set are all told exactly if those of the last column and of the last row are. -/
theorem forall_isSome_tileBox?_iff : (∀ id, (t.tileBox? id).isSome) ↔ t.SheetFits := by
  simp only [isSome_tileBox?_iff]
  constructor
  · intro h hcolumns hcount
    obtain ⟨id, hid, hcolumn⟩ := exists_in_last_column hcolumns hcount
    obtain ⟨id', hid', hrow⟩ := exists_in_last_row hcolumns hcount
    rw [← hcolumn, ← hrow]
    exact ⟨(h id hcolumns hid).1, (h id' hcolumns hid').2⟩
  · intro h id hcolumns hid
    have hcount : t.tileCount ≠ 0 := by
      intro hzero
      rw [hzero] at hid
      exact absurd hid UInt32.not_lt_zero
    obtain ⟨hacross, hdown⟩ := h hcolumns hcount
    exact ⟨hacross.of_le (column_le_last hcolumns hid),
      hdown.of_le (Nat.le_sub_one_of_lt (row_lt_rows hcolumns hid))⟩

end Baked.Tileset

namespace Baked.Map

variable {m : Map} {box : Box Single}

theorem bounds?_eq_some_iff :
    m.bounds? = some box ↔
      ∃ extent : Extent, extent.width.toNat = m.width.toNat * m.tileWidth.toNat ∧
        extent.height.toNat = m.height.toNat * m.tileHeight.toNat ∧ .ofExtent extent = box := by
  simp only [bounds?, Option.map_eq_some_iff, Extent.times?, Option.bind_eq_bind,
    Option.bind_eq_some_iff, Option.pure_def, Option.some.injEq, mul32?_eq_some_iff]
  constructor
  · rintro ⟨_, ⟨width, hwidth, height, hheight, rfl⟩, hbox⟩
    exact ⟨⟨width, height⟩, hwidth, hheight, hbox⟩
  · rintro ⟨⟨width, height⟩, hwidth, hheight, hbox⟩
    exact ⟨_, ⟨width, hwidth, height, hheight, rfl⟩, hbox⟩

theorem isSome_bounds?_iff :
    m.bounds?.isSome ↔
      m.width.toNat * m.tileWidth.toNat < UInt32.size ∧
        m.height.toNat * m.tileHeight.toNat < UInt32.size := by
  simp only [Option.isSome_iff_exists, bounds?_eq_some_iff]
  constructor
  · rintro ⟨_, extent, hwidth, hheight, _⟩
    exact ⟨hwidth ▸ extent.width.toNat_lt, hheight ▸ extent.height.toNat_lt⟩
  · rintro ⟨hwidth, hheight⟩
    obtain ⟨width, hwidth⟩ := exists_toNat32_eq hwidth
    obtain ⟨height, hheight⟩ := exists_toNat32_eq hheight
    exact ⟨_, ⟨width, height⟩, hwidth, hheight, rfl⟩

/-- The sides of the rectangle that is told are those of the map. -/
theorem eq_of_bounds? (h : m.bounds? = some box) :
    box = ⟨.zero, .zero, .ofNat (m.width.toNat * m.tileWidth.toNat),
      .ofNat (m.height.toNat * m.tileHeight.toNat)⟩ := by
  obtain ⟨extent, hwidth, hheight, rfl⟩ := bounds?_eq_some_iff.1 h
  rw [Box.ofExtent, hwidth, hheight]

end Baked.Map

namespace MapAsset

variable {η : Type}

def sub32? (a b : UInt32) : Checked UInt32 :=
  if b ≤ a then some (a - b) else none

def checkedTileImage? (asset : MapAsset η) (gid : UInt32) : Checked (Option η) :=
  match asset.owner? gid with
  | none => some none
  | some (_, some sheet) => some (some sheet)
  | some (tileset, none) => do
    let id ← sub32? (Gid.tile gid) tileset.firstGid
    return (tileset.tileImages.lookup id).bind asset.image?

/-- A tileset that owns a global id begins at or before it. -/
theorem firstGid_le_of_owner? {asset : MapAsset η} {gid : UInt32} {tileset : Baked.Tileset}
    {sheet : Option η} (h : asset.owner? gid = some (tileset, sheet)) :
    tileset.firstGid ≤ Gid.tile gid := by
  obtain ⟨owner, howner, heq⟩ := Option.map_eq_some_iff.1 h
  obtain rfl : owner = tileset := (Prod.mk.inj heq).1
  exact UInt32.le_iff_toNat_le.2 (Baked.Map.has_of_owner? howner).2.1

theorem checkedTileImage?_eq (asset : MapAsset η) (gid : UInt32) :
    asset.checkedTileImage? gid = some (asset.tileImage? gid) := by
  rw [checkedTileImage?, tileImage?]
  cases howner : asset.owner? gid with
  | none => rfl
  | some found =>
      obtain ⟨tileset, sheet⟩ := found
      cases sheet with
      | some sheet => rfl
      | none =>
          have hid : sub32? (Gid.tile gid) tileset.firstGid = some (Gid.tile gid - tileset.firstGid) :=
            if_pos (firstGid_le_of_owner? howner)
          simp only [hid]
          rfl

end MapAsset

/-- Where the queries on streams that are read leave the words, which ends them on the spot. A tile of
a sheet is told exactly if the far ends of its column and its row are words, and all tiles are exactly
if the ends of the last column and the last row are; the size of a map in pixels is told exactly if it
is words; and what is told is what numbers without bounds give. The id of a tile in the tileset that
owns it never goes below zero, whatever the stream says and whatever images there are. -/
theorem checkedQueries_of_read (η : Type) :
    (∀ stream t, Baked.Tileset.read stream = .ok t →
      (∀ id, (t.tileBox? id).isSome ↔
        (t.columns ≠ 0 → id < t.tileCount →
          t.across.Fits (id % t.columns).toNat ∧ t.down.Fits (id / t.columns).toNat)) ∧
      (∀ id box, t.tileBox? id = some (some box) →
        t.Occupies (id % t.columns).toNat (id / t.columns).toNat box) ∧
      ((∀ id, (t.tileBox? id).isSome) ↔ t.SheetFits)) ∧
    ∀ stream m, Baked.Map.read stream = .ok m →
      (m.bounds?.isSome ↔
        m.width.toNat * m.tileWidth.toNat < UInt32.size ∧
          m.height.toNat * m.tileHeight.toNat < UInt32.size) ∧
      (∀ box, m.bounds? = some box →
        box = ⟨.zero, .zero, .ofNat (m.width.toNat * m.tileWidth.toNat),
          .ofNat (m.height.toNat * m.tileHeight.toNat)⟩) ∧
      ∀ (images : Table String η) (gid : UInt32),
        (⟨m, images⟩ : MapAsset η).checkedTileImage? gid =
          some ((⟨m, images⟩ : MapAsset η).tileImage? gid) := by
  constructor
  · intro stream t _
    exact ⟨fun id => Baked.Tileset.isSome_tileBox?_iff,
      fun id box h => Baked.Tileset.occupies_of_tileBox? h,
      Baked.Tileset.forall_isSome_tileBox?_iff⟩
  · intro stream m _
    exact ⟨Baked.Map.isSome_bounds?_iff, fun box h => Baked.Map.eq_of_bounds? h,
      fun images gid => MapAsset.checkedTileImage?_eq ⟨m, images⟩ gid⟩

def cellarSheet : List UInt8 :=
  [0, 3, 16, 16, 2, 1, 4, 10, 1, 2, 0, 0, 0, 0, 4].flatMap bytes32 ++ "cave".toUTF8.data.toList ++
    [0, 0, 0].flatMap bytes32

def cellarMap : List UInt8 :=
  [0, 0, 0, 0] ++ [3, 2, 16, 16].flatMap bytes32 ++ [0] ++ [0, 1].flatMap bytes32 ++ cellarSheet ++
    bytes32 0

def cellarImages : Table String String := [("cave", "cave.png")]

theorem read_cellar :
    ((Baked.Tileset.read cellarSheet).toOption.map fun t => (t.tileBox? 5, t.columns, t.tileCount,
      t.across, t.down)) =
        some (some (some ⟨19, 19, 35, 35⟩), 4, 10, ⟨1, 16, 2⟩, ⟨1, 16, 2⟩) ∧
    ((Baked.Map.read cellarMap).toOption.map fun m => (m.width, m.height, m.tileSize,
      (⟨m, cellarImages⟩ : MapAsset String).tileImage? 0x80000005)) =
        some (3, 2, ⟨16, 16⟩, some "cave.png") := by
  decide +kernel

/-- A tile of the sheet, the size of the map, and the tile with an image, flipped. -/
theorem checkedQueries_of_read_sample :
    ∃ t m, Baked.Tileset.read cellarSheet = .ok t ∧ (t.tileBox? 5).isSome ∧
      t.Occupies (5 % t.columns).toNat (5 / t.columns).toNat ⟨19, 19, 35, 35⟩ ∧
      Baked.Map.read cellarMap = .ok m ∧
      m.bounds? = some ⟨.zero, .zero, .ofNat 48, .ofNat 32⟩ ∧
      (⟨m, cellarImages⟩ : MapAsset String).checkedTileImage? 0x80000005 =
        some (some "cave.png") := by
  obtain ⟨hsheets, hmaps⟩ := checkedQueries_of_read String
  obtain ⟨t, ht, hview⟩ := Option.map_eq_some_iff.1 read_cellar.1
  obtain ⟨m, hm, hview'⟩ := Option.map_eq_some_iff.1 read_cellar.2
  simp only [Prod.mk.injEq] at hview hview'
  obtain ⟨hbox, hcolumns, _, hacross, hdown⟩ := hview
  obtain ⟨hwidth, hheight, hsize, himage⟩ := hview'
  obtain ⟨htold, hoccupies, _⟩ := hsheets cellarSheet t (ok_of_toOption ht)
  obtain ⟨hbounds, hbounds', himages⟩ := hmaps cellarMap m (ok_of_toOption hm)
  obtain ⟨htileWidth, htileHeight⟩ := Extent.mk.inj hsize
  rw [hwidth, hheight, htileWidth, htileHeight] at hbounds hbounds'
  obtain ⟨box, hfound⟩ := Option.isSome_iff_exists.1 (hbounds.2 ⟨by decide, by decide⟩)
  refine ⟨t, m, ok_of_toOption ht, (htold 5).2 fun _ _ => ?_, hoccupies 5 _ hbox,
    ok_of_toOption hm, ?_, ?_⟩
  · rw [hacross, hdown, hcolumns]
    exact ⟨⟨by decide, by decide⟩, by decide, by decide⟩
  · rw [hfound, hbounds' box hfound]
    rfl
  · rw [himages, himage]

def wideSheet : List UInt8 :=
  [0, 1, 0x80000000, 1, 0, 0, 2, 2, 0, 0, 0, 0].flatMap bytes32

def wideMap : List UInt8 :=
  [0, 0, 0, 0] ++ [65536, 65536, 65536, 65536].flatMap bytes32 ++ [0] ++ [0, 0, 0].flatMap bytes32

/-- The second tile of the sheet ends one pixel beyond the words, and so does the map. -/
theorem queries_overflow :
    ∃ t m, Baked.Tileset.read wideSheet = .ok t ∧ 1 < t.tileCount ∧
      t.tileBox? 0 = some (some ⟨0, 0, 0x80000000, 1⟩) ∧ t.tileBox? 1 = none ∧
      Baked.Map.read wideMap = .ok m ∧
      m.width.toNat * m.tileWidth.toNat = UInt32.size ∧ m.bounds? = none := by
  have hsheet : ((Baked.Tileset.read wideSheet).toOption.map fun t =>
      (decide (1 < t.tileCount), t.tileBox? 0, t.tileBox? 1)) =
        some (true, some (some ⟨0, 0, 0x80000000, 1⟩), none) := by
    decide +kernel
  have hmap : ((Baked.Map.read wideMap).toOption.map fun m =>
      (m.width.toNat * m.tileWidth.toNat, m.bounds?)) = some (UInt32.size, none) := by
    decide +kernel
  obtain ⟨t, ht, hview⟩ := Option.map_eq_some_iff.1 hsheet
  obtain ⟨m, hm, hview'⟩ := Option.map_eq_some_iff.1 hmap
  simp only [Prod.mk.injEq, decide_eq_true_eq] at hview hview'
  exact ⟨t, m, ok_of_toOption ht, hview.1, hview.2.1, hview.2.2, ok_of_toOption hm, hview'.1,
    hview'.2⟩

end TileKiln
