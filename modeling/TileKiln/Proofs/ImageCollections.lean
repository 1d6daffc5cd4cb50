import TileKiln.Proofs.LoadedMap
import TileKiln.Proofs.TileOwnership

namespace TileKiln

/-- In a list without repeated keys, every entry is found. -/
theorem lookup_of_mem {κ η : Type} [BEq κ] [LawfulBEq κ] {entries : List (κ × η)} {key : κ}
    {value : η} (hkeys : (entries.map (·.1)).Nodup) (h : (key, value) ∈ entries) :
    entries.lookup key = some value := by
  induction entries with
  | nil => cases h
  | cons first entries ih =>
      rw [List.map_cons, List.nodup_cons] at hkeys
      rcases List.mem_cons.1 h with rfl | h
      · rw [List.lookup_cons_self]
      · have hkey : key ≠ first.1 := by
          intro hkey
          exact hkeys.1 (List.mem_map.2 ⟨(key, value), h, hkey⟩)
        rw [List.lookup_cons, beq_false_of_ne hkey]
        exact ih hkeys.2 h

namespace Baked.Tileset

variable {t : Tileset} {tile : Tile}

theorem mem_tileImages (htile : tile ∈ t.tiles) (himage : tile.image ≠ "") :
    (tile.id, tile.image) ∈ t.tileImages :=
  List.mem_map.2 ⟨tile, List.mem_filter.2 ⟨htile, bne_iff_ne.2 himage⟩, rfl⟩

theorem lookup_tileImages (hids : (t.tiles.map (·.id)).Nodup) (htile : tile ∈ t.tiles)
    (himage : tile.image ≠ "") : t.tileImages.lookup tile.id = some tile.image := by
  refine lookup_of_mem ?_ (mem_tileImages htile himage)
  rw [tileImages, List.map_map]
  exact hids.sublist (List.filter_sublist.map _)

end Baked.Tileset

namespace MapAsset

variable {η : Type} {asset : MapAsset η} {handle : String → η} {t : Baked.Tileset}
  {tile : Baked.Tile}

/-- Each image that the map refers to has its handle, and where there is no image there is none. -/
structure Handles (asset : MapAsset η) (handle : String → η) : Prop where
  referred : ∀ r ∈ asset.map.imageReferences, asset.image? r = some (handle r)
  unreferred : asset.image? "" = none

theorem handles_ofEntries (m : Baked.Map) (handle : String → η) :
    (⟨m, .ofEntries (m.imageReferences.map fun r => (r, handle r))⟩ : MapAsset η).Handles
      handle where
  referred r hr := by
    rw [image?, Table.get?_ofEntries, if_pos hr]
  unreferred := by
    rw [image?, Table.get?_ofEntries, if_neg]
    exact fun h => (Baked.Map.mem_imageReferences.1 h).1 rfl

/-- The image of a tile that its tileset owns. -/
theorem tileImage?_of_owner {gid : UInt32} (h : asset.Handles handle)
    (howner : asset.map.owner? gid = some t) (hsheet : t.image = "")
    (hids : (t.tiles.map (·.id)).Nodup) (htile : tile ∈ t.tiles) (himage : tile.image ≠ "")
    (hgid : Gid.tile gid - t.firstGid = tile.id) :
    asset.tileImage? gid = some (handle tile.image) := by
  have ht : t ∈ asset.map.tilesets := (Baked.Map.has_of_owner? howner).1
  obtain ⟨_, hown⟩ := Baked.Tileset.referred_of_mem_tileImages
    (Baked.Tileset.mem_tileImages htile himage)
  have hreferred : tile.image ∈ asset.map.imageReferences :=
    Baked.Map.mem_imageReferences.2
      ⟨himage, List.mem_append_left _ (List.mem_flatMap.2 ⟨t, ht, hown⟩)⟩
  have hsheet : asset.owner? gid = some (t, none) := by
    rw [owner?, howner, Option.map_some, hsheet, h.unreferred]
  rw [tileImage?_of_owner? hsheet, hgid, Baked.Tileset.lookup_tileImages hids htile himage]
  exact h.referred _ hreferred

/-- In a map with checked ranges, each tile of a tileset without a sheet is drawn from its own image
if its id is below the count of tiles, and so is one of those that the tileset owns. -/
theorem tileImage?_of_compileMap {σ : Type} {host : Host σ} {settings : BakeSettings}
    {document path : String} {stream : List UInt8} {s s' : σ}
    (hsettings : settings.checkRanges = true)
    (hcompile : (compileMap host settings document path).run.run s = (.ok stream, s'))
    (hread : Baked.Map.read stream = .ok asset.map) (hhandles : asset.Handles handle) :
    ∀ t ∈ asset.map.tilesets, t.image = "" → (t.tiles.map (·.id)).Nodup →
      ∀ tile ∈ t.tiles, tile.image ≠ "" → tile.id < t.tileCount →
        (t.firstGid + tile.id).toNat = t.firstGid.toNat + tile.id.toNat ∧
        asset.tileImage? (t.firstGid + tile.id) = some (handle tile.image) := by
  intro t ht hsheet hids tile htile himage hcount
  have hm := Baked.Map.addressable_of_compileMap hsettings hcompile hread
  obtain ⟨hsum, hmask, hhas⟩ := Baked.Map.gid_of_addressable hm ht hcount
  have htile' : Gid.tile (t.firstGid + tile.id) = t.firstGid + tile.id := Gid.tile_of_le hmask
  refine ⟨hsum, tileImage?_of_owner hhandles ?_ hsheet hids htile himage ?_⟩
  · apply Baked.Map.owner?_eq_some hm ht
    rwa [htile']
  · rw [htile', UInt32.add_comm, UInt32.add_sub_cancel]

theorem handles_of_ofMapStream {settings : LoadSettings} {stream : List UInt8}
    {asset : MapAsset String} (h : Asset.ofMapStream settings stream = .ok asset) :
    Baked.Map.read stream = .ok asset.map ∧ asset.Handles settings.imagePath := by
  obtain ⟨m, hread, h⟩ := ok_of_bind h
  cases h
  exact ⟨ok_of_mapError hread, handles_ofEntries m settings.imagePath⟩

def sampleDocument : String :=
  "<map><tileset firstgid=\"1\" tilecount=\"2\">" ++
  "<tile id=\"1\"><image source=\"crate.png\"/></tile>" ++
  "<tile id=\"4\"><image source=\"cave.png\"/></tile></tileset></map>"

def sampleStream? : Except BakeError (List UInt8) :=
  ((compileMap (Library.mk [] none).plain {} sampleDocument "level.tmx").run.run ()).1

theorem sampleStream?_loads :
    (sampleStream?.toOption.bind fun stream =>
      (Asset.ofMapStream {} stream).toOption.map fun asset =>
        (asset.tileImage? 5, asset.map.tilesets.map fun t =>
          ((t.firstGid, t.tileCount, t.image), t.tiles.map fun tile => (tile.id, tile.image)))) =
      some (none, [((1, 2, ""), [(1, "crate"), (4, "cave")])]) := by
  decide +kernel

theorem load_sample :
    ∃ stream asset t crate cave, (compileMap (Library.mk [] none).plain {} sampleDocument
        "level.tmx").run.run () = (.ok stream, ()) ∧
      Asset.ofMapStream {} stream = .ok asset ∧ asset.map.tilesets = [t] ∧
      (t.firstGid, t.tileCount, t.image) = (1, 2, "") ∧ t.tiles = [crate, cave] ∧
      (crate.id, crate.image) = (1, "crate") ∧ (cave.id, cave.image) = (4, "cave") ∧
      asset.tileImage? 5 = none := by
  obtain ⟨stream, hstream, hview⟩ := Option.bind_eq_some_iff.1 sampleStream?_loads
  obtain ⟨asset, hload, hview⟩ := Option.map_eq_some_iff.1 hview
  obtain ⟨hnone, htilesets⟩ := Prod.mk.inj hview
  obtain ⟨t, htilesets, ht⟩ := List.map_eq_singleton_iff.1 htilesets
  obtain ⟨hhead, htiles⟩ := Prod.mk.inj ht
  obtain ⟨crate, rest, htiles, hcrate, hrest⟩ := List.map_eq_cons_iff.1 htiles
  obtain ⟨cave, rfl, hcave⟩ := List.map_eq_singleton_iff.1 hrest
  have hcompile : (compileMap (Library.mk [] none).plain {} sampleDocument "level.tmx").run.run () =
      (.ok stream, ()) := Prod.ext (ok_of_toOption hstream) (Subsingleton.elim _ _)
  exact ⟨stream, asset, t, crate, cave, hcompile, ok_of_toOption hload, htilesets, hhead, htiles,
    hcrate, hcave, hnone⟩

/-- The first of the tiles. -/
theorem tileImage?_of_compileMap_sample :
    ∃ stream asset, (compileMap (Library.mk [] none).plain {} sampleDocument
        "level.tmx").run.run () = (.ok stream, ()) ∧
      Asset.ofMapStream {} stream = .ok asset ∧ asset.tileImage? 2 = some "crate.png" := by
  obtain ⟨stream, asset, t, crate, cave, hcompile, hload, htilesets, hhead, htiles, hcrate, hcave,
    _⟩ := load_sample
  obtain ⟨hread, hhandles⟩ := handles_of_ofMapStream hload
  have hsettings : ({} : BakeSettings).checkRanges = true := rfl
  have hdrawn := tileImage?_of_compileMap hsettings hcompile hread hhandles t (by simp [htilesets])
  simp only [Prod.mk.injEq] at hhead hcrate hcave
  have hcrate' := (hdrawn hhead.2.2 (by simp [htiles, hcrate, hcave]) crate (by simp [htiles])
    (by simp [hcrate]) (by simp [hcrate, hhead])).2
  rw [hcrate.1, hcrate.2, hhead.1] at hcrate'
  exact ⟨stream, asset, hcompile, hload, hcrate'⟩

/-- The tile with an id beyond the count has an image and a global id, but is not drawn. -/
theorem not_drawn_beyond_tileCount :
    ∃ (stream : List UInt8) (asset : MapAsset String) (t : Baked.Tileset) (tile : Baked.Tile),
      (compileMap (Library.mk [] none).plain {} sampleDocument "level.tmx").run.run () =
        (.ok stream, ()) ∧
      Baked.Map.read stream = .ok asset.map ∧ asset.Handles (LoadSettings.imagePath {}) ∧
      t ∈ asset.map.tilesets ∧ t.image = "" ∧ (t.tiles.map (·.id)).Nodup ∧ tile ∈ t.tiles ∧
      tile.image = "cave" ∧ t.firstGid.toNat + tile.id.toNat ≤ Gid.mask.toNat ∧
      asset.tileImage? (t.firstGid + tile.id) = none := by
  obtain ⟨stream, asset, t, crate, cave, hcompile, hload, htilesets, hhead, htiles, hcrate, hcave,
    hnone⟩ := load_sample
  obtain ⟨hread, hhandles⟩ := handles_of_ofMapStream hload
  simp only [Prod.mk.injEq] at hhead hcrate hcave
  refine ⟨stream, asset, t, cave, hcompile, hread, hhandles, by simp [htilesets], hhead.2.2,
    by simp [htiles, hcrate, hcave], by simp [htiles], hcave.2, ?_, ?_⟩
  · rw [hhead.1, hcave.1]
    decide
  · rw [hhead.1, hcave.1]
    exact hnone

end MapAsset

end TileKiln
