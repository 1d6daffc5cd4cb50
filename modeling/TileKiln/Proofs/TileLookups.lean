import TileKiln.Proofs.LoadedTileset
import TileKiln.Proofs.TileOwnership

namespace TileKiln

/-- The last of what a list is mapped to is that of its last entry, if no entry is left out. -/
theorem getLast?_filterMap_of_isSome {α β : Type} {as : List α} {f : α → Option β}
    (h : ∀ a ∈ as, (f a).isSome) : (as.filterMap f).getLast? = as.getLast?.bind f := by
  induction as using List.reverseRecOn with
  | nil => rfl
  | append_singleton as a _ =>
      obtain ⟨b, hb⟩ := Option.isSome_iff_exists.1 (h a (by simp))
      rw [List.filterMap_append, List.filterMap_cons_some hb, List.filterMap_nil,
        List.getLast?_concat, List.getLast?_concat, Option.bind_some, hb]

theorem head?_eq_getLast? {α : Type} {as : List α} (h : ∀ a ∈ as, ∀ b ∈ as, a = b) :
    as.head? = as.getLast? := by
  cases as with
  | nil => rfl
  | cons first as =>
      have hne := List.cons_ne_nil first as
      rw [List.head?_cons, List.getLast?_eq_some_getLast hne]
      exact congrArg some (h first List.mem_cons_self _ (List.getLast_mem hne))

namespace Table

variable {κ η : Type} [BEq κ] [LawfulBEq κ] [DecidableEq κ]

theorem get?_erase_of_none {table : Table κ η} {key : κ} (h : table.get? key = none) (other : κ) :
    (table.erase key).get? other = table.get? other := by
  by_cases hother : other = key
  · rw [hother, get?_erase_self, h]
  · exact get?_erase hother

structure Serves (images : Table String η) (t : Baked.Tileset) : Prop where
  referred : ∀ r ∈ t.references, r ≠ "" → (images.get? r).isSome
  unreferred : images.get? "" = none

end Table

variable {η : Type} {images : Table String η} {asset : TilesetAsset η}

namespace Baked.Tileset

variable {t : Tileset} {id : UInt32} {r : String}

/-- The images that the records of a tile name, in the order of the records. -/
def imagesOf (t : Tileset) (id : UInt32) : List String :=
  (t.tileImages.filter (·.1 == id)).map (·.2)

def tileHandles (t : Tileset) (images : Table String η) : Table UInt32 η :=
  .ofEntries (t.tileImages.filterMap fun (id, r) => (images.get? r).map (id, ·))

theorem lookup_tileImages_eq (t : Tileset) (id : UInt32) :
    t.tileImages.lookup id = (t.imagesOf id).head? := by
  rw [imagesOf]
  induction t.tileImages with
  | nil => rfl
  | cons entry entries ih =>
      obtain ⟨first, r⟩ := entry
      by_cases h : first = id
      · rw [List.filter_cons_of_pos (by simp [h]), h, List.lookup_cons_self]
        rfl
      · rw [List.filter_cons_of_neg (by simp [h]), List.lookup_cons, beq_false_of_ne (Ne.symm h), ih]

theorem referred_of_mem_imagesOf (h : r ∈ t.imagesOf id) : r ≠ "" ∧ r ∈ t.references := by
  obtain ⟨entry, hentry, rfl⟩ := List.mem_map.1 h
  exact referred_of_mem_tileImages (List.mem_filter.1 hentry).1

theorem isSome_get?_of_mem (h : images.Serves t) {entry : UInt32 × String}
    (hentry : entry ∈ t.tileImages) : (images.get? entry.2).isSome := by
  obtain ⟨hne, hreferred⟩ := referred_of_mem_tileImages hentry
  exact h.referred _ hreferred hne

/-- The entries of a tile come from its own records. -/
theorem filter_tileHandles (t : Tileset) (images : Table String η) (id : UInt32) :
    (t.tileImages.filterMap fun (id, r) => (images.get? r).map (id, ·)).filter (·.1 == id) =
      (t.tileImages.filter (·.1 == id)).filterMap fun (id, r) => (images.get? r).map (id, ·) := by
  rw [List.filter_filterMap, List.filterMap_filter]
  apply List.filterMap_congr
  rintro ⟨own, r⟩ _
  dsimp only
  cases images.get? r with
  | none => simp
  | some handle => by_cases hid : own = id <;> simp [hid]

theorem get?_tileHandles (h : images.Serves t) (id : UInt32) :
    (t.tileHandles images).get? id = (t.imagesOf id).getLast?.bind images.get? := by
  rw [tileHandles, Table.get?_ofEntries_last, filter_tileHandles, getLast?_filterMap_of_isSome,
    imagesOf, List.getLast?_map]
  · cases (t.tileImages.filter (·.1 == id)).getLast? with
    | none => rfl
    | some entry => simp [Function.comp_def]
  · intro entry hentry
    rw [Option.isSome_map]
    exact isSome_get?_of_mem h (List.mem_filter.1 hentry).1

end Baked.Tileset

namespace TilesetAsset

inductive Built (images : Table String η) : TilesetAsset η → Prop
  | stream (t : Baked.Tileset) :
      Built images ⟨t, if t.image == "" then none else images.get? t.image, t.tileHandles images⟩
  /-- Where it is baked, tiles look for their handles once that of the sheet is taken. -/
  | document (t : Baked.Tileset) :
      Built images ⟨t, images.get? t.image, t.tileHandles (images.erase t.image)⟩

theorem image?_of_built (hbuilt : asset.Built images) (h : images.Serves asset.tileset)
    (id : UInt32) :
    asset.image? id = (images.get? asset.tileset.image).or
      ((asset.tileset.imagesOf id).getLast?.bind images.get?) := by
  cases hbuilt with
  | stream t =>
      rw [image?, ← Baked.Tileset.get?_tileHandles h]
      by_cases himage : t.image = ""
      · simp only [himage, h.unreferred, beq_self_eq_true, if_true, Option.none_or]
      · obtain ⟨sheet, hsheet⟩ :=
          Option.isSome_iff_exists.1 (h.referred t.image List.mem_cons_self himage)
        simp only [hsheet, beq_iff_eq, himage, if_false, Option.some_or]
  | document t =>
      rw [image?, ← Baked.Tileset.get?_tileHandles h]
      cases hsheet : images.get? t.image with
      | some sheet => rfl
      | none =>
          simp only [Baked.Tileset.tileHandles, Table.get?_erase_of_none hsheet, Option.none_or]

end TilesetAsset

namespace MapAsset

variable {t : Baked.Tileset} {m : Baked.Map} {id flags : UInt32}

/-- The tiles of the only tileset of a map. -/
theorem tileImage?_of_singleton (hm : m.tilesets = [t]) (hfirst : t.firstGid ≠ 0)
    (hrange : t.firstGid.toNat + t.tileCount.toNat ≤ Gid.mask.toNat + 1) (hid : id < t.tileCount)
    (hflags : flags &&& Gid.flipFlags = flags) :
    (⟨m, images⟩ : MapAsset η).tileImage? (t.firstGid + id ||| flags) =
      (images.get? t.image).or ((t.imagesOf id).head?.bind images.get?) := by
  have haddressable : GidRange.Addressable (m.tilesets.map Baked.Tileset.range) := by
    rw [hm]
    exact ⟨List.forall_mem_singleton.2 hfirst, List.forall_mem_singleton.2 hrange,
      List.pairwise_singleton _ _⟩
  have ht : t ∈ m.tilesets := hm ▸ List.mem_singleton_self t
  obtain ⟨_, hmask, hhas⟩ := Baked.Map.gid_of_addressable haddressable ht hid
  have htile : Gid.tile (t.firstGid + id ||| flags) = t.firstGid + id := by
    rw [Gid.tile_or _ hflags, Gid.tile_of_le hmask]
  have howner : m.owner? (t.firstGid + id ||| flags) = some t :=
    Baked.Map.owner?_eq_some haddressable ht (by rwa [htile])
  have hlocal : Gid.tile (t.firstGid + id ||| flags) - t.firstGid = id := by
    rw [htile, UInt32.add_comm, UInt32.add_sub_cancel]
  have howned : (⟨m, images⟩ : MapAsset η).owner? (t.firstGid + id ||| flags) =
      some (t, images.get? t.image) := by
    rw [owner?, howner, Option.map_some]
    rfl
  rw [tileImage?_of_owner? howned, hlocal, Baked.Tileset.lookup_tileImages_eq]
  rfl

end MapAsset

namespace Asset

variable {settings : LoadSettings} {stream : List UInt8} {tree : FileTree} {path : String}
  {asset : TilesetAsset String}

/-- A tileset from a stream has its handles from a table with those of all its images. -/
theorem built_of_ofTilesetStream (h : ofTilesetStream settings stream = .ok asset) :
    Baked.Tileset.read stream = .ok asset.tileset ∧
      ∃ images : Table String String, images.Serves asset.tileset ∧ asset.Built images ∧
        ∀ r ∈ asset.tileset.references, r ≠ "" → images.get? r = some (settings.imagePath r) := by
  obtain ⟨t, hread, h⟩ := ok_of_bind h
  cases h
  let images : Table String String :=
    .ofEntries ((t.references.filter (· != "")).map fun r => (r, settings.imagePath r))
  have hget (r : String) (hr : r ∈ t.references) (hne : r ≠ "") :
      images.get? r = some (settings.imagePath r) := by
    have hmem : r ∈ t.references.filter (· != "") := List.mem_filter.2 ⟨hr, by simpa using hne⟩
    rw [Table.get?_ofEntries, if_pos hmem]
  have hnone : images.get? "" = none := by
    rw [Table.get?_ofEntries, if_neg]
    exact fun hmem => bne_iff_ne.1 (List.mem_filter.1 hmem).2 rfl
  have hsheet : (if t.image == "" then none else some (settings.imagePath t.image)) =
      if t.image == "" then none else images.get? t.image := by
    by_cases himage : t.image = ""
    · simp [himage]
    · simp [himage, hget t.image List.mem_cons_self himage]
  have htiles : Table.ofEntries (t.tileImages.map fun (id, r) => (id, settings.imagePath r)) =
      t.tileHandles images := by
    rw [Baked.Tileset.tileHandles, ← List.filterMap_eq_map]
    congr 1
    apply List.filterMap_congr
    rintro ⟨id, r⟩ hentry
    obtain ⟨hne, hr⟩ := Baked.Tileset.referred_of_mem_tileImages hentry
    simp [hget r hr hne]
  refine ⟨ok_of_mapError hread, images,
    ⟨fun r hr hne => Option.isSome_iff_exists.2 ⟨_, hget r hr hne⟩, hnone⟩, ?_, hget⟩
  rw [hsheet, htiles]
  exact .stream t

/-- A tileset that is baked as it is loaded has its handles from the table of its dependencies. -/
theorem built_of_ofTilesetDocument (h : ofTilesetDocument tree path = .ok asset) :
    ∃ images, asset.Built images := by
  obtain ⟨_, _, _, images, _, _, _, _, hsheet, htiles⟩ := ofTilesetDocument_eq_ok_iff.1 h
  obtain ⟨t, sheet, tileImages⟩ := asset
  dsimp only at hsheet htiles
  subst hsheet htiles
  exact ⟨images, .document t⟩

end Asset

namespace MapAsset

variable {m : Baked.Map} {id flags : UInt32}

/-- The tiles of a map with one tileset, whose ids are no flags, and of the tileset by itself, with
handles from one table. Both ways lead to the sheet if there is one. Else a global id leads to the
image that the first record of its tile names, and the id of the tile to that which the last one
names. So they agree exactly if there is a sheet or these two have one handle, and always if all
records of the tile that have an image name the same. -/
theorem lookups_of_built (hm : m.tilesets = [asset.tileset]) (hfirst : asset.tileset.firstGid ≠ 0)
    (hrange : asset.tileset.firstGid.toNat + asset.tileset.tileCount.toNat ≤ Gid.mask.toNat + 1)
    (hserves : images.Serves asset.tileset) (hbuilt : asset.Built images)
    (hid : id < asset.tileset.tileCount) (hflags : flags &&& Gid.flipFlags = flags) :
    let drawn := (⟨m, images⟩ : MapAsset η).tileImage? (asset.tileset.firstGid + id ||| flags)
    let sheet := images.get? asset.tileset.image
    let first := (asset.tileset.imagesOf id).head?.bind images.get?
    let last := (asset.tileset.imagesOf id).getLast?.bind images.get?
    drawn = sheet.or first ∧ asset.image? id = sheet.or last ∧
      (drawn = asset.image? id ↔ asset.tileset.image ≠ "" ∨ first = last) ∧
      ((∀ r ∈ asset.tileset.imagesOf id, ∀ r' ∈ asset.tileset.imagesOf id, r = r') →
        drawn = asset.image? id) := by
  intro drawn sheet first last
  have hdrawn : drawn = sheet.or first := tileImage?_of_singleton hm hfirst hrange hid hflags
  have himage : asset.image? id = sheet.or last := TilesetAsset.image?_of_built hbuilt hserves id
  refine ⟨hdrawn, himage, ?_, ?_⟩
  · rw [hdrawn, himage]
    by_cases hsheet : asset.tileset.image = ""
    · have hnone : sheet = none := by rw [← hserves.unreferred, ← hsheet]
      simp [hnone, hsheet]
    · obtain ⟨handle, hhandle⟩ :=
        Option.isSome_iff_exists.1 (hserves.referred _ List.mem_cons_self hsheet)
      have hsome : sheet = some handle := hhandle
      simp [hsome, hsheet]
  · intro hone
    rw [hdrawn, himage]
    exact congrArg (fun r => sheet.or (r.bind images.get?)) (head?_eq_getLast? hone)

namespace TwoRecords

def record (id : UInt32) (image : String) : List UInt8 :=
  [id, 0, 0, 0, 0, UInt32.ofNat image.utf8ByteSize].flatMap Word.bytes32 ++ image.toUTF8.data.toList

def stream : List UInt8 :=
  [0, 1, 0, 0, 0, 0, 0, 2, 3].flatMap Word.bytes32 ++ record 0 "cave" ++ record 0 "crate" ++
    record 1 "gem" ++ [0, 0, 0].flatMap Word.bytes32

theorem load_stream :
    ∃ asset, Asset.ofTilesetStream {} stream = .ok asset ∧ asset.tileset.firstGid = 1 ∧
      asset.tileset.tileCount = 2 ∧ asset.tileset.image = "" ∧
      asset.tileset.imagesOf 0 = ["cave", "crate"] ∧ asset.tileset.imagesOf 1 = ["gem"] ∧
      asset.image? 0 = some "crate.png" ∧ asset.image? 1 = some "gem.png" := by
  have hview : ((Asset.ofTilesetStream {} stream).toOption.map fun asset =>
      ((asset.tileset.firstGid, asset.tileset.tileCount, asset.tileset.image),
        (asset.tileset.imagesOf 0, asset.tileset.imagesOf 1), asset.image? 0, asset.image? 1)) =
        some ((1, 2, ""), (["cave", "crate"], ["gem"]), some "crate.png", some "gem.png") := by
    decide +kernel
  obtain ⟨asset, hload, hview⟩ := Option.map_eq_some_iff.1 hview
  simp only [Prod.mk.injEq] at hview
  obtain ⟨⟨hfirst, hcount, hsheet⟩, ⟨htwo, hone⟩, himages⟩ := hview
  exact ⟨asset, ok_of_toOption hload, hfirst, hcount, hsheet, htwo, hone, himages⟩

/-- The second tile, flipped. -/
theorem lookups_of_built_sample :
    ∃ (asset : TilesetAsset String) (images : Table String String) (m : Baked.Map),
      Baked.Tileset.read stream = .ok asset.tileset ∧ m.tilesets = [asset.tileset] ∧
      asset.tileset.firstGid = 1 ∧ images.Serves asset.tileset ∧ asset.Built images ∧
      (1 : UInt32) < asset.tileset.tileCount ∧
      (0x80000000 : UInt32) &&& Gid.flipFlags = 0x80000000 ∧
      (⟨m, images⟩ : MapAsset String).tileImage? 0x80000002 = some "gem.png" ∧
      asset.image? 1 = some "gem.png" := by
  obtain ⟨asset, hload, hfirst, hcount, _, _, hrecords, _, himage⟩ := load_stream
  obtain ⟨hread, images, hserves, hbuilt, _⟩ := Asset.built_of_ofTilesetStream hload
  let m : Baked.Map := { (default : Baked.Map) with tilesets := [asset.tileset] }
  have hm : m.tilesets = [asset.tileset] := rfl
  have hid : (1 : UInt32) < asset.tileset.tileCount := by
    rw [hcount]
    decide
  have hflags : (0x80000000 : UInt32) &&& Gid.flipFlags = 0x80000000 := by decide
  obtain ⟨_, _, _, hagree⟩ := lookups_of_built hm (by rw [hfirst]; decide)
    (by rw [hfirst, hcount]; decide) hserves hbuilt hid hflags
  have hdrawn := hagree (by simp [hrecords])
  rw [himage, hfirst] at hdrawn
  exact ⟨asset, images, m, hread, hm, hfirst, hserves, hbuilt, hid, hflags, hdrawn, himage⟩

/-- The first tile has an image by each of its records, and each way leads to another one. -/
theorem lookups_differ :
    ∃ (asset : TilesetAsset String) (images : Table String String) (m : Baked.Map),
      Asset.ofTilesetStream {} stream = .ok asset ∧ Baked.Tileset.read stream = .ok asset.tileset ∧
      m.tilesets = [asset.tileset] ∧ asset.tileset.firstGid = 1 ∧ asset.tileset.tileCount = 2 ∧
      images.Serves asset.tileset ∧ asset.Built images ∧
      (⟨m, images⟩ : MapAsset String).tileImage? 1 = some "cave.png" ∧
      asset.image? 0 = some "crate.png" := by
  obtain ⟨asset, hload, hfirst, hcount, hsheet, hrecords, _, himage, _⟩ := load_stream
  obtain ⟨hread, images, hserves, hbuilt, hget⟩ := Asset.built_of_ofTilesetStream hload
  let m : Baked.Map := { (default : Baked.Map) with tilesets := [asset.tileset] }
  have hm : m.tilesets = [asset.tileset] := rfl
  have hdrawn : (⟨m, images⟩ : MapAsset String).tileImage? (asset.tileset.firstGid + 0 ||| 0) = _ :=
    tileImage?_of_singleton hm (by rw [hfirst]; decide) (by rw [hfirst, hcount]; decide)
      (by rw [hcount]; decide) (by decide)
  have hcave : "cave" ∈ asset.tileset.references :=
    (Baked.Tileset.referred_of_mem_imagesOf (by rw [hrecords]; exact List.mem_cons_self)).2
  rw [hrecords, hsheet, hserves.unreferred, hfirst] at hdrawn
  refine ⟨asset, images, m, hload, hread, hm, hfirst, hcount, hserves, hbuilt, ?_, himage⟩
  exact hdrawn.trans (hget "cave" hcave (by decide))

end TwoRecords

end MapAsset

end TileKiln
