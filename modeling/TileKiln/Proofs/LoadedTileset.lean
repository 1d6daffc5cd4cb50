import TileKiln.Proofs.LoadedMap

namespace TileKiln

theorem LoadSettings.imagePath_inj {settings : LoadSettings} {r r' : String}
    (h : settings.imagePath r = settings.imagePath r') : r = r' := by
  have hlists := congrArg String.toList h
  simp only [imagePath, String.toList_append, List.append_assoc,
    List.append_cancel_right_eq] at hlists
  exact String.toList_inj.1 hlists

/-- Leaving out entries changes what is last in view exactly if it leaves out the last entry, given
that entries that look alike are treated alike. -/
theorem getLast?_filter_iff {α β : Type} {as : List α} {keep : α → Bool} {view : α → β}
    (halike : ∀ a b, view a = view b → keep a = keep b) :
    ((as.filter keep).getLast?).map view = as.getLast?.map view ↔
      ∀ a ∈ as.getLast?, keep a := by
  induction as using List.reverseRecOn with
  | nil => simp
  | append_singleton as a _ =>
      rw [List.getLast?_concat, List.filter_append]
      cases hkeep : keep a with
      | true => simp [hkeep]
      | false =>
          rw [List.filter_cons_of_neg (by simp [hkeep]), List.filter_nil, List.append_nil]
          constructor
          · intro h
            obtain ⟨b, hb, hview⟩ := Option.map_eq_some_iff.1 h
            have hkept := (List.mem_filter.1 (List.mem_of_getLast? hb)).2
            rw [halike b a hview, hkeep] at hkept
            cases hkept
          · intro h
            have hkept := h a rfl
            rw [hkeep] at hkept
            cases hkept

namespace Baked.Tileset

def ownImage? (t : Tileset) (id : UInt32) : Option String :=
  ((t.tileImages.filter (·.1 == id)).getLast?).map (·.2)

end Baked.Tileset

namespace FileTree

variable {tree : FileTree} {document path : String} {stream : List UInt8}
  {dependencies : List String}

def tilesetImages (tree : FileTree) (document path : String) : List String :=
  (tree.tilesetCalls document path).filterMap Call.image?

theorem assembled_of_bakeTileset
    (h : tree.bakeTileset document path = .ok (stream, dependencies)) :
    ∃ after : Tileset, Writer.bytes after.write = .ok stream ∧
      after.parts.filterMap Part.source? = tree.tilesetImages document path ∧
      tree.tilesetImages document path ⊆ dependencies := by
  obtain ⟨hreplays, ⟨_, after, rest, hcalls, _, haccount, hwrite⟩, _⟩ :=
    (recorded_compileTileset document path).of_run (bake_eq_ok_iff.1 h)
  refine ⟨after, hwrite, ?_, images_subset_of_replays hreplays⟩
  have hoffers := (replays_iff.1 hreplays).1
  rw [hcalls, List.forall_mem_cons] at hoffers
  rw [tilesetImages, tilesetCalls, hcalls]
  change _ = rest.filterMap Call.image?
  exact sources_of_account haccount hoffers.2

end FileTree

namespace Asset

variable {tree : FileTree} {path : String} {asset : TilesetAsset String}

theorem ofTilesetDocument_eq_ok_iff :
    ofTilesetDocument tree path = .ok asset ↔
      ∃ document stream dependencies images, documentAt tree path = .ok document ∧
        tree.bakeTileset document (Path.forwardSlashes path) = .ok (stream, dependencies) ∧
        Baked.Tileset.read stream = .ok asset.tileset ∧
        register tree dependencies [] = .ok images ∧
        asset.sheet = images.get? asset.tileset.image ∧
        asset.tileImages = .ofEntries (asset.tileset.tileImages.filterMap fun (id, reference) =>
          ((images.erase asset.tileset.image).get? reference).map (id, ·)) := by
  constructor
  · intro h
    obtain ⟨document, hdocument, h⟩ := ok_of_bind h
    obtain ⟨⟨stream, dependencies⟩, hbake, h⟩ := ok_of_bind h
    obtain ⟨tileset, hread, h⟩ := ok_of_bind h
    obtain ⟨images, hregister, h⟩ := ok_of_bind h
    cases h
    exact ⟨document, stream, dependencies, images, hdocument, ok_of_mapError hbake,
      ok_of_mapError hread, hregister, rfl, rfl⟩
  · rintro ⟨document, stream, dependencies, images, hdocument, hbake, hread, hregister, hsheet,
      himages⟩
    obtain ⟨tileset, sheet, tileImages⟩ := asset
    dsimp only at hread hsheet himages
    subst hsheet himages
    simp only [ofTilesetDocument, hdocument, hbake, hread, hregister, bind, Except.bind,
      Except.mapError]
    rfl

/-- What the loader that bakes has registered for a tileset, if the images that it refers to and the
images among the dependencies are the same. -/
theorem get?_register_of_references {dependencies : List String} {images : Table String String}
    {loading : LoadSettings} {references : List String}
    (h : register tree dependencies [] = .ok images)
    (hpaths : ∀ path ∈ dependencies, isDocument path = false →
      Path.imageReference path ≠ "" ∧ loading.imagePath (Path.imageReference path) = path)
    (hreferences : ∀ reference ≠ "", reference ∈ references ↔
      ∃ path ∈ dependencies, isDocument path = false ∧ Path.imageReference path = reference)
    (reference : String) :
    images.get? reference =
      if reference ≠ "" ∧ reference ∈ references then some (loading.imagePath reference)
      else none := by
  have hkept : ∀ r, r ∈ references.filter (· != "") ↔
      ∃ path ∈ dependencies, isDocument path = false ∧ Path.imageReference path = r := by
    intro r
    rw [List.mem_filter, bne_iff_ne]
    constructor
    · rintro ⟨hr, hne⟩
      exact (hreferences r hne).1 hr
    · rintro ⟨path, hpath, hdocument, rfl⟩
      have hne := (hpaths path hpath hdocument).1
      exact ⟨(hreferences _ hne).2 ⟨path, hpath, hdocument, rfl⟩, hne⟩
  rw [← get?_register_eq h (fun path hpath hdocument => (hpaths path hpath hdocument).2) hkept,
    Table.get?_ofEntries]
  refine if_congr ?_ rfl rfl
  rw [List.mem_filter, bne_iff_ne, and_comm]

variable {t : Baked.Tileset} {images : Table String String} {file : String → String}

theorem filterMap_tileImages
    (himages : ∀ r, r ≠ "" ∧ r ∈ t.references → images.get? r = some (file r)) :
    (t.tileImages.filterMap fun (id, r) => ((images.erase t.image).get? r).map (id, ·)) =
      (t.tileImages.filter (·.2 != t.image)).map fun (id, r) => (id, file r) := by
  rw [← List.filterMap_eq_map, List.filterMap_filter]
  apply List.filterMap_congr
  rintro ⟨id, r⟩ hentry
  dsimp only
  by_cases hr : r = t.image
  · rw [hr, Table.get?_erase_self]
    simp
  · rw [Table.get?_erase hr, himages r (Baked.Tileset.referred_of_mem_tileImages hentry)]
    simp [hr]

theorem get?_tileImages (id : UInt32) :
    (Table.ofEntries (t.tileImages.map fun (id, r) => (id, file r))).get? id =
      (t.ownImage? id).map file := by
  rw [Table.get?_ofEntries_last, List.filter_map, List.getLast?_map, Option.map_map,
    Baked.Tileset.ownImage?, Option.map_map]
  rfl

/-- Without the entries that name the sheet, a tile has the same image unless its own is the
sheet. -/
theorem get?_tileImages_eq_iff (hfile : ∀ r r', file r = file r' → r = r') (id : UInt32) :
    (Table.ofEntries ((t.tileImages.filter (·.2 != t.image)).map fun (id, r) =>
        (id, file r))).get? id =
      (Table.ofEntries (t.tileImages.map fun (id, r) => (id, file r))).get? id ↔
      t.ownImage? id ≠ some t.image := by
  have halike (a b : UInt32 × String) (h : file a.2 = file b.2) :
      (a.2 != t.image) = (b.2 != t.image) := by
    rw [hfile a.2 b.2 h]
  rw [get?_tileImages, Table.get?_ofEntries_last, List.filter_map, List.getLast?_map,
    Option.map_map, Baked.Tileset.ownImage?, Option.map_map]
  change (((t.tileImages.filter (·.2 != t.image)).filter (·.1 == id)).getLast?.map
      fun entry => file entry.2) =
    ((t.tileImages.filter (·.1 == id)).getLast?.map fun entry => file entry.2) ↔ _
  rw [List.filter_comm, getLast?_filter_iff halike]
  cases (t.tileImages.filter (·.1 == id)).getLast? with
  | none => simp
  | some entry => simp

/-- A tileset that is baked as it is loaded is the same asset as the one that is loaded from the
stream of this bake, if all images have one extension and the documents can be told from them, but
for the images of tiles: a tile has the same one exactly if it does not name the sheet as its own. -/
theorem ofTilesetStream_of_ofTilesetDocument (h : ofTilesetDocument tree path = .ok asset)
    (extension : String) (hdot : '.' ∉ extension.toList) (hslash : '/' ∉ extension.toList)
    (htsx : extension ≠ "tsx") (htx : extension ≠ "tx") :
    ∃ document stream dependencies, documentAt tree path = .ok document ∧
      tree.bakeTileset document (Path.forwardSlashes path) = .ok (stream, dependencies) ∧
      ((∀ p ∈ dependencies,
          p ∉ tree.tilesetImages document (Path.forwardSlashes path) →
          p.endsWith ".tsx" ∨ p.endsWith ".tx") →
        (∀ p ∈ tree.tilesetImages document (Path.forwardSlashes path),
          Path.HasExtension extension p) →
        ∃ asset', ofTilesetStream ⟨extension⟩ stream = .ok asset' ∧
          asset'.tileset = asset.tileset ∧ asset'.tileset.tileSize = asset.tileset.tileSize ∧
          asset'.tileset.gridSize = asset.tileset.gridSize ∧ asset'.sheet = asset.sheet ∧
          ∀ id, asset.tileImages.get? id = asset'.tileImages.get? id ↔
            asset.tileset.ownImage? id ≠ some asset.tileset.image) := by
  obtain ⟨document, stream, dependencies, images, hdocument, hbake, hread, hregister, hsheet,
    htileImages⟩ := ofTilesetDocument_eq_ok_iff.1 h
  refine ⟨document, stream, dependencies, hdocument, hbake, fun hothers hextension => ?_⟩
  obtain ⟨after, hwrite, hsources, hrecorded⟩ := FileTree.assembled_of_bakeTileset hbake
  generalize tree.tilesetImages document (Path.forwardSlashes path) = resolved at *
  have hnames (p : String) (hp : p ∈ resolved) :=
    Path.imageReference_of_hasExtension (hextension p hp) hdot hslash
  have hkept (p : String) : p ∈ resolved ↔ p ∈ dependencies ∧ isDocument p = false :=
    mem_images_iff hrecorded hothers fun p hp =>
      not_isDocument_of_hasExtension (hextension p hp) hdot htsx htx
  have himages (r : String) : images.get? r =
      if r ≠ "" ∧ r ∈ asset.tileset.references then
        some (LoadSettings.imagePath ⟨extension⟩ r) else none := by
    refine get?_register_of_references hregister ?_ ?_ r
    · intro p hp hdocument
      exact hnames p ((hkept p).2 ⟨hp, hdocument⟩)
    · intro reference hne
      rw [Baked.Tileset.eq_baked_of_read hwrite hread, ← Tileset.mem_references hne,
        Part.references, hsources, List.mem_map]
      simp only [hkept, and_assoc]
  have hstream : ofTilesetStream ⟨extension⟩ stream = .ok ⟨asset.tileset,
      if asset.tileset.image == "" then none
        else some (LoadSettings.imagePath ⟨extension⟩ asset.tileset.image),
      .ofEntries (asset.tileset.tileImages.map fun (id, r) =>
        (id, LoadSettings.imagePath ⟨extension⟩ r))⟩ := by
    rw [ofTilesetStream, hread]
    rfl
  refine ⟨_, hstream, rfl, rfl, rfl, ?_, fun id => ?_⟩
  · rw [hsheet, himages]
    by_cases hsheet' : asset.tileset.image = ""
    · simp [hsheet']
    · simp [hsheet', Baked.Tileset.references]
  · rw [htileImages, filterMap_tileImages fun r hr => (himages r).trans (if_pos hr)]
    exact get?_tileImages_eq_iff (fun _ _ => LoadSettings.imagePath_inj) id

namespace LoadedTileset

def sampleTileset : String :=
  "<tileset tilecount=\"2\"><image source=\"cave.png\"/>" ++
  "<tile id=\"0\"><image source=\"cave.png\"/></tile>" ++
  "<tile id=\"1\"><image source=\"crate.png\"/></tile></tileset>"

def sampleTree : FileTree where
  files := [(["cave.tsx"], sampleTileset.toUTF8.data.toList), (["cave.png"], [1]),
    (["crate.png"], [2])]
  directories := []

theorem documentAt_sample : documentAt sampleTree "cave.tsx" = .ok sampleTileset :=
  documentAt_of_find (by decide +kernel)

theorem forwardSlashes_sample : Path.forwardSlashes "cave.tsx" = "cave.tsx" := rfl

def sampleImages : List String := ["cave.png", "crate.png"]

theorem sampleImages_hasExtension : ∀ path ∈ sampleImages, Path.HasExtension "png" path := by
  simp only [sampleImages, List.forall_mem_cons]
  refine ⟨⟨"cav".toList, 'e', by decide, rfl⟩, ⟨"crat".toList, 'e', by decide, rfl⟩, by simp⟩

theorem bake_sample :
    sampleTree.tilesetImages sampleTileset "cave.tsx" = ["cave.png", "cave.png", "crate.png"] ∧
    ((sampleTree.bakeTileset sampleTileset "cave.tsx").toOption.bind fun (stream, dependencies) =>
      (ofTilesetStream ⟨"png"⟩ stream).toOption.bind fun asset' =>
        (ofTilesetDocument sampleTree "cave.tsx").toOption.map fun asset =>
          (dependencies, (asset'.tileImages.get? 0, asset.tileImages.get? 0),
            asset.tileset.image, asset.tileset.ownImage? 1)) =
      some (sampleImages, (some "cave.png", none), "cave", some "crate") := by
  decide +kernel

theorem mem_tilesetImages_sample (p : String) :
    p ∈ sampleTree.tilesetImages sampleTileset "cave.tsx" ↔ p ∈ sampleImages := by
  rw [bake_sample.1]
  simp [sampleImages]

theorem load_sample :
    ∃ stream asset asset', ofTilesetDocument sampleTree "cave.tsx" = .ok asset ∧
      sampleTree.bakeTileset sampleTileset "cave.tsx" = .ok (stream, sampleImages) ∧
      ofTilesetStream ⟨"png"⟩ stream = .ok asset' ∧ asset'.tileImages.get? 0 = some "cave.png" ∧
      asset.tileImages.get? 0 = none ∧ asset.tileset.image = "cave" ∧
      asset.tileset.ownImage? 1 = some "crate" := by
  obtain ⟨⟨stream, dependencies⟩, hbake, hview⟩ := Option.bind_eq_some_iff.1 bake_sample.2
  obtain ⟨asset', hstream, hview⟩ := Option.bind_eq_some_iff.1 hview
  obtain ⟨asset, hload, hview⟩ := Option.map_eq_some_iff.1 hview
  simp only [Prod.mk.injEq] at hview
  obtain ⟨rfl, ⟨hread, hbaked⟩, hsheet, hown⟩ := hview
  exact ⟨stream, asset, asset', ok_of_toOption hload, ok_of_toOption hbake, ok_of_toOption hstream,
    hread, hbaked, hsheet, hown⟩

/-- The second tile has its own image either way. -/
theorem ofTilesetStream_of_ofTilesetDocument_sample :
    ∃ stream asset asset', ofTilesetDocument sampleTree "cave.tsx" = .ok asset ∧
      sampleTree.bakeTileset sampleTileset "cave.tsx" = .ok (stream, sampleImages) ∧
      ofTilesetStream ⟨"png"⟩ stream = .ok asset' ∧ asset'.tileset = asset.tileset ∧
      asset'.sheet = asset.sheet ∧ asset.tileImages.get? 1 = asset'.tileImages.get? 1 := by
  obtain ⟨stream, asset, _, hload, hbake, _, _, _, hsheet, hown⟩ := load_sample
  obtain ⟨document, stream', dependencies, hdocument, hbake', halike⟩ :=
    ofTilesetStream_of_ofTilesetDocument hload "png" (by decide) (by decide) (by decide) (by decide)
  rw [forwardSlashes_sample] at hbake' halike
  obtain rfl := Except.ok.inj (hdocument.symm.trans documentAt_sample)
  cases hbake.symm.trans hbake'
  simp only [mem_tilesetImages_sample] at halike
  obtain ⟨asset', hstream, htileset, _, _, hsheets, himages⟩ :=
    halike (fun p hp hother => absurd hp hother) sampleImages_hasExtension
  refine ⟨stream, asset, asset', hload, hbake, hstream, htileset, hsheets, (himages 1).2 ?_⟩
  rw [hown, hsheet]
  decide

/-- The first tile, whose own image is the sheet, loses it when it is baked as it is loaded. -/
theorem tileImages_of_shared_sheet :
    ∃ stream asset asset', ofTilesetDocument sampleTree "cave.tsx" = .ok asset ∧
      documentAt sampleTree "cave.tsx" = .ok sampleTileset ∧
      sampleTree.bakeTileset sampleTileset "cave.tsx" = .ok (stream, sampleImages) ∧
      (∀ p, p ∈ sampleTree.tilesetImages sampleTileset "cave.tsx" ↔ p ∈ sampleImages) ∧
      (∀ p ∈ sampleImages, Path.HasExtension "png" p) ∧
      ofTilesetStream ⟨"png"⟩ stream = .ok asset' ∧
      asset'.tileImages.get? 0 = some "cave.png" ∧ asset.tileImages.get? 0 = none := by
  obtain ⟨stream, asset, asset', hload, hbake, hstream, hread, hbaked, _⟩ := load_sample
  exact ⟨stream, asset, asset', hload, documentAt_sample, hbake, mem_tilesetImages_sample,
    sampleImages_hasExtension, hstream, hread, hbaked⟩

end LoadedTileset

end Asset

end TileKiln
