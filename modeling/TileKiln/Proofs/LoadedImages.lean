import TileKiln.Proofs.LoadedMap

namespace TileKiln

inductive ImagePlace
  | sheet (tileset : Nat)
  | tile (tileset tile : Nat)
  | layer (first : Nat) (steps : List Nat)

namespace Layer

def members : Layer → List Layer
  | group _ members => members
  | tiles .. | image .. | objects .. => []

def at? (layer : Layer) : List Nat → Option Layer
  | [] => some layer
  | i :: steps => layer.members[i]?.bind fun member => member.at? steps

def image? : Layer → Option Image
  | image _ picture => picture.image
  | tiles .. | objects .. | group .. => none

end Layer

namespace Baked.Layer

def members : Layer → List Layer
  | group _ members => members
  | tiles .. | image .. | objects .. => []

def at? (layer : Layer) : List Nat → Option Layer
  | [] => some layer
  | i :: steps => layer.members[i]?.bind fun member => member.at? steps

def reference? : Layer → Option String
  | image _ reference _ => some reference
  | tiles .. | objects .. | group .. => none

end Baked.Layer

def Map.imageAt? (map : Map) : ImagePlace → Option Image
  | .sheet i => map.loaded[i]?.bind fun t => t.image
  | .tile i j => (map.loaded[i]?.bind fun t => t.tiles[j]?).bind fun tile => tile.image
  | .layer i steps => (map.layers[i]?.bind fun l => l.at? steps).bind Layer.image?

/-- What a baked map stores in a place, the empty text where there is no image. -/
def Baked.Map.referenceAt? (m : Baked.Map) : ImagePlace → Option String
  | .sheet i => m.tilesets[i]?.map fun t => t.image
  | .tile i j => (m.tilesets[i]?.bind fun t => t.tiles[j]?).map fun tile => tile.image
  | .layer i steps => (m.layers[i]?.bind fun l => l.at? steps).bind Layer.reference?

theorem Layer.bakedAll_eq_map (ls : List Layer) : Layer.bakedAll ls = ls.map Layer.baked := by
  induction ls with
  | nil => rfl
  | cons l ls ih => rw [bakedAll, ih, List.map_cons]

theorem Layer.members_baked (l : Layer) : l.baked.members = l.members.map Layer.baked := by
  cases l with
  | group head members => exact bakedAll_eq_map members
  | tiles | image | objects => rfl

theorem Layer.at?_baked (l : Layer) (steps : List Nat) :
    l.baked.at? steps = (l.at? steps).map Layer.baked := by
  induction steps generalizing l with
  | nil => rfl
  | cons i steps ih =>
      rw [at?, Baked.Layer.at?, members_baked, List.getElem?_map]
      cases l.members[i]? with
      | none => rfl
      | some member => exact ih member

namespace Map

variable {map : Map} {place : ImagePlace} {image : Image} {reference : String}

/-- In a place that may have an image, a baked map has the reference to what is there. -/
theorem exists_slot (map : Map) (place : ImagePlace) :
    ∃ slot : Option (Option Image), map.imageAt? place = slot.join ∧
      map.baked.referenceAt? place = slot.map Image.reference := by
  cases place with
  | sheet i =>
      refine ⟨map.loaded[i]?.map Tileset.image, ?_, ?_⟩
      · rw [imageAt?]
        cases map.loaded[i]? <;> rfl
      · rw [Baked.Map.referenceAt?, Map.baked, List.getElem?_map]
        cases map.loaded[i]? <;> rfl
  | tile i j =>
      refine ⟨(map.loaded[i]?.bind fun t => t.tiles[j]?).map Tile.image, ?_, ?_⟩
      · rw [imageAt?]
        cases map.loaded[i]?.bind fun t => t.tiles[j]? <;> rfl
      · rw [Baked.Map.referenceAt?, Map.baked, List.getElem?_map]
        cases map.loaded[i]? with
        | none => rfl
        | some t =>
            rw [Option.map_some, Option.bind_some, Option.bind_some, Tileset.baked,
              List.getElem?_map]
            cases t.tiles[j]? <;> rfl
  | layer i steps =>
      have hlayer (l : Layer) : ∃ slot : Option (Option Image), l.image? = slot.join ∧
          l.baked.reference? = slot.map Image.reference := by
        cases l with
        | image head picture => exact ⟨some picture.image, rfl, rfl⟩
        | tiles | objects | group => exact ⟨none, rfl, rfl⟩
      rw [imageAt?, Baked.Map.referenceAt?, Map.baked, Layer.bakedAll_eq_map, List.getElem?_map]
      cases map.layers[i]? with
      | none => exact ⟨none, rfl, rfl⟩
      | some first =>
          rw [Option.map_some, Option.bind_some, Option.bind_some, Layer.at?_baked]
          cases first.at? steps with
          | none => exact ⟨none, rfl, rfl⟩
          | some l => exact hlayer l

theorem referenceAt?_baked (h : map.imageAt? place = some image) :
    map.baked.referenceAt? place = some (Path.imageReference image.source) := by
  obtain ⟨slot, himage, hreference⟩ := exists_slot map place
  rw [himage, Option.join_eq_some_iff] at h
  rw [hreference, h]
  rfl

theorem reference_of_referenceAt? (h : map.baked.referenceAt? place = some reference) :
    reference = Image.reference (map.imageAt? place) := by
  obtain ⟨slot, himage, hreference⟩ := exists_slot map place
  rw [hreference, Option.map_eq_some_iff] at h
  obtain ⟨image, rfl, rfl⟩ := h
  rw [himage, Option.join_some]
end Map

namespace Part

theorem mem_ofImage {image : Option Image} {i : Image} (h : image = some i) :
    .image i.source ∈ ofImage image := by
  subst h
  exact List.mem_singleton_self _

end Part

theorem Layer.parts_subset_partsAmong {l : Layer} {ls : List Layer} (h : l ∈ ls) :
    l.parts ⊆ Layer.partsAmong ls := by
  induction ls with
  | nil => cases h
  | cons first ls ih =>
      rw [partsAmong]
      rcases List.mem_cons.1 h with rfl | h
      · exact List.subset_append_left _ _
      · exact List.Subset.trans (ih h) (List.subset_append_right _ _)

theorem Layer.parts_subset_of_at? {l below : Layer} {steps : List Nat}
    (h : l.at? steps = some below) : below.parts ⊆ l.parts := by
  induction steps generalizing l with
  | nil =>
      cases h
      exact List.Subset.refl _
  | cons i steps ih =>
      obtain ⟨member, hmember, h⟩ := Option.bind_eq_some_iff.1 h
      have hmember : member ∈ l.members := List.mem_of_getElem? hmember
      have hmembers : Layer.partsAmong l.members ⊆ l.parts := by
        cases l with
        | group head members => exact List.Subset.refl _
        | tiles | image | objects => exact List.nil_subset _
      have hbelow : below.parts ⊆ Layer.partsAmong l.members :=
        List.Subset.trans (ih h) (parts_subset_partsAmong hmember)
      exact List.Subset.trans hbelow hmembers

theorem Map.source_mem_parts {map : Map} {place : ImagePlace} {image : Image}
    (hloaded : map.IsLoaded) (h : map.imageAt? place = some image) :
    .image image.source ∈ map.parts := by
  rw [parts_of_inline hloaded.tilesets_eq, List.mem_append]
  cases place with
  | sheet i =>
      obtain ⟨t, ht, himage⟩ := Option.bind_eq_some_iff.1 h
      refine .inl (List.mem_flatMap.2 ⟨t, List.mem_of_getElem? ht, ?_⟩)
      exact List.mem_append_left _ (Part.mem_ofImage himage)
  | tile i j =>
      obtain ⟨tile, htile, himage⟩ := Option.bind_eq_some_iff.1 h
      obtain ⟨t, ht, htile⟩ := Option.bind_eq_some_iff.1 htile
      refine .inl (List.mem_flatMap.2 ⟨t, List.mem_of_getElem? ht, ?_⟩)
      refine List.mem_append_right _ (List.mem_flatMap.2 ⟨tile, List.mem_of_getElem? htile, ?_⟩)
      exact List.mem_append_left _ (Part.mem_ofImage himage)
  | layer i steps =>
      obtain ⟨l, hl, himage⟩ := Option.bind_eq_some_iff.1 h
      obtain ⟨first, hfirst, hl⟩ := Option.bind_eq_some_iff.1 hl
      refine .inr (Layer.parts_subset_partsAmong (List.mem_of_getElem? hfirst)
        (Layer.parts_subset_of_at? hl ?_))
      cases l with
      | image head picture => exact Part.mem_ofImage himage
      | tiles | objects | group => cases himage

namespace FileTree

variable {tree : FileTree} {firstGids : List (String × UInt32)} {parts parts' : List Part}
  {front calls : List Call} {dependencies : List String}

theorem sources_subset_of_replays (h : Account firstGids parts calls parts')
    (hreplays : tree.host.Replays (front ++ calls) [] dependencies) :
    parts'.filterMap Part.source? ⊆ dependencies := by
  have hoffers := (replays_iff.1 hreplays).1
  rw [List.forall_mem_append] at hoffers
  rw [sources_of_account h hoffers.2]
  have himages := images_subset_of_replays hreplays
  rw [List.filterMap_append] at himages
  exact fun path hpath => himages (List.mem_append_right _ hpath)

end FileTree

namespace Asset

variable {tree : FileTree} {settings : BakeSettings} {path : String} {dependencies : List String}
  {images : Table String String} {asset : MapAsset String}

/-- The dependencies that are taken for images and have a reference in common. -/
def namesakes (dependencies : List String) (reference : String) : List String :=
  (dependencies.filter (!isDocument ·)).filter (Path.imageReference · == reference)

theorem mem_namesakes {p reference : String} :
    p ∈ namesakes dependencies reference ↔
      p ∈ dependencies ∧ isDocument p = false ∧ Path.imageReference p = reference := by
  rw [namesakes, List.mem_filter, List.mem_filter, and_assoc, Bool.not_eq_true', beq_iff_eq]

theorem get?_of_register (h : register tree dependencies [] = .ok images) (reference : String) :
    images.get? reference = (namesakes dependencies reference).getLast? := by
  rw [register_eq h]
  change (Table.ofEntries _).get? reference = _
  rw [Table.get?_ofEntries_last, List.filter_map, List.getLast?_map, Option.map_map]
  exact Option.map_id'

theorem getLast?_of_forall_eq {α : Type} {as : List α} {a : α} (hmem : a ∈ as)
    (h : ∀ b ∈ as, b = a) : as.getLast? = some a := by
  rw [List.getLast?_eq_some_getLast (List.ne_nil_of_mem hmem)]
  exact congrArg some (h _ (List.getLast_mem _))

/-- Wherever the author of a map has put an image, the reference leads to one of the dependencies
that are taken for images and have the same path but for the extension: to the one that was recorded
last. If there is only one, that is the author's. -/
theorem image?_of_ofMapDocument (h : ofMapDocument tree settings path = .ok asset) :
    ∃ document parsed after dependencies, documentAt tree path = .ok document ∧
      Map.parse document (Path.forwardSlashes path) = .ok parsed ∧
      parsed.assemble tree.host settings [] = (⟨after, none⟩, dependencies) ∧
      ∀ place image, after.imageAt? place = some image → isDocument image.source = false →
        ∃ reference, asset.map.referenceAt? place = some reference ∧
          image.source ∈ namesakes dependencies reference ∧
          asset.image? reference = (namesakes dependencies reference).getLast? ∧
          ((∀ p ∈ namesakes dependencies reference, p = image.source) →
            asset.image? reference = some image.source) := by
  obtain ⟨document, stream, dependencies, hdocument, hbake, hread, hregister⟩ :=
    ofMapDocument_eq_ok_iff.1 h
  obtain ⟨parsed, after, hparse, hassemble, hwrite⟩ :=
    run_of_logged_compileWith (FileTree.bake_eq_ok_iff.1 hbake)
  refine ⟨document, parsed, after, dependencies, hdocument, hparse, hassemble, ?_⟩
  intro place image himage hkept
  obtain ⟨_, hreplays, ⟨_, _, _, rfl, htranscript⟩, _⟩ :=
    Assembly.assemble_recorded settings parsed tree.host (Work.toBake_eq_ok_iff.2 hassemble)
  have hsource : image.source ∈ dependencies :=
    FileTree.sources_subset_of_replays htranscript.account hreplays (List.mem_filterMap.2
      ⟨_, Map.source_mem_parts htranscript.isLoaded himage, rfl⟩)
  have hmem : image.source ∈ namesakes dependencies (Path.imageReference image.source) :=
    mem_namesakes.2 ⟨hsource, hkept, rfl⟩
  have hshown := get?_of_register hregister (Path.imageReference image.source)
  refine ⟨Path.imageReference image.source, ?_, hmem, hshown, ?_⟩
  · rw [Baked.eq_baked_of_read htranscript.isLoaded hwrite hread]
    exact Map.referenceAt?_baked himage
  · intro honly
    exact hshown.trans (getLast?_of_forall_eq hmem honly)

namespace LoadedImages

def sampleMap : String :=
  "<map><tileset firstgid=\"1\" tilecount=\"1\"><image source=\"cave.png\"/></tileset>" ++
  "<imagelayer><image source=\"cave.jpg\"/></imagelayer>" ++
  "<group><imagelayer><image source=\"sky.png\"/></imagelayer></group></map>"

def sampleTree : FileTree where
  files := [(["level.tmx"], sampleMap.toUTF8.data.toList), (["cave.png"], [1]),
    (["cave.jpg"], [2]), (["sky.png"], [3])]
  directories := []

theorem documentAt_sample : documentAt sampleTree "level.tmx" = .ok sampleMap :=
  documentAt_of_find (by decide +kernel)

theorem forwardSlashes_sample : Path.forwardSlashes "level.tmx" = "level.tmx" := rfl

theorem isDocument_sample : isDocument "cave.png" = false ∧ isDocument "sky.png" = false := by
  have hcave : Path.HasExtension "png" "cave.png" := ⟨"cav".toList, 'e', by decide, rfl⟩
  have hsky : Path.HasExtension "png" "sky.png" := ⟨"sk".toList, 'y', by decide, rfl⟩
  exact ⟨not_isDocument_of_hasExtension hcave (by decide) (by decide) (by decide),
    not_isDocument_of_hasExtension hsky (by decide) (by decide) (by decide)⟩

def sampleDependencies : List String := ["cave.png", "cave.jpg", "sky.png"]

theorem assemble_sample :
    ((Map.parse sampleMap "level.tmx").toOption.map fun parsed =>
      let (progress, dependencies) := parsed.assemble sampleTree.host {} []
      (progress.failure.isNone, dependencies,
        (progress.value.imageAt? (.sheet 0)).map Image.source,
        (progress.value.imageAt? (.layer 1 [0])).map Image.source)) =
      some (true, sampleDependencies, some "cave.png", some "sky.png") := by
  decide +kernel

theorem assembled_sample :
    ∃ parsed after sheet sky, Map.parse sampleMap "level.tmx" = .ok parsed ∧
      parsed.assemble sampleTree.host {} [] = (⟨after, none⟩, sampleDependencies) ∧
      after.imageAt? (.sheet 0) = some sheet ∧ sheet.source = "cave.png" ∧
      after.imageAt? (.layer 1 [0]) = some sky ∧ sky.source = "sky.png" := by
  obtain ⟨parsed, hparse, hview⟩ := Option.map_eq_some_iff.1 assemble_sample
  rcases hassemble : parsed.assemble sampleTree.host {} [] with ⟨⟨after, failure⟩, dependencies⟩
  rw [hassemble] at hview
  simp only [Option.isNone_iff_eq_none, Prod.mk.injEq] at hview
  obtain ⟨rfl, rfl, hsheet, hsky⟩ := hview
  obtain ⟨sheet, hsheet, hsheetSource⟩ := Option.map_eq_some_iff.1 hsheet
  obtain ⟨sky, hsky, hskySource⟩ := Option.map_eq_some_iff.1 hsky
  exact ⟨parsed, after, sheet, sky, ok_of_toOption hparse, hassemble, hsheet, hsheetSource, hsky,
    hskySource⟩

theorem bake_sample :
    ((sampleTree.bakeMap {} sampleMap "level.tmx").toOption.bind fun (stream, dependencies) =>
      (Baked.Map.read stream).toOption.bind fun m =>
        (register sampleTree dependencies []).toOption.map fun images =>
          (m.referenceAt? (.sheet 0), images.get? "cave")) =
      some (some "cave", some "cave.jpg") := by
  decide +kernel

theorem load_sample :
    ∃ asset, ofMapDocument sampleTree {} "level.tmx" = .ok asset ∧
      asset.map.referenceAt? (.sheet 0) = some "cave" ∧ asset.image? "cave" = some "cave.jpg" := by
  obtain ⟨⟨stream, dependencies⟩, hbake, hview⟩ := Option.bind_eq_some_iff.1 bake_sample
  obtain ⟨m, hread, hview⟩ := Option.bind_eq_some_iff.1 hview
  obtain ⟨images, hregister, hview⟩ := Option.map_eq_some_iff.1 hview
  simp only [Prod.mk.injEq] at hview
  refine ⟨⟨m, images⟩, ofMapDocument_eq_ok_iff.2 ⟨sampleMap, stream, dependencies,
    documentAt_sample, ?_, ok_of_toOption hread, ok_of_toOption hregister⟩, hview⟩
  rw [forwardSlashes_sample]
  exact ok_of_toOption hbake

/-- The sky has a name of its own. -/
theorem image?_of_ofMapDocument_sample :
    ∃ asset, ofMapDocument sampleTree {} "level.tmx" = .ok asset ∧
      asset.map.referenceAt? (.layer 1 [0]) = some "sky" ∧
      asset.image? "sky" = some "sky.png" := by
  obtain ⟨asset, hload, _⟩ := load_sample
  obtain ⟨document, parsed, after, dependencies, hdocument, hparse, hassemble, hshown⟩ :=
    image?_of_ofMapDocument hload
  obtain ⟨parsed', after', _, sky, hparse', hassemble', _, _, hsky, hsource⟩ := assembled_sample
  obtain rfl := Except.ok.inj (hdocument.symm.trans documentAt_sample)
  rw [forwardSlashes_sample] at hparse
  obtain rfl := Except.ok.inj (hparse.symm.trans hparse')
  cases hassemble.symm.trans hassemble'
  have hkept : isDocument sky.source = false := hsource ▸ isDocument_sample.2
  obtain ⟨reference, hreference, hmem, _, honly⟩ := hshown _ sky hsky hkept
  obtain rfl : reference = "sky" := by
    rw [← (mem_namesakes.1 hmem).2.2, hsource]
    rfl
  have hnamesakes : namesakes sampleDependencies "sky" = ["sky.png"] := by
    decide +kernel
  rw [hnamesakes, hsource] at honly
  exact ⟨asset, hload, hreference, honly fun _ => List.mem_singleton.1⟩

/-- The sheet is shown as the picture that was recorded last under its name. -/
theorem image?_of_namesake :
    ∃ asset parsed after sheet, ofMapDocument sampleTree {} "level.tmx" = .ok asset ∧
      documentAt sampleTree "level.tmx" = .ok sampleMap ∧
      Map.parse sampleMap "level.tmx" = .ok parsed ∧
      parsed.assemble sampleTree.host {} [] = (⟨after, none⟩, sampleDependencies) ∧
      after.imageAt? (.sheet 0) = some sheet ∧ sheet.source = "cave.png" ∧
      isDocument "cave.png" = false ∧ asset.map.referenceAt? (.sheet 0) = some "cave" ∧
      asset.image? "cave" = some "cave.jpg" := by
  obtain ⟨asset, hload, hreference, hshown⟩ := load_sample
  obtain ⟨parsed, after, sheet, _, hparse, hassemble, hsheet, hsource, _⟩ := assembled_sample
  exact ⟨asset, parsed, after, sheet, hload, documentAt_sample, hparse, hassemble, hsheet, hsource,
    isDocument_sample.1, hreference, hshown⟩

end LoadedImages

end Asset

end TileKiln
