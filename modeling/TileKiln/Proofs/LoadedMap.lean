import TileKiln.Proofs.Dependencies
import TileKiln.Proofs.FileNames
import TileKiln.Proofs.ImageReferences
import TileKiln.Proofs.MapRoundTrip

namespace TileKiln

namespace Path

def HasExtension (extension path : String) : Prop :=
  ∃ (front : List Char) (last : Char), last ≠ '/' ∧
    path.toList = front ++ last :: '.' :: extension.toList

variable {extension path : String}

theorem HasExtension.exists_splits (h : HasExtension extension path)
    (hslash : '/' ∉ extension.toList) :
    ∃ dir stem, stem ≠ "" ∧ Splits path dir (stem ++ "." ++ extension) := by
  obtain ⟨front, last, hlast, hpath⟩ := h
  obtain ⟨dir, stem, hsplits⟩ := Path.exists_splits (String.ofList (front ++ [last]))
  have hfront := congrArg String.toList hsplits.append_eq
  rw [String.toList_append, String.toList_ofList] at hfront
  refine ⟨dir, stem, ?_, ?_, hsplits.closed, ?_⟩
  · -- Without a stem, the last character in front of the dot would be a slash.
    rintro rfl
    rcases hsplits.closed with rfl | ⟨outer, rfl⟩
    · simp at hfront
    · simp only [String.toList_append, String.toList_empty, List.append_nil] at hfront
      exact hlast (List.singleton_inj.1 (List.append_inj_right' hfront rfl)).symm
  · apply String.toList_inj.1
    rw [hpath]
    simp only [String.toList_append, ← List.append_assoc, hfront]
    simp
  · simp [hsplits.no_slash, hslash]

theorem imageReference_of_hasExtension (h : HasExtension extension path)
    (hdot : '.' ∉ extension.toList) (hslash : '/' ∉ extension.toList) :
    imageReference path ≠ "" ∧ imageReference path ++ "." ++ extension = path := by
  obtain ⟨dir, stem, hne, hsplits⟩ := h.exists_splits hslash
  constructor
  · rw [Ne, imageReference_eq_empty_iff]
    rintro rfl
    obtain ⟨front, last, _, hpath⟩ := h
    simp at hpath
  · exact imagePath_imageReference hsplits hne hdot

/-- Two endings of a text that begin with its last dot are the same. -/
theorem eq_of_suffix {cs front back : List Char} (hfront : '.' ∉ front) (hback : '.' ∉ back)
    (h : '.' :: front <:+ cs) (h' : '.' :: back <:+ cs) : front = back := by
  rcases List.suffix_or_suffix_of_suffix h h' with hsuffix | hsuffix
  · rcases List.suffix_cons_iff.1 hsuffix with heq | hsuffix
    · exact (List.cons.inj heq).2
    · exact absurd (hsuffix.mem List.mem_cons_self) hback
  · rcases List.suffix_cons_iff.1 hsuffix with heq | hsuffix
    · exact (List.cons.inj heq).2.symm
    · exact absurd (hsuffix.mem List.mem_cons_self) hfront

theorem not_endsWith_of_hasExtension (h : HasExtension extension path)
    (hdot : '.' ∉ extension.toList) {ending : String} (hending : '.' ∉ ending.toList)
    (hne : extension ≠ ending) : path.endsWith ("." ++ ending) = false := by
  have hextension : '.' :: extension.toList <:+ path.toList := by
    obtain ⟨front, last, _, hpath⟩ := h
    exact ⟨front ++ [last], by simp [hpath]⟩
  rw [Bool.eq_false_iff]
  intro hends
  rw [← String.endsWith_toSlice, String.Slice.endsWith_string_iff, String.copy_toSlice,
    String.toList_append] at hends
  exact hne (String.toList_inj.1 (eq_of_suffix hdot hending hextension hends))

end Path

namespace Table

variable {κ η : Type} [BEq κ] [LawfulBEq κ] [DecidableEq κ]

theorem get?_cons (table : Table κ η) (key other : κ) (value : η) :
    get? ((key, value) :: table) other = if other = key then some value else table.get? other := by
  by_cases h : other = key
  · subst h
    simp [get?]
  · rw [get?, List.lookup_cons, beq_false_of_ne h, if_neg h]
    rfl

theorem get?_erase {table : Table κ η} {key other : κ} (h : other ≠ key) :
    (table.erase key).get? other = table.get? other := by
  induction table with
  | nil => rfl
  | cons entry table ih =>
      obtain ⟨first, value⟩ := entry
      rw [erase] at ih
      by_cases hfirst : first = key
      · rw [erase, List.filter_cons_of_neg (by simp [hfirst]), ih, get?_cons,
          if_neg (hfirst ▸ h)]
      · rw [erase, List.filter_cons_of_pos (by simp [hfirst]), get?_cons, get?_cons, ih]

omit [DecidableEq κ] in
theorem get?_erase_self (table : Table κ η) (key : κ) : (table.erase key).get? key = none := by
  rw [get?, List.lookup_eq_none_iff]
  intro entry hentry
  have hkept := (List.mem_filter.1 hentry).2
  rw [bne_iff_ne] at hkept
  simpa using hkept.symm

theorem get?_insert (table : Table κ η) (key other : κ) (value : η) :
    (table.insert key value).get? other = if other = key then some value else table.get? other := by
  rw [insert, get?_cons]
  by_cases h : other = key
  · rw [if_pos h, if_pos h]
  · rw [if_neg h, if_neg h, get?_erase h]

theorem get?_foldl_insert (keys : List κ) (value : κ → η) (table : Table κ η) (key : κ) :
    ((keys.map fun k => (k, value k)).foldl (fun table (k, v) => table.insert k v) table).get? key =
      if key ∈ keys then some (value key) else table.get? key := by
  induction keys generalizing table with
  | nil => simp
  | cons first keys ih =>
      rw [List.map_cons, List.foldl_cons, ih, get?_insert]
      by_cases hkeys : key ∈ keys
      · simp [hkeys]
      · by_cases hfirst : key = first <;> simp [hkeys, hfirst]

theorem get?_ofEntries (keys : List κ) (value : κ → η) (key : κ) :
    (ofEntries (keys.map fun k => (k, value k))).get? key =
      if key ∈ keys then some (value key) else none :=
  get?_foldl_insert keys value [] key

/-- The value that is found for a key is that of the last entry with it. -/
theorem get?_foldl_insert_last (entries : List (κ × η)) (table : Table κ η) (key : κ) :
    (entries.foldl (fun table (k, v) => table.insert k v) table).get? key =
      (((entries.filter (·.1 == key)).getLast?).map (·.2)).or (table.get? key) := by
  induction entries generalizing table with
  | nil => rfl
  | cons entry entries ih =>
      obtain ⟨first, value⟩ := entry
      rw [List.foldl_cons, ih, get?_insert]
      by_cases hfirst : first = key
      · rw [if_pos hfirst.symm, List.filter_cons_of_pos (by simp [hfirst]), List.getLast?_cons]
        cases (entries.filter (·.1 == key)).getLast? <;> rfl
      · rw [if_neg (Ne.symm hfirst), List.filter_cons_of_neg (by simp [hfirst])]

theorem get?_ofEntries_last (entries : List (κ × η)) (key : κ) :
    (ofEntries entries).get? key = ((entries.filter (·.1 == key)).getLast?).map (·.2) := by
  rw [ofEntries, get?_foldl_insert_last]
  exact Option.or_none

end Table

theorem Object.TemplateChain.images_calls (chain : Object.TemplateChain) :
    chain.calls.filterMap Call.image? = [] := by
  rw [Object.TemplateChain.calls, List.filterMap_flatMap, List.flatMap_eq_nil_iff]
  rintro ⟨reference, template⟩ _
  dsimp only [Template.calls]
  split <;> rfl

namespace FileTree

variable {tree : FileTree} {settings : BakeSettings} {document path : String}
  {stream : List UInt8} {dependencies : List String}

def mapImages (tree : FileTree) (settings : BakeSettings) (document path : String) : List String :=
  (tree.mapCalls settings document path).filterMap Call.image?

theorem sources_of_account {firstGids : List (String × UInt32)} {parts parts' : List Part}
    {calls : List Call} (h : Account firstGids parts calls parts')
    (hoffers : ∀ call ∈ calls, tree.Offers call) :
    parts'.filterMap Part.source? = calls.filterMap Call.image? := by
  induction h with
  | nil => rfl
  | image source answer parts calls parts' _ ih =>
      rw [List.forall_mem_cons] at hoffers
      obtain rfl : answer = source := hoffers.1.2
      exact congrArg (answer :: ·) (ih hoffers.2)
  | object object chain resolved parts calls parts' _ _ ih =>
      rw [List.forall_mem_append] at hoffers
      rw [List.filterMap_append, chain.images_calls]
      exact ih hoffers.2
  | log level message parts calls parts' _ ih =>
      rw [List.forall_mem_cons] at hoffers
      exact ih hoffers.2

theorem images_subset_of_replays {calls : List Call}
    (h : tree.host.Replays calls [] dependencies) : calls.filterMap Call.image? ⊆ dependencies := by
  intro image himage
  obtain ⟨call, hcall, hpath⟩ := List.mem_filterMap.1 himage
  rw [(replays_iff.1 h).2, mem_addDependencies]
  refine .inl (List.mem_filterMap.2 ⟨call, hcall, ?_⟩)
  cases call with
  | image => exact hpath
  | tileset | template | dependency | log => cases hpath

theorem assembled_of_bakeMap
    (h : tree.bakeMap settings document path = .ok (stream, dependencies)) :
    ∃ after : Map, after.IsLoaded ∧ Writer.bytes after.write = .ok stream ∧
      after.parts.filterMap Part.source? = tree.mapImages settings document path ∧
      tree.mapImages settings document path ⊆ dependencies := by
  obtain ⟨hreplays, ⟨_, loaded, loads, shapes, after, hcalls, _, htranscript, hwrite⟩, _⟩ :=
    (recorded_compileMap settings document path).of_run (bake_eq_ok_iff.1 h)
  have hoffers := (replays_iff.1 hreplays).1
  refine ⟨after, htranscript.isLoaded, hwrite, ?_, images_subset_of_replays hreplays⟩
  have hloads : loads.filterMap Call.image? = [] := by
    rw [List.filterMap_eq_nil_iff]
    intro call hcall
    obtain ⟨_, _, rfl⟩ := Assembly.calls_of_loads htranscript.loads call hcall
    rfl
  rw [hcalls] at hoffers
  rw [List.forall_mem_cons, List.forall_mem_append] at hoffers
  rw [mapImages, mapCalls, hcalls]
  change _ = (loads ++ shapes).filterMap Call.image?
  rw [List.filterMap_append, hloads]
  exact sources_of_account htranscript.account hoffers.2.2

end FileTree

namespace Asset

variable {tree : FileTree} {settings : BakeSettings} {path extension : String}
  {dependencies : List String} {images images' : Table String String} {asset : MapAsset String}

theorem not_isDocument_of_hasExtension (h : Path.HasExtension extension path)
    (hdot : '.' ∉ extension.toList) (htsx : extension ≠ "tsx") (htx : extension ≠ "tx") :
    isDocument path = false := by
  have htsx' : path.endsWith ".tsx" = false :=
    Path.not_endsWith_of_hasExtension h hdot (by decide) htsx
  have htx' : path.endsWith ".tx" = false :=
    Path.not_endsWith_of_hasExtension h hdot (by decide) htx
  rw [isDocument, htsx', htx']
  rfl

theorem register_eq (h : register tree dependencies images = .ok images') :
    images' = ((dependencies.filter (!isDocument ·)).map fun path =>
      (Path.imageReference path, path)).foldl (fun table (k, v) => table.insert k v) images := by
  induction dependencies generalizing images with
  | nil =>
      cases h
      rfl
  | cons path dependencies ih =>
      rw [register] at h
      cases hdocument : isDocument path with
      | true =>
          rw [hdocument, if_pos rfl] at h
          split at h
          · rw [ih h, List.filter_cons_of_neg (by simp [hdocument])]
          · cases h
      | false =>
          rw [hdocument, if_neg Bool.false_ne_true] at h
          rw [ih h, List.filter_cons_of_pos (by simp [hdocument])]
          rfl

theorem documentAt_of_find {document : String}
    (h : tree.find path = .file document.toUTF8.data.toList) :
    documentAt tree path = .ok document := by
  have htext := Baked.ReadsBack.fromUTF8?_toUTF8 document
  rw [documentAt, contentAt, h]
  dsimp only [bind, Except.bind]
  rw [htext]
  rfl

theorem ofMapDocument_eq_ok_iff :
    ofMapDocument tree settings path = .ok asset ↔
      ∃ document stream dependencies, documentAt tree path = .ok document ∧
        tree.bakeMap settings document (Path.forwardSlashes path) = .ok (stream, dependencies) ∧
        Baked.Map.read stream = .ok asset.map ∧
        register tree dependencies [] = .ok asset.images := by
  constructor
  · intro h
    obtain ⟨document, hdocument, h⟩ := ok_of_bind h
    obtain ⟨⟨stream, dependencies⟩, hbake, h⟩ := ok_of_bind h
    obtain ⟨map, hread, h⟩ := ok_of_bind h
    obtain ⟨images, hregister, h⟩ := ok_of_bind h
    cases h
    exact ⟨document, stream, dependencies, hdocument, ok_of_mapError hbake, ok_of_mapError hread,
      hregister⟩
  · rintro ⟨document, stream, dependencies, hdocument, hbake, hread, hregister⟩
    simp only [ofMapDocument, hdocument, hbake, hread, hregister, bind, Except.bind,
      Except.mapError]
    rfl

/-- Both tables of images hold the same paths if the dependencies and the stream name the same
images. -/
theorem get?_register_eq {loading : LoadSettings}
    (h : register tree dependencies [] = .ok images)
    (hpaths : ∀ path ∈ dependencies, isDocument path = false →
      loading.imagePath (Path.imageReference path) = path) {references : List String}
    (hreferences : ∀ reference, reference ∈ references ↔
      ∃ path ∈ dependencies, isDocument path = false ∧ Path.imageReference path = reference)
    (reference : String) :
    (Table.ofEntries (references.map fun r => (r, loading.imagePath r))).get? reference =
      images.get? reference := by
  have hkept (path : String) : path ∈ dependencies.filter (!isDocument ·) ↔
      path ∈ dependencies ∧ isDocument path = false := by
    rw [List.mem_filter, Bool.not_eq_true']
  have hentries : (dependencies.filter (!isDocument ·)).map
      (fun path => (Path.imageReference path, path)) =
        ((dependencies.filter (!isDocument ·)).map Path.imageReference).map
          fun r => (r, loading.imagePath r) := by
    rw [List.map_map]
    apply List.map_congr_left
    intro path hpath
    obtain ⟨hdependency, hdocument⟩ := (hkept path).1 hpath
    exact congrArg (Prod.mk _) (hpaths path hdependency hdocument).symm
  have hsame : reference ∈ references ↔
      reference ∈ (dependencies.filter (!isDocument ·)).map Path.imageReference := by
    simp only [hreferences, List.mem_map, hkept, and_assoc]
  rw [register_eq h, hentries, Table.get?_foldl_insert, Table.get?_ofEntries]
  exact if_congr hsame rfl rfl

/-- Of what a bake has recorded, the loader takes for images what the bake resolved as images. -/
theorem mem_images_iff {paths : List String} (hrecorded : paths ⊆ dependencies)
    (hothers : ∀ p ∈ dependencies, p ∉ paths → p.endsWith ".tsx" ∨ p.endsWith ".tx")
    (hpaths : ∀ p ∈ paths, isDocument p = false) {p : String} :
    p ∈ paths ↔ p ∈ dependencies ∧ isDocument p = false := by
  constructor
  · intro hp
    exact ⟨hrecorded hp, hpaths p hp⟩
  · rintro ⟨hp, hdocument⟩
    by_contra hother
    have hends := hothers p hp hother
    rw [isDocument, Bool.or_eq_false_iff] at hdocument
    simp [hdocument] at hends

/-- A map that is baked as it is loaded is the same asset as the one that is loaded from the stream
of this bake, if all images have one extension and the documents can be told from them. -/
theorem ofMapStream_of_ofMapDocument (h : ofMapDocument tree settings path = .ok asset)
    (extension : String) (hdot : '.' ∉ extension.toList) (hslash : '/' ∉ extension.toList)
    (htsx : extension ≠ "tsx") (htx : extension ≠ "tx") :
    ∃ document stream dependencies, documentAt tree path = .ok document ∧
      tree.bakeMap settings document (Path.forwardSlashes path) = .ok (stream, dependencies) ∧
      ((∀ p ∈ dependencies,
          p ∉ tree.mapImages settings document (Path.forwardSlashes path) →
          p.endsWith ".tsx" ∨ p.endsWith ".tx") →
        (∀ p ∈ tree.mapImages settings document (Path.forwardSlashes path),
          Path.HasExtension extension p) →
        ∃ asset', ofMapStream ⟨extension⟩ stream = .ok asset' ∧ asset'.map = asset.map ∧
          asset'.map.gridSize = asset.map.gridSize ∧ asset'.map.tileSize = asset.map.tileSize ∧
          asset'.map.largestTileSize = asset.map.largestTileSize ∧
          ∀ reference, asset'.image? reference = asset.image? reference) := by
  obtain ⟨document, stream, dependencies, hdocument, hbake, hread, hregister⟩ :=
    ofMapDocument_eq_ok_iff.1 h
  refine ⟨document, stream, dependencies, hdocument, hbake, fun hothers himages => ?_⟩
  obtain ⟨after, hloaded, hwrite, hsources, hrecorded⟩ := FileTree.assembled_of_bakeMap hbake
  generalize tree.mapImages settings document (Path.forwardSlashes path) = images at *
  have hmap : asset.map = after.baked := Baked.eq_baked_of_read hloaded hwrite hread
  have hstream : ofMapStream ⟨extension⟩ stream = .ok ⟨asset.map, .ofEntries
      (asset.map.imageReferences.map fun r => (r, LoadSettings.imagePath ⟨extension⟩ r))⟩ := by
    rw [ofMapStream, hread]
    rfl
  have hnames (p : String) (hp : p ∈ images) :=
    Path.imageReference_of_hasExtension (himages p hp) hdot hslash
  have hkept (p : String) : p ∈ images ↔ p ∈ dependencies ∧ isDocument p = false :=
    mem_images_iff hrecorded hothers fun p hp =>
      not_isDocument_of_hasExtension (himages p hp) hdot htsx htx
  refine ⟨_, hstream, rfl, rfl, rfl, rfl, get?_register_eq hregister ?_ ?_⟩
  · intro p hp hdocument
    exact (hnames p ((hkept p).2 ⟨hp, hdocument⟩)).2
  · intro reference
    rw [hmap, Map.mem_imageReferences_baked hloaded, Part.references, hsources, List.mem_map]
    constructor
    · rintro ⟨_, p, hp, rfl⟩
      exact ⟨p, ((hkept p).1 hp).1, ((hkept p).1 hp).2, rfl⟩
    · rintro ⟨p, hp, hdocument, rfl⟩
      have himage := (hkept p).2 ⟨hp, hdocument⟩
      exact ⟨(hnames p himage).1, p, himage, rfl⟩

namespace LoadedMap

def sampleMap : String :=
  "<map><tileset firstgid=\"1\" source=\"sets/cave.tsx\"/>" ++
  "<imagelayer><image source=\"sky.day.png\"/></imagelayer></map>"

def sampleTree : FileTree where
  files := [(["level.tmx"], sampleMap.toUTF8.data.toList),
    (["sets", "cave.tsx"], "<tileset><image source=\"cave.png\"/></tileset>".toUTF8.toList),
    (["sets", "cave.png"], [1]), (["sky.day.png"], [2])]
  directories := []

theorem documentAt_sample : documentAt sampleTree "level.tmx" = .ok sampleMap :=
  documentAt_of_find (by decide +kernel)

theorem forwardSlashes_sample : Path.forwardSlashes "level.tmx" = "level.tmx" := by
  decide +kernel

def sampleDependencies : List String := ["sets/cave.tsx", "sets/cave.png", "sky.day.png"]

def sampleImages : Table String String :=
  [("sky.day", "sky.day.png"), ("sets/cave", "sets/cave.png")]

theorem bake_sample :
    ((sampleTree.bakeMap {} sampleMap "level.tmx").toOption.bind fun (stream, dependencies) =>
      (Baked.Map.read stream).toOption.bind fun _ =>
        (register sampleTree dependencies []).toOption.map fun images => (dependencies, images)) =
      some (sampleDependencies, sampleImages) := by
  decide +kernel

theorem mapImages_sample :
    sampleTree.mapImages {} sampleMap "level.tmx" = ["sets/cave.png", "sky.day.png"] := by
  decide +kernel

theorem load_sample :
    ∃ asset stream, ofMapDocument sampleTree {} "level.tmx" = .ok asset ∧
      asset.images = sampleImages ∧
      sampleTree.bakeMap {} sampleMap "level.tmx" = .ok (stream, sampleDependencies) := by
  obtain ⟨⟨stream, dependencies⟩, hbake, hview⟩ := Option.bind_eq_some_iff.1 bake_sample
  obtain ⟨m, hread, hview⟩ := Option.bind_eq_some_iff.1 hview
  obtain ⟨images, hregister, hview⟩ := Option.map_eq_some_iff.1 hview
  cases hview
  have hload : ofMapDocument sampleTree {} "level.tmx" = .ok ⟨m, sampleImages⟩ := by
    refine ofMapDocument_eq_ok_iff.2 ⟨sampleMap, stream, sampleDependencies, documentAt_sample, ?_,
      ok_of_toOption hread, ok_of_toOption hregister⟩
    rw [forwardSlashes_sample]
    exact ok_of_toOption hbake
  exact ⟨⟨m, sampleImages⟩, stream, hload, rfl, ok_of_toOption hbake⟩

theorem sampleImages_hasExtension :
    ∀ path ∈ ["sets/cave.png", "sky.day.png"], Path.HasExtension "png" path := by
  simp only [List.forall_mem_cons]
  refine ⟨⟨"sets/cav".toList, 'e', by decide, by decide +kernel⟩,
    ⟨"sky.da".toList, 'y', by decide, by decide +kernel⟩, by simp⟩

/-- A map with a sheet of tiles in another directory and a picture with a dot in its name. -/
theorem ofMapStream_of_ofMapDocument_sample :
    ∃ asset stream dependencies asset', ofMapDocument sampleTree {} "level.tmx" = .ok asset ∧
      sampleTree.bakeMap {} sampleMap "level.tmx" = .ok (stream, dependencies) ∧
      ofMapStream ⟨"png"⟩ stream = .ok asset' ∧ asset'.map = asset.map ∧
      asset'.image? "sky.day" = some "sky.day.png" := by
  obtain ⟨asset, stream, hload, himages, hbake⟩ := load_sample
  obtain ⟨document, stream', dependencies, hdocument, hbake', halike⟩ :=
    ofMapStream_of_ofMapDocument hload "png" (by decide) (by decide) (by decide) (by decide)
  rw [forwardSlashes_sample] at hbake' halike
  obtain rfl := Except.ok.inj (hdocument.symm.trans documentAt_sample)
  cases hbake.symm.trans hbake'
  rw [mapImages_sample] at halike
  obtain ⟨asset', hstream, hmap, _, _, _, hsame⟩ :=
    halike (by decide +kernel) sampleImages_hasExtension
  refine ⟨asset, stream, _, asset', hload, hbake, hstream, hmap, ?_⟩
  rw [hsame, MapAsset.image?, himages]
  rfl

end LoadedMap

end Asset

end TileKiln
