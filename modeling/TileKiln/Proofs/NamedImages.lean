import TileKiln.Host.Memory
import TileKiln.Proofs.FileNames
import TileKiln.Proofs.LoadedImages
import TileKiln.Proofs.ParsedImages

namespace TileKiln

open TileKiln.Part

variable {σ : Type} {path document : String}

structure Host.NamesImages (host : Host σ) : Prop where
  resolveImage : ∀ path s source s', path ≠ "" →
    (host.resolveImage path).run.run s = (.ok source, s') → source ≠ ""
  loadTileset : host.loadTileset = loadDocument host.readText host.addDependency Tileset.parse

theorem FileTree.host_namesImages (tree : FileTree) : tree.host.NamesImages where
  resolveImage path s source s' hpath h := by
    change (if tree.isFile path then _ else _ : Bake (List String) String) s = _ at h
    split at h
    next =>
      cases h
      exact hpath
    next => cases h
  loadTileset := rfl

/-- A host that keeps the paths of images as they are. -/
theorem Host.namesImages_of_default (readText : String → Bake σ String)
    (addDependency : String → StateM σ Unit) :
    ({ readText, addDependency } : Host σ).NamesImages where
  resolveImage path s source s' hpath h := by
    obtain ⟨_, s₁, _, h⟩ := Bake.ok_of_bind h
    cases h
    exact hpath
  loadTileset := rfl

namespace Host.NamesImages

open Assembly

variable {host : Host σ} {s s' : σ} {firstGids : List (String × UInt32)} {parts parts' : List Part}
  {calls front back : List Call}

theorem allNamed_of_account (h : host.NamesImages) (haccount : Account firstGids parts calls parts')
    (hcalls : ∀ call ∈ calls, ∃ s₁ s₂, host.Serves call s₁ s₂) (hparts : AllNamed parts) :
    AllNamed parts' := by
  induction haccount with
  | nil => exact hparts
  | image source answer parts calls parts' _ ih =>
      rw [List.forall_mem_cons] at hcalls
      rw [allNamed_cons] at hparts ⊢
      obtain ⟨⟨s₁, s₂, hserves⟩, hcalls⟩ := hcalls
      refine ⟨?_, ih hcalls hparts.2⟩
      intro hanswer
      exact h.resolveImage source s₁ answer s₂ (fun hsource => hparts.1 (congrArg some hsource))
        hserves (Option.some.inj hanswer)
  | object object chain resolved parts calls parts' _ _ ih =>
      rw [List.forall_mem_append] at hcalls
      rw [allNamed_cons] at hparts ⊢
      refine ⟨?_, ih hcalls.2 hparts.2⟩
      exact fun hsource => nomatch hsource
  | log level message parts calls parts' _ ih =>
      rw [List.forall_mem_cons] at hcalls
      exact ih hcalls.2 hparts

theorem allNamed_of_loads (h : host.NamesImages) {entries : List TilesetEntry}
    {loaded : List Tileset} (hloads : Each Loads entries calls loaded)
    (hcalls : ∀ call ∈ calls, ∃ s₁ s₂, host.Serves call s₁ s₂)
    (hentries : AllNamed (entries.flatMap TilesetEntry.parts)) :
    AllNamed (loaded.flatMap Tileset.parts) := by
  induction hloads with
  | nil => exact hentries
  | cons entry entries front back t loaded hload _ ih =>
      rw [List.forall_mem_append] at hcalls
      rw [List.flatMap_cons, allNamed_append] at hentries ⊢
      refine ⟨?_, ih hcalls.2 hentries.2⟩
      cases hload with
      | inline => exact hentries.1
      | external firstGid source t =>
          obtain ⟨s₁, s₂, hserves⟩ := hcalls.1 _ List.mem_cons_self
          change (host.loadTileset source).run.run s₁ = _ at hserves
          rw [h.loadTileset] at hserves
          obtain ⟨document, hparse⟩ := parsed_of_loadDocument hserves
          -- The first id that the map gives to the tileset is none of its parts.
          change AllNamed t.parts
          exact Tileset.allNamed_of_parse hparse

theorem allNamed_of_transcript (h : host.NamesImages) {before after : Map} {loaded : List Tileset}
    (htranscript : Transcript before loaded front back after)
    (hreplays : host.Replays (front ++ back) s s') (hbefore : AllNamed before.parts) :
    AllNamed after.parts := by
  have hcalls : ∀ call ∈ front ++ back, ∃ s₁ s₂, host.Serves call s₁ s₂ :=
    fun _ hcall => hreplays.serves_of_mem hcall
  rw [List.forall_mem_append] at hcalls
  refine h.allNamed_of_account htranscript.account hcalls.2 ?_
  rw [Map.parts, allNamed_append] at hbefore
  rw [parts_of_inline rfl, allNamed_append]
  exact ⟨h.allNamed_of_loads htranscript.loads hcalls.1 hbefore.1, hbefore.2⟩

end Host.NamesImages

theorem Image.reference_eq_empty_iff {image : Option Image} (h : AllNamed (ofImage image)) :
    Image.reference image = "" ↔ image = none := by
  rw [allNamed_ofImage_iff] at h
  cases image with
  | none => exact iff_of_true rfl rfl
  | some i =>
      rw [Image.reference, Path.imageReference_eq_empty_iff]
      exact iff_of_false (h i rfl) (Option.some_ne_none i)

/-- A reference in the baked map is empty exactly if the map has no image at its place. -/
def Map.MarksImages (map : Map) (m : Baked.Map) : Prop :=
  ∀ place reference, m.referenceAt? place = some reference →
    (reference = "" ↔ map.imageAt? place = none)

structure Tileset.MarksImages (tileset : Tileset) (t : Baked.Tileset) : Prop where
  sheet : t.image = "" ↔ tileset.image = none
  tiles : List.Forall₂ (fun tile record => record.image = "" ↔ tile.image = none)
    tileset.tiles t.tiles

theorem Map.marksImages_baked {map : Map} (h : map.IsLoaded) (hnamed : AllNamed map.parts) :
    map.MarksImages map.baked := by
  intro place reference hreference
  rw [reference_of_referenceAt? hreference]
  apply Image.reference_eq_empty_iff
  rw [allNamed_ofImage_iff]
  intro image himage hsource
  exact hnamed _ (source_mem_parts h himage) (congrArg some hsource)

theorem Tileset.marksImages_baked {tileset : Tileset} (hnamed : AllNamed tileset.parts) :
    tileset.MarksImages tileset.baked := by
  rw [Tileset.parts, allNamed_append] at hnamed
  refine ⟨Image.reference_eq_empty_iff hnamed.1, ?_⟩
  rw [Tileset.baked, List.forall₂_map_right_iff, List.forall₂_same]
  intro tile htile
  have hparts : AllNamed tile.parts := fun part hpart =>
    hnamed.2 part (List.mem_flatMap.2 ⟨tile, htile, hpart⟩)
  rw [Tile.parts, allNamed_append] at hparts
  exact Image.reference_eq_empty_iff hparts.1

namespace Host.NamesImages

variable {host : Host σ} {settings : BakeSettings} {stream : List UInt8} {s s' : σ}

theorem marksImages_of_compileMap (h : host.NamesImages) {m : Baked.Map}
    (hcompile : (compileMap host settings document path).run.run s = (.ok stream, s'))
    (hread : Baked.Map.read stream = .ok m) :
    ∃ parsed after, Map.parse document path = .ok parsed ∧
      parsed.assemble host settings
        ((host.log .debug ("compiling map " ++ path)).run s).2 = (⟨after, none⟩, s') ∧
      Writer.bytes after.write = .ok stream ∧ after.MarksImages m := by
  obtain ⟨parsed, after, hparse, hassemble, hwrite⟩ := run_of_logged_compileWith hcompile
  obtain ⟨_, hreplays, ⟨_, _, _, rfl, htranscript⟩, _⟩ :=
    Assembly.assemble_recorded settings parsed host (Work.toBake_eq_ok_iff.2 hassemble)
  have hnamed := h.allNamed_of_transcript htranscript hreplays (Map.allNamed_of_parse hparse)
  rw [Baked.eq_baked_of_read htranscript.isLoaded hwrite hread]
  exact ⟨parsed, after, hparse, hassemble, hwrite,
    Map.marksImages_baked htranscript.isLoaded hnamed⟩

theorem marksImages_of_compileTileset (h : host.NamesImages) {t : Baked.Tileset}
    (hcompile : (compileTileset host document path).run.run s = (.ok stream, s'))
    (hread : Baked.Tileset.read stream = .ok t) :
    ∃ parsed after, Tileset.parse document path = .ok parsed ∧
      parsed.assemble host
        ((host.log .debug ("compiling tileset " ++ path)).run s).2 = (⟨after, none⟩, s') ∧
      Writer.bytes after.write = .ok stream ∧ after.MarksImages t := by
  obtain ⟨parsed, after, hparse, hassemble, hwrite⟩ := run_of_logged_compileWith hcompile
  obtain ⟨_, hreplays, haccount, _⟩ :=
    Assembly.assembleTileset_recorded parsed host (Work.toBake_eq_ok_iff.2 hassemble)
  have hnamed := h.allNamed_of_account haccount (fun _ hcall => hreplays.serves_of_mem hcall)
    (Tileset.allNamed_of_parse hparse)
  rw [Baked.Tileset.eq_baked_of_read hwrite hread]
  exact ⟨parsed, after, hparse, hassemble, hwrite, Tileset.marksImages_baked hnamed⟩

end Host.NamesImages

/-- The reference to an image is its path without the extension of the file name, which loading
gives back. It is empty only if the path is, and no document leads to an empty path: in what has
been compiled, an empty reference says that there is no image. -/
theorem reference_of_path :
    (∀ path, ∃ dir name stem, Path.Splits path dir name ∧ Path.Stem name stem ∧
      Path.imageReference path = dir ++ stem) ∧
    (∀ path, Path.imageReference path = "" ↔ path = "") ∧
    (∀ path dir stem extension, Path.Splits path dir (stem ++ "." ++ extension) → stem ≠ "" →
      '.' ∉ extension.toList →
        LoadSettings.imagePath ⟨extension⟩ (Path.imageReference path) = path) ∧
    (∀ {σ : Type} (host : Host σ), host.NamesImages →
      (∀ settings document path s stream s' m,
        (compileMap host settings document path).run.run s = (.ok stream, s') →
        Baked.Map.read stream = .ok m →
          ∃ parsed after, Map.parse document path = .ok parsed ∧
            parsed.assemble host settings
              ((host.log .debug ("compiling map " ++ path)).run s).2 = (⟨after, none⟩, s') ∧
            Writer.bytes after.write = .ok stream ∧ after.MarksImages m) ∧
      ∀ document path s stream s' t,
        (compileTileset host document path).run.run s = (.ok stream, s') →
        Baked.Tileset.read stream = .ok t →
          ∃ parsed after, Tileset.parse document path = .ok parsed ∧
            parsed.assemble host
              ((host.log .debug ("compiling tileset " ++ path)).run s).2 = (⟨after, none⟩, s') ∧
            Writer.bytes after.write = .ok stream ∧ after.MarksImages t) ∧
    (∀ tree : FileTree, tree.host.NamesImages) ∧
    ∀ {σ : Type} (readText : String → Bake σ String) (addDependency : String → StateM σ Unit),
      ({ readText, addDependency } : Host σ).NamesImages := by
  refine ⟨?_, Path.imageReference_eq_empty_iff, ?_, ?_, FileTree.host_namesImages,
    Host.namesImages_of_default⟩
  · intro path
    obtain ⟨dir, name, hsplits⟩ := Path.exists_splits path
    obtain ⟨stem, hstem⟩ := Path.exists_stem name
    exact ⟨dir, name, stem, hsplits, hstem, Path.imageReference_of_splits hsplits hstem⟩
  · intro path dir stem extension hsplits hne hdot
    exact Path.imagePath_imageReference hsplits hne hdot
  · intro σ host h
    constructor
    · intro settings document path s stream s' m
      exact h.marksImages_of_compileMap
    · intro document path s stream s' t
      exact h.marksImages_of_compileTileset

namespace NamedImages

def sampleMap : String :=
  "<map><imagelayer><image source=\"sky/.day.png\"/></imagelayer><imagelayer/></map>"

def sampleTileset : String :=
  "<tileset><image source=\"cave.png\"/><tile id=\"3\"/></tileset>"

def host : Host Unit := Library.plain ⟨[], none⟩

theorem compile_sample :
    (((compileMap host {} sampleMap "level.tmx").run.run ()).1.toOption.bind fun stream =>
      (Baked.Map.read stream).toOption.map fun m =>
        (m.referenceAt? (.layer 0 []), m.referenceAt? (.layer 1 []))) =
      some (some "sky/.day", some "") ∧
    (((compileTileset host sampleTileset "cave.tsx").run.run ()).1.toOption.bind fun stream =>
      (Baked.Tileset.read stream).toOption.map fun t => (t.image, t.tiles.map (·.image))) =
      some ("cave", [""]) := by
  decide +kernel

/-- A hidden file keeps its dot, and what has been compiled tells where images are missing. -/
theorem reference_of_path_sample :
    (Path.Splits "sky/.day.png" "sky/" (".day" ++ "." ++ "png") ∧
      LoadSettings.imagePath ⟨"png"⟩ (Path.imageReference "sky/.day.png") = "sky/.day.png") ∧
    (∃ stream m parsed after, (compileMap host {} sampleMap "level.tmx").run.run () =
        (.ok stream, ()) ∧ Baked.Map.read stream = .ok m ∧
      Map.parse sampleMap "level.tmx" = .ok parsed ∧
      parsed.assemble host {} () = (⟨after, none⟩, ()) ∧ Writer.bytes after.write = .ok stream ∧
      m.referenceAt? (.layer 0 []) = some "sky/.day" ∧ after.imageAt? (.layer 0 []) ≠ none ∧
      m.referenceAt? (.layer 1 []) = some "" ∧ after.imageAt? (.layer 1 []) = none) ∧
    ∃ stream t parsed after, (compileTileset host sampleTileset "cave.tsx").run.run () =
        (.ok stream, ()) ∧ Baked.Tileset.read stream = .ok t ∧
      Tileset.parse sampleTileset "cave.tsx" = .ok parsed ∧
      parsed.assemble host () = (⟨after, none⟩, ()) ∧ Writer.bytes after.write = .ok stream ∧
      t.image = "cave" ∧ after.image ≠ none ∧
      List.Forall₂ (fun tile record => record.image = "" ↔ tile.image = none)
        after.tiles t.tiles := by
  obtain ⟨_, _, hundone, hcompiled, _, hdefault⟩ := reference_of_path
  have hsplits : Path.Splits "sky/.day.png" "sky/" (".day" ++ "." ++ "png") :=
    ⟨rfl, .inr ⟨"sky", rfl⟩, by decide⟩
  obtain ⟨hmap, htileset⟩ := hcompiled host (hdefault _ _)
  obtain ⟨stream, hcompile, hview⟩ := Option.bind_eq_some_iff.1 compile_sample.1
  obtain ⟨m, hread, hview⟩ := Option.map_eq_some_iff.1 hview
  obtain ⟨hday, hnone⟩ := Prod.mk.inj hview
  have hcompile : (compileMap host {} sampleMap "level.tmx").run.run () = (.ok stream, ()) :=
    Prod.ext (ok_of_toOption hcompile) rfl
  have hread := ok_of_toOption hread
  obtain ⟨parsed, after, hparse, hassemble, hwrite, hmarks⟩ := hmap _ _ _ _ _ _ _ hcompile hread
  obtain ⟨stream', hcompile', hview⟩ := Option.bind_eq_some_iff.1 compile_sample.2
  obtain ⟨t, hread', hview⟩ := Option.map_eq_some_iff.1 hview
  have hcompile' : (compileTileset host sampleTileset "cave.tsx").run.run () =
      (.ok stream', ()) := Prod.ext (ok_of_toOption hcompile') rfl
  have hread' := ok_of_toOption hread'
  obtain ⟨parsed', after', hparse', hassemble', hwrite', hmarks'⟩ :=
    htileset _ _ _ _ _ _ hcompile' hread'
  have hcave := (Prod.mk.inj hview).1
  refine ⟨⟨hsplits, hundone _ _ _ _ hsplits (by decide) (by decide)⟩,
    ⟨stream, m, parsed, after, hcompile, hread, hparse, hassemble, hwrite, hday, ?_, hnone,
      (hmarks _ _ hnone).1 rfl⟩,
    stream', t, parsed', after', hcompile', hread', hparse', hassemble', hwrite', hcave, ?_,
    hmarks'.tiles⟩
  · exact fun h => absurd ((hmarks _ _ hday).2 h) (by decide)
  · exact fun h => absurd (hcave.symm.trans (hmarks'.sheet.2 h)) (by decide)

end NamedImages

end TileKiln
