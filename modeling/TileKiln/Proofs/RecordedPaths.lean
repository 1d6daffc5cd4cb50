import TileKiln.Proofs.LoadedMap
import TileKiln.Proofs.TemplateTiles
import TileKiln.Proofs.TilesetAlone

namespace TileKiln

open Assembly

def Template.origin? (template : Template) : Option (TemplateTileset × UInt32) :=
  match template.tileset, template.object.gid with
  | some tileset, some gid => some (tileset, gid)
  | _, _ => none

def Call.idle? : Call → Option String
  | .template _ answer => answer.origin?.bind fun (origin, gid) =>
    if Gid.tile gid = 0 then some origin.source else none
  | _ => none

variable {firstGids : List (String × UInt32)} {parts parts' : List Part} {calls : List Call}
  {path : String}

namespace Template

variable {reference : String} {template : Template} {origin : TemplateTileset} {gid : UInt32}

theorem origin?_eq_some_iff :
    template.origin? = some (origin, gid) ↔
      template.tileset = some origin ∧ template.object.gid = some gid := by
  rw [origin?]
  cases template.tileset <;> cases template.object.gid <;> simp

theorem dependency_mem_calls_iff :
    .dependency path ∈ template.calls reference ↔
      ∃ origin gid, template.origin? = some (origin, gid) ∧ origin.source = path := by
  rw [calls, origin?]
  cases template.tileset <;> cases template.object.gid <;> simp [eq_comm]

theorem eq_of_mem_calls {reference' : String} {template' : Template}
    (h : .template reference' template' ∈ template.calls reference) : template' = template := by
  rw [calls] at h
  split at h
  all_goals simp_all

end Template

theorem Call.idle?_template_iff {reference : String} {template : Template} :
    Call.idle? (.template reference template) = some path ↔
      ∃ origin gid, template.origin? = some (origin, gid) ∧ origin.source = path ∧
        Gid.tile gid = 0 := by
  simp only [idle?, Option.bind_eq_some_iff, Prod.exists, Option.ite_none_right_eq_some,
    Option.some.injEq, and_comm]

theorem Object.Inherits.placed_of_mem {object resolved : Object} {chain : Object.TemplateChain}
    (h : object.Inherits firstGids chain resolved) {reference : String} {template : Template}
    (hlink : (reference, template) ∈ chain) :
    ∃ placed, template.placed firstGids reference = .ok placed := by
  induction h with
  | plain => cases hlink
  | template object first front placed chain base _ hplaced _ ih =>
      rcases List.mem_cons.1 hlink with hfirst | hlink
      · cases hfirst
        exact ⟨placed, hplaced⟩
      · exact ih hlink

namespace Account

/-- What an account records besides images it records for a template that has found its place. -/
theorem template_of_mem (h : Account firstGids parts calls parts') {call : Call}
    (hcall : call ∈ calls) (hrecords : call.dependency? = some path) (himage : call.image? = none) :
    ∃ reference template placed, call ∈ Template.calls reference template ∧
      Template.calls reference template ⊆ calls ∧
      Template.placed firstGids reference template = .ok placed := by
  induction h with
  | nil => cases hcall
  | image source answer parts calls parts' h ih =>
      rcases List.mem_cons.1 hcall with rfl | hcall
      · cases himage
      · obtain ⟨reference, template, placed, hmem, hsubset, hplaced⟩ := ih hcall
        exact ⟨reference, template, placed, hmem, List.subset_cons_of_subset _ hsubset, hplaced⟩
  | object object chain resolved parts calls parts' hobject h ih =>
      rcases List.mem_append.1 hcall with hcall | hcall
      · obtain ⟨⟨reference, template⟩, hlink, hmem⟩ := List.mem_flatMap.1 hcall
        obtain ⟨placed, hplaced⟩ := hobject.placed_of_mem hlink
        refine ⟨reference, template, placed, hmem, ?_, hplaced⟩
        intro other hother
        exact List.mem_append_left calls (List.mem_flatMap.2 ⟨_, hlink, hother⟩)
      · obtain ⟨reference, template, placed, hmem, hsubset, hplaced⟩ := ih hcall
        exact ⟨reference, template, placed, hmem, List.subset_append_of_subset_right _ hsubset,
          hplaced⟩
  | log level message parts calls parts' h ih =>
      rcases List.mem_cons.1 hcall with rfl | hcall
      · cases hrecords
      · obtain ⟨reference, template, placed, hmem, hsubset, hplaced⟩ := ih hcall
        exact ⟨reference, template, placed, hmem, List.subset_cons_of_subset _ hsubset, hplaced⟩

theorem dependency_of_idle (h : Account firstGids parts calls parts')
    (hidle : path ∈ calls.filterMap Call.idle?) : .dependency path ∈ calls := by
  obtain ⟨call, hcall, hidle⟩ := List.mem_filterMap.1 hidle
  cases call with
  | template reference template =>
      obtain ⟨_, own, _, hmem, hsubset, _⟩ := h.template_of_mem hcall rfl rfl
      obtain rfl := Template.eq_of_mem_calls hmem
      obtain ⟨origin, gid, horigin, hsource, _⟩ := Call.idle?_template_iff.1 hidle
      exact hsubset (Template.dependency_mem_calls_iff.2 ⟨origin, gid, horigin, hsource⟩)
  | tileset | image | dependency | log => cases hidle

/-- A tileset that is recorded for a template is one that ids are moved to, unless the template's own
stands for no tile. -/
theorem idle_of_dependency (h : Account firstGids parts calls parts')
    (hcall : .dependency path ∈ calls) :
    path ∈ calls.filterMap Call.idle? ∨ ∃ first, firstGids.lookup path = some first := by
  obtain ⟨reference, template, placed, hmem, hsubset, hplaced⟩ := h.template_of_mem hcall rfl rfl
  obtain ⟨origin, gid, horigin, rfl⟩ := Template.dependency_mem_calls_iff.1 hmem
  by_cases htile : Gid.tile gid = 0
  · exact .inl (List.mem_filterMap.2 ⟨.template reference template, hsubset List.mem_cons_self,
      Call.idle?_template_iff.2 ⟨origin, gid, horigin, rfl, htile⟩⟩)
  · obtain ⟨htileset, hgid⟩ := Template.origin?_eq_some_iff.1 horigin
    obtain ⟨moved, hremap, _⟩ := Template.gid_of_placed hplaced htileset hgid
    obtain ⟨first, hfirst, _⟩ := Gid.cases_of_remap hremap htile
    exact .inr ⟨first, hfirst⟩

end Account

namespace Call

variable {front shapes : List Call}

theorem mem_dependency?_iff :
    path ∈ calls.filterMap dependency? ↔
      path ∈ calls.filterMap document? ∨ path ∈ calls.filterMap image? ∨
        .dependency path ∈ calls := by
  induction calls with
  | nil => simp
  | cons call calls ih =>
      cases call <;> simp [List.filterMap_cons, dependency?, document?, image?, ih] <;> grind

/-- Calls record only tilesets for templates that they also load, but for those that the templates
name for ids without a tile. -/
structure LoadOrigins (calls : List Call) : Prop where
  idle : ∀ path ∈ calls.filterMap idle?, .dependency path ∈ calls
  others : ∀ path, .dependency path ∈ calls →
    path ∈ calls.filterMap document? ∨ path ∈ calls.filterMap idle?

theorem loadOrigins_of_account (h : Account firstGids parts shapes parts')
    (hidle : front.filterMap idle? = []) (hfront : ∀ path, .dependency path ∉ front)
    (hfirst : ∀ path first, firstGids.lookup path = some first →
      path ∈ (front ++ shapes).filterMap document?) : LoadOrigins (front ++ shapes) where
  idle path hpath := by
    rw [List.filterMap_append, hidle, List.nil_append] at hpath
    exact List.mem_append_right front (h.dependency_of_idle hpath)
  others path hcall := by
    rcases h.idle_of_dependency ((List.mem_append.1 hcall).resolve_left (hfront path)) with
      hpath | ⟨first, hlookup⟩
    · refine .inr ?_
      rw [List.filterMap_append]
      exact List.mem_append_right _ hpath
    · exact .inl (hfirst path first hlookup)

end Call

namespace FileTree

variable {tree : FileTree} {settings : BakeSettings} {document : String} {stream : List UInt8}
  {dependencies : List String}

/-- Whether every path in `dependencies` was read as a document or resolved as an image, and whether
the loader finds the documents among them again. -/
structure Uses (tree : FileTree) (calls : List Call) (dependencies : List String) : Prop where
  used : ∀ path ∈ dependencies,
    path ∈ calls.filterMap Call.document? ∧ (tree.text? path).isSome ∨
      path ∈ calls.filterMap Call.image? ∧ tree.isFile path
  registers : ∃ images, Asset.register tree dependencies [] = .ok images

structure Records (tree : FileTree) (calls : List Call) (dependencies : List String) : Prop where
  recorded : ∀ path, path ∈ dependencies ↔ path ∈ calls.filterMap Call.document? ∨
    path ∈ calls.filterMap Call.image? ∨ path ∈ calls.filterMap Call.idle?
  read : ∀ path ∈ calls.filterMap Call.document?, (tree.text? path).isSome
  resolved : ∀ path ∈ calls.filterMap Call.image?, tree.isFile path
  registers : (∃ images, Asset.register tree dependencies [] = .ok images) ↔
    ∀ path ∈ calls.filterMap Call.idle?, Asset.isDocument path → tree.isFile path

theorem isFile_of_text? (h : (tree.text? path).isSome) : tree.isFile path := by
  rw [text?] at h
  rw [isFile]
  split at h <;> simp_all

theorem register_isOk_iff (images : Table String String) :
    (∃ images', Asset.register tree dependencies images = .ok images') ↔
      ∀ path ∈ dependencies, Asset.isDocument path → tree.isFile path := by
  induction dependencies generalizing images with
  | nil => simp [Asset.register]
  | cons path dependencies ih =>
      rw [List.forall_mem_cons, Asset.register]
      cases hdocument : Asset.isDocument path with
      | false => simp [ih]
      | true => cases hfile : tree.isFile path <;> simp [ih]

theorem text?_of_offers (h : ∀ call ∈ calls, tree.Offers call)
    (hpath : path ∈ calls.filterMap Call.document?) : (tree.text? path).isSome := by
  obtain ⟨call, hcall, hpath⟩ := List.mem_filterMap.1 hpath
  have hoffer := h call hcall
  cases call with
  | tileset own answer | template own answer =>
      cases hpath
      obtain ⟨text, htext, _⟩ := hoffer
      exact Option.isSome_iff_exists.2 ⟨text, htext⟩
  | image | dependency | log => cases hpath

theorem isFile_of_offers (h : ∀ call ∈ calls, tree.Offers call)
    (hpath : path ∈ calls.filterMap Call.image?) : tree.isFile path := by
  obtain ⟨call, hcall, hpath⟩ := List.mem_filterMap.1 hpath
  have hoffer := h call hcall
  cases call with
  | image own answer =>
      cases hpath
      exact hoffer.1
  | tileset | template | dependency | log => cases hpath

theorem records_of_replays (hreplays : tree.host.Replays calls [] dependencies)
    (horigins : Call.LoadOrigins calls) : tree.Records calls dependencies := by
  obtain ⟨hoffers, hdependencies⟩ := replays_iff.1 hreplays
  have hrecorded : ∀ path, path ∈ dependencies ↔ path ∈ calls.filterMap Call.document? ∨
      path ∈ calls.filterMap Call.image? ∨ path ∈ calls.filterMap Call.idle? := by
    intro path
    rw [hdependencies, mem_addDependencies, Call.mem_dependency?_iff]
    have hothers := horigins.others path
    have hidle := horigins.idle path
    simp only [List.not_mem_nil, or_false]
    tauto
  refine ⟨hrecorded, fun _ => text?_of_offers hoffers, fun _ => isFile_of_offers hoffers, ?_⟩
  rw [register_isOk_iff]
  constructor
  · intro h path hpath
    exact h path ((hrecorded path).2 (.inr (.inr hpath)))
  · intro h path hpath
    rcases (hrecorded path).1 hpath with hpath | hpath | hpath
    · exact fun _ => isFile_of_text? (text?_of_offers hoffers hpath)
    · exact fun _ => isFile_of_offers hoffers hpath
    · exact h path hpath

theorem records_of_bakeTileset
    (h : tree.bakeTileset document path = .ok (stream, dependencies)) :
    tree.Records (tree.tilesetCalls document path) dependencies := by
  obtain ⟨hreplays, ⟨parsed, after, rest, hcalls, _, haccount, _⟩, _⟩ :=
    (recorded_compileTileset document path).of_run (bake_eq_ok_iff.1 h)
  refine records_of_replays hreplays ?_
  rw [tilesetCalls, hcalls, ← List.singleton_append]
  refine Call.loadOrigins_of_account haccount rfl ?_ ?_
  · simp
  · rintro source first ⟨⟩

theorem records_of_bakeMap
    (h : tree.bakeMap settings document path = .ok (stream, dependencies)) :
    tree.Records (tree.mapCalls settings document path) dependencies := by
  obtain ⟨hreplays, ⟨parsed, loaded, loads, shapes, after, hcalls, hparse, htranscript, _⟩, _⟩ :=
    (recorded_compileMap settings document path).of_run (bake_eq_ok_iff.1 h)
  refine records_of_replays hreplays ?_
  rw [mapCalls]
  have hloads := calls_of_loads htranscript.loads
  rw [hcalls, ← List.cons_append] at hreplays ⊢
  refine Call.loadOrigins_of_account htranscript.account ?_ ?_ ?_
  · rw [List.filterMap_cons_none rfl, List.filterMap_eq_nil_iff]
    intro call hcall
    obtain ⟨_, _, rfl⟩ := hloads call hcall
    rfl
  · rintro source (_ | ⟨_, hcall⟩)
    obtain ⟨_, _, ⟨⟩⟩ := hloads _ hcall
  · intro source first hlookup
    obtain ⟨t, ht, _⟩ := htranscript.exists_of_lookup hlookup
    have hsource : t.source = some source := by simpa using List.find?_some ht
    obtain ⟨_, own, answer, hcall, _, hnames⟩ := loadedFrom_of_loads hreplays
      (List.subset_cons_of_subset _ (List.subset_append_left loads shapes)) hparse htranscript.loads
      (List.mem_of_find?_eq_some ht) hsource
    obtain rfl := hnames (Host.namesSources_of_loadDocument rfl)
    exact List.mem_filterMap.2 ⟨_, hcall, rfl⟩

/-- Nothing is recorded in vain exactly if all tilesets that templates name for no tile are used
otherwise. -/
theorem Records.uses_iff (h : tree.Records calls dependencies) :
    tree.Uses calls dependencies ↔ ∀ path ∈ calls.filterMap Call.idle?,
      path ∈ calls.filterMap Call.document? ∨ path ∈ calls.filterMap Call.image? := by
  constructor
  · intro huses path hpath
    exact (huses.used path ((h.recorded path).2 (.inr (.inr hpath)))).imp And.left And.left
  · intro hidle
    have hused : ∀ path ∈ dependencies, path ∈ calls.filterMap Call.document? ∨
        path ∈ calls.filterMap Call.image? := by
      intro path hpath
      rcases (h.recorded path).1 hpath with hpath | hpath | hpath
      · exact .inl hpath
      · exact .inr hpath
      · exact hidle path hpath
    refine ⟨fun path hpath => ?_, h.registers.2 fun path hpath _ => ?_⟩
    · exact (hused path hpath).imp (fun hpath => ⟨hpath, h.read path hpath⟩)
        fun hpath => ⟨hpath, h.resolved path hpath⟩
    · exact (hidle path hpath).elim (fun hpath => isFile_of_text? (h.read path hpath))
        (h.resolved path)

/-- A bake records what it reads and what it resolves, and besides that the tilesets that templates
name for ids without a tile. -/
theorem records_of_bake (tree : FileTree) (settings : BakeSettings) (document path : String)
    (stream : List UInt8) (dependencies : List String) :
    (tree.bakeMap settings document path = .ok (stream, dependencies) →
      let calls := tree.mapCalls settings document path
      tree.Records calls dependencies ∧
        (tree.Uses calls dependencies ↔ ∀ source ∈ calls.filterMap Call.idle?,
          source ∈ calls.filterMap Call.document? ∨ source ∈ calls.filterMap Call.image?)) ∧
    (tree.bakeTileset document path = .ok (stream, dependencies) →
      let calls := tree.tilesetCalls document path
      tree.Records calls dependencies ∧
        (tree.Uses calls dependencies ↔ ∀ source ∈ calls.filterMap Call.idle?,
          source ∈ calls.filterMap Call.document? ∨ source ∈ calls.filterMap Call.image?)) := by
  constructor
  · intro hbake
    have hrecords := records_of_bakeMap hbake
    exact ⟨hrecords, hrecords.uses_iff⟩
  · intro hbake
    have hrecords := records_of_bakeTileset hbake
    exact ⟨hrecords, hrecords.uses_iff⟩

end FileTree

namespace GemCave

theorem gone_missing :
    sampleTree.text? "gone.tsx" = none ∧ sampleTree.isFile "gone.tsx" = false ∧
      Asset.isDocument "gone.tsx" := by
  decide +kernel

theorem bake_cave :
    ∃ alone, sampleTree.bakeTileset caveDocument "cave.tsx" = .ok (alone, caveDependencies) := by
  obtain ⟨alone, _, halone, _⟩ := compileTileset_cave
  exact ⟨alone, FileTree.bake_eq_ok_iff.2 halone⟩

theorem bake_level :
    ∃ stream, sampleTree.bakeMap {} levelDocument "level.tmx" = .ok (stream, levelDependencies) := by
  obtain ⟨stream, _, hcompile, _⟩ := compileMap_level
  exact ⟨stream, FileTree.bake_eq_ok_iff.2 hcompile⟩

/-- Without templates everything is used. In the cave the gem names a tileset for no tile. -/
theorem records_of_bake_sample :
    (∃ stream, FileTree.sampleTree.bakeMap {} FileTree.sampleMap "level.tmx" =
        .ok (stream, FileTree.sampleDependencies) ∧
      FileTree.sampleTree.Uses (FileTree.sampleTree.mapCalls {} FileTree.sampleMap "level.tmx")
        FileTree.sampleDependencies) ∧
    ∃ alone, sampleTree.bakeTileset caveDocument "cave.tsx" = .ok (alone, caveDependencies) ∧
      "gone.tsx" ∈ (sampleTree.tilesetCalls caveDocument "cave.tsx").filterMap Call.idle? := by
  constructor
  · obtain ⟨⟨stream, _⟩, hbake, rfl⟩ := Option.map_eq_some_iff.1 FileTree.sampleTree_bakes.1
    have hbake := ok_of_toOption hbake
    have hidle : (FileTree.sampleTree.mapCalls {} FileTree.sampleMap "level.tmx").filterMap
        Call.idle? = [] := by decide +kernel
    refine ⟨stream, hbake, ((FileTree.records_of_bake _ _ _ _ _ _).1 hbake).2.2 ?_⟩
    rw [hidle]
    exact fun _ hsource => absurd hsource List.not_mem_nil
  · obtain ⟨alone, hbake⟩ := bake_cave
    obtain ⟨hrecords, _⟩ := (FileTree.records_of_bake _ {} _ _ _ _).2 hbake
    refine ⟨alone, hbake, ?_⟩
    rcases (hrecords.recorded "gone.tsx").1 (by decide) with hread | hresolved | hidle
    · have htext := hrecords.read _ hread
      rw [gone_missing.1] at htext
      cases htext
    · have hfile := hrecords.resolved _ hresolved
      rw [gone_missing.2.1] at hfile
      cases hfile
    · exact hidle

/-- The tileset of the gem is recorded, but nothing is there that could have been read or resolved,
so that neither the cave nor the level is loaded. -/
theorem recorded_unread :
    sampleTree.text? "gone.tsx" = none ∧ sampleTree.isFile "gone.tsx" = false ∧
    (∃ alone, sampleTree.bakeTileset caveDocument "cave.tsx" = .ok (alone, caveDependencies) ∧
      ¬ sampleTree.Uses (sampleTree.tilesetCalls caveDocument "cave.tsx") caveDependencies ∧
      ¬ ∃ images, Asset.register sampleTree caveDependencies [] = .ok images) ∧
    ∃ stream, sampleTree.bakeMap {} levelDocument "level.tmx" = .ok (stream, levelDependencies) ∧
      ¬ sampleTree.Uses (sampleTree.mapCalls {} levelDocument "level.tmx") levelDependencies ∧
      ¬ ∃ images, Asset.register sampleTree levelDependencies [] = .ok images := by
  obtain ⟨htext, hfile, hdocument⟩ := gone_missing
  have hunused : ∀ calls dependencies, "gone.tsx" ∈ dependencies →
      ¬ sampleTree.Uses calls dependencies := by
    intro calls dependencies hgone huses
    rcases huses.used _ hgone with ⟨_, hread⟩ | ⟨_, hresolved⟩
    · rw [htext] at hread
      cases hread
    · rw [hfile] at hresolved
      cases hresolved
  have hunregistered : ∀ dependencies, "gone.tsx" ∈ dependencies →
      ¬ ∃ images, Asset.register sampleTree dependencies [] = .ok images := by
    intro dependencies hgone hregister
    have hthere := (FileTree.register_isOk_iff []).1 hregister _ hgone hdocument
    rw [hfile] at hthere
    cases hthere
  obtain ⟨alone, halone⟩ := bake_cave
  obtain ⟨stream, hbake⟩ := bake_level
  exact ⟨htext, hfile, ⟨alone, halone, hunused _ _ (by decide), hunregistered _ (by decide)⟩,
    stream, hbake, hunused _ _ (by decide), hunregistered _ (by decide)⟩

end GemCave

end TileKiln
