import TileKiln.Proofs.CompiledStream
import TileKiln.Proofs.Dependencies
import TileKiln.Proofs.Reassembly

namespace TileKiln

variable {σ α β : Type}

namespace Work

def Carries (work other : Work σ α) : Prop := ∀ a, work.Yields a → other.Always a

theorem Always.eq_of_yields {work : Work σ α} {a b : α} (h : work.Always a) (hwork : work.Yields b) :
    b = a := by
  obtain ⟨s, s', hrun⟩ := hwork
  obtain ⟨s₁, halways⟩ := h s
  rw [halways] at hrun
  cases hrun
  rfl

theorem Carries.part {work other : Work σ β} (h : Carries work other) (whole : β → α) :
    Carries (work.part whole) (other.part whole) := by
  intro a hwork
  obtain ⟨b, hpart, rfl⟩ := hwork.of_part
  exact (h b hpart).part whole

theorem Carries.andThen {work other : Work σ α} {next next' : α → Work σ α} (h : Carries work other)
    (hnext : ∀ a, Carries (next a) (next' a)) :
    Carries (work.andThen next) (other.andThen next') := by
  intro b hwork
  obtain ⟨a, hfirst, hthen⟩ := hwork.of_andThen
  exact (h a hfirst).andThen (hnext a b hthen)

theorem carries_each {work other : α → Work σ α} (h : ∀ a, Carries (work a) (other a))
    (as : List α) : Carries (each work as) (each other as) := by
  induction as with
  | nil =>
      intro bs hwork
      rw [hwork.of_done]
      exact always_done []
  | cons a as ih =>
      intro bs hwork
      obtain ⟨b, bs, rfl, hfirst, hothers⟩ := hwork.of_cons
      exact (h a b hfirst).cons (ih bs hothers)

end Work

/-- Without tilesets an id that stands for a tile cannot be moved, and any other stays. -/
theorem Gid.remap_of_nil {origin : TemplateTileset} {gid moved : UInt32}
    (h : Gid.remap [] origin gid = .ok moved) (firstGids : List (String × UInt32)) :
    Gid.remap firstGids origin gid = .ok moved := by
  by_cases htile : Gid.tile gid = 0
  · simp only [Gid.remap, if_pos htile] at h ⊢
    exact h
  · obtain ⟨first, hfirst, _⟩ := Gid.cases_of_remap h htile
    cases hfirst

theorem Answers.object_of_nil {answers : Answers} {reference : String} {placed : Object}
    (h : answers.object [] reference = .ok placed) (firstGids : List (String × UInt32)) :
    answers.object firstGids reference = .ok placed := by
  obtain ⟨template, htemplate, h⟩ := ok_of_bind h
  rw [Answers.object, htemplate]
  simp only [bind, Except.bind]
  split at h
  next origin gid _ _ =>
    obtain ⟨moved, hremap, h⟩ := ok_of_bind h
    rw [Gid.remap_of_nil (ok_of_mapError hremap) firstGids]
    exact h
  next => exact h

theorem Object.Chain.mono {answer answer' : String → Except BakeError Object}
    (hanswer : ∀ reference template, answer reference = .ok template →
      answer' reference = .ok template)
    {object : Object} {references : List String} {templates : List Object}
    (h : Chain answer object references templates) : Chain answer' object references templates := by
  induction h with
  | plain object htemplate => exact .plain object htemplate
  | template object reference template references templates htemplate hfound _ ih =>
      exact .template object reference template references templates htemplate
        (hanswer reference template hfound) ih

namespace Assembly

open Work

variable {host : Host σ} {answers : Answers}

theorem image_carries (h : host.Gives answers) (i : Option Image) :
    Carries (image host i) (image host i) := by
  intro after hwork
  cases i with
  | none =>
      rw [hwork.of_done]
      exact always_done none
  | some before =>
      obtain ⟨source, hsource, rfl⟩ := image_assembled h hwork
      exact image_always h hsource

theorem object_carries (h : host.Gives answers) (around : Surroundings) (o : Object) :
    Carries (object host {} o) (object host around o) := by
  intro after hwork
  obtain ⟨s, s', hresolve⟩ := hwork.of_within
  obtain ⟨references, templates, hchain, hnodup, rfl⟩ :=
    (Object.resolution_of_resolveInPlace hresolve).exists_chain (templates_answers h)
      List.nodup_nil
  have hchain := hchain.mono fun _ _ hfound => Answers.object_of_nil hfound around.firstGids
  exact Always.within (fun s =>
    ⟨_, hchain.resolveInPlace_eq (templates_answers h) hnodup s⟩) _

theorem tile_carries (h : host.Gives answers) (around : Surroundings) (t : Tile) :
    Carries (tile host {} t) (tile host around t) :=
  ((image_carries h t.image).part _).andThen fun t =>
    (carries_each (object_carries h around) t.objects).part _

theorem tileset_carries (h : host.Gives answers) (around : Surroundings) (t : Tileset) :
    Carries (tileset host {} t) (tileset host around t) :=
  ((image_carries h t.image).part _).andThen fun t =>
    (carries_each (tile_carries h around) t.tiles).part _

/-- Assembly does not look at where a tileset begins. -/
theorem tileset_of_firstGid (host : Host σ) (around : Surroundings) (t : Tileset)
    (firstGid : UInt32) :
    tileset host around { t with firstGid } =
      part (fun t : Tileset => { t with firstGid }) (tileset host around t) := by
  funext s
  simp only [tileset, andThen, part]
  rcases image host t.image s with ⟨⟨i, _ | e⟩, s₁⟩ <;> rfl

end Assembly

theorem exists_getElem?_of_forall₂ {R : α → β → Prop} {as : List α} {bs : List β}
    (h : List.Forall₂ R as bs) {i : Nat} {a : α} (ha : as[i]? = some a) :
    ∃ b, bs[i]? = some b ∧ R a b := by
  induction h generalizing i with
  | nil => cases ha
  | cons hfirst _ ih =>
      cases i with
      | zero =>
          cases ha
          exact ⟨_, rfl, hfirst⟩
      | succ i => exact ih ha

/-- What a host answers depends on nothing but the path, and documents are parsed from the texts that
it reads. -/
structure Host.AnswersByPath (host : Host σ) (texts image : String → Except BakeError String) :
    Prop where
  tileset : host.loadTileset = loadDocument host.readText host.addDependency Tileset.parse
  template : host.loadTemplate = loadDocument host.readText host.addDependency Template.parse
  text : ∀ path s, ((host.readText path).run.run s).1 = texts path
  image : ∀ path s, ((host.resolveImage path).run.run s).1 = image path

theorem Host.AnswersByPath.gives {host : Host σ} {texts image : String → Except BakeError String}
    (h : host.AnswersByPath texts image) : host.Gives (.ofTexts texts image) where
  tileset := by
    rw [h.tileset]
    exact answer_loadDocument h.text Tileset.parse
  template := by
    rw [h.template]
    exact answer_loadDocument h.text Template.parse
  image := h.image

/-- A tileset document that compiles on its own has the same record in every map that refers to it:
that of its own stream, which only begins where the map says. -/
theorem tilesets_of_compiledAlone {host : Host σ} {texts image : String → Except BakeError String}
    (hhost : host.AnswersByPath texts image) {source text : String} {alone : List UInt8}
    {own : Baked.Tileset} {s s' : σ} (htext : texts source = .ok text)
    (halone : (compileTileset host text source).run.run s = (.ok alone, s'))
    (hown : Baked.Tileset.read alone = .ok own) {settings : BakeSettings} {document path : String}
    {stream : List UInt8} {m : Baked.Map} {t t' : σ}
    (hcompile : (compileMap host settings document path).run.run t = (.ok stream, t'))
    (hread : Baked.Map.read stream = .ok m) :
    ∃ parsed, Map.parse document path = .ok parsed ∧
      m.tilesets.length = parsed.tilesets.length ∧
      ∀ (i : Nat) firstGid, parsed.tilesets[i]? = some (.external firstGid source) →
        m.tilesets[i]? = some { own with firstGid } := by
  obtain ⟨tileset, assembled, hparse, hyields, hwrite⟩ := of_compileTileset halone
  obtain rfl := Baked.Tileset.eq_baked_of_read hwrite hown
  obtain ⟨parsed, after, hparsed, hassembled, hwritten⟩ := of_compileMap hcompile
  obtain ⟨loaded, filled, painted, stages⟩ := Assembly.stages_of_assemble hassembled
  obtain rfl := Baked.eq_baked_of_read stages.isLoaded hwritten hread
  have htilesets : after.baked.tilesets = filled.map Tileset.baked :=
    congrArg (List.map Tileset.baked) (Assembly.loaded_of_inline (by rw [stages.result]))
  refine ⟨parsed, hparsed, ?_, ?_⟩
  · rw [htilesets, List.length_map, ← stages.tilesets.length_eq, stages.loads.length_eq]
  · intro i firstGid hentry
    obtain ⟨found, hfound, hload⟩ := exists_getElem?_of_forall₂ stages.loads hentry
    obtain ⟨inside, hinside, hwork⟩ := exists_getElem?_of_forall₂ stages.tilesets hfound
    have hanswer : (Answers.ofTexts texts image).tileset source = .ok tileset := by
      change parsedAt texts Tileset.parse source = _
      rw [parsedAt, htext]
      change (Tileset.parse text source).mapError _ = _
      rw [hparse]
      rfl
    obtain ⟨u, u', hrun⟩ := hload.of_step
    obtain ⟨answer, u₁, hloaded, hrun⟩ := Bake.ok_of_bind hrun
    cases hrun
    rw [← hhost.gives.tileset source u, hloaded] at hanswer
    cases hanswer
    rw [Assembly.tileset_of_firstGid] at hwork
    have hsame := ((Assembly.tileset_carries hhost.gives _ tileset assembled hyields).part
      fun t : Tileset => { t with firstGid }).eq_of_yields hwork
    rw [htilesets, List.getElem?_map, hinside, hsame]
    rfl

namespace FileTree

theorem answersByPath (tree : FileTree) : tree.host.AnswersByPath tree.readText tree.image where
  tileset := rfl
  template := rfl
  text := tree.answer_readText
  image := tree.host_gives.image

end FileTree

namespace GemCave

open Assembly Xml

def caveDocument : String :=
  "<tileset tilecount=\"2\"><image source=\"cave.png\"/>" ++
  "<tile id=\"1\"><objectgroup><object template=\"gem.tx\"/></objectgroup></tile></tileset>"

def gemDocument : String :=
  "<template><tileset firstgid=\"1\" source=\"gone.tsx\"/>" ++
  "<object name=\"gem\" gid=\"0\"/></template>"

def levelDocument : String := "<map><tileset firstgid=\"3\" source=\"cave.tsx\"/></map>"

def sampleTree : FileTree where
  files := [(["cave.tsx"], caveDocument.toUTF8.data.toList),
    (["gem.tx"], gemDocument.toUTF8.data.toList), (["cave.png"], [1])]
  directories := []

def cave : Tileset where
  source := some "cave.tsx"
  tileCount := 2
  image := some ⟨"cave.png", none, none⟩
  tiles := [{ id := 1, objects := [{ template := some "gem.tx" }] }]

def gem : Template := ⟨some ⟨1, "gone.tsx"⟩, { name := some "gem", gid := some 0 }⟩

def level : Map where
  tilesets := [.external 3 "cave.tsx"]

theorem parse_cave : Tileset.parse caveDocument "cave.tsx" = .ok cave := by
  have htokens : Reads caveDocument
      [.opening ⟨"", "tileset"⟩ [(⟨"", "tilecount"⟩, "2")] false,
        .opening ⟨"", "image"⟩ [(⟨"", "source"⟩, "cave.png")] true,
        .opening ⟨"", "tile"⟩ [(⟨"", "id"⟩, "1")] false, .opening ⟨"", "objectgroup"⟩ [] false,
        .opening ⟨"", "object"⟩ [(⟨"", "template"⟩, "gem.tx")] true,
        .closing ⟨"", "objectgroup"⟩, .closing ⟨"", "tile"⟩, .closing ⟨"", "tileset"⟩] := by
    decide +kernel
  have hroot : parse? caveDocument = some (.element "tileset" [("tilecount", "2")]
      [.element "image" [("source", "cave.png")] [],
        .element "tile" [("id", "1")] [.element "objectgroup" []
          [.element "object" [("template", "gem.tx")] []]]]) :=
    htokens.parse? rfl
  rw [Tileset.parse, Document.root, hroot]
  with_unfolding_all rfl

theorem parse_gem : Template.parse gemDocument "gem.tx" = .ok gem := by
  have htokens : Reads gemDocument
      [.opening ⟨"", "template"⟩ [] false,
        .opening ⟨"", "tileset"⟩ [(⟨"", "firstgid"⟩, "1"), (⟨"", "source"⟩, "gone.tsx")] true,
        .opening ⟨"", "object"⟩ [(⟨"", "name"⟩, "gem"), (⟨"", "gid"⟩, "0")] true,
        .closing ⟨"", "template"⟩] := by decide +kernel
  have hroot : parse? gemDocument = some (.element "template" []
      [.element "tileset" [("firstgid", "1"), ("source", "gone.tsx")] [],
        .element "object" [("name", "gem"), ("gid", "0")] []]) :=
    htokens.parse? rfl
  rw [Template.parse, Document.root, hroot]
  with_unfolding_all rfl

theorem parse_level : Map.parse levelDocument "level.tmx" = .ok level := by
  have htokens : Reads levelDocument
      [.opening ⟨"", "map"⟩ [] false,
        .opening ⟨"", "tileset"⟩ [(⟨"", "firstgid"⟩, "3"), (⟨"", "source"⟩, "cave.tsx")] true,
        .closing ⟨"", "map"⟩] := by decide +kernel
  have hroot : parse? levelDocument = some (.element "map" []
      [.element "tileset" [("firstgid", "3"), ("source", "cave.tsx")] []]) :=
    htokens.parse? rfl
  rw [Map.parse, Document.root, hroot]
  with_unfolding_all rfl

theorem files_sampleTree :
    sampleTree.text? "cave.tsx" = some caveDocument ∧ sampleTree.text? "gem.tx" = some gemDocument ∧
      sampleTree.isFile "cave.png" := by
  decide +kernel

def gemDependencies (dependencies : List String) : List String :=
  FileTree.addDependency "gone.tsx" (FileTree.addDependency "gem.tx" dependencies)

def caveDependencies : List String := ["cave.png", "gem.tx", "gone.tsx"]

def levelDependencies : List String := "cave.tsx" :: caveDependencies

def placedGem : Object := { template := some "gem.tx", name := some "gem", gid := some 0 }

theorem resolve_gem (around : Surroundings) (dependencies : List String) :
    ({ template := some "gem.tx" } : Object).resolveInPlace (templates sampleTree.host around)
        dependencies =
      (⟨placedGem, none⟩, gemDependencies dependencies) := by
  have hload : (sampleTree.host.loadTemplate "gem.tx").run.run dependencies =
      (.ok gem, FileTree.addDependency "gem.tx" dependencies) :=
    FileTree.loadDocument_eq_ok_iff.2 ⟨⟨_, files_sampleTree.2.1, parse_gem⟩, rfl⟩
  have hfetch : (fetchTemplate sampleTree.host around "gem.tx").run.run dependencies =
      (.ok gem.object, gemDependencies dependencies) := (Bake.bind_of_ok hload).trans rfl
  have hresolution : Object.Resolution (templates sampleTree.host around).fetch []
      { template := some "gem.tx" } dependencies ⟨placedGem, none⟩ (gemDependencies dependencies) :=
    .inherits _ _ _ "gem.tx" gem.object _ gem.object _ rfl List.not_mem_nil hfetch (.plain _ _ _ rfl)
  rw [Object.resolveInPlace, hresolution.resolveFrom?_eq, Option.getD_some]

def filledCave : Tileset := { cave with tiles := [{ id := 1, objects := [placedGem] }] }

theorem tileset_cave (around : Surroundings) (dependencies : List String) :
    tileset sampleTree.host around cave dependencies =
      (⟨filledCave, none⟩, gemDependencies (FileTree.addDependency "cave.png" dependencies)) := by
  have hresolve : sampleTree.host.Serves (.image "cave.png" "cave.png") dependencies
      (FileTree.addDependency "cave.png" dependencies) :=
    FileTree.serves_iff.2 ⟨⟨files_sampleTree.2.2, rfl⟩, rfl⟩
  have hreplace : (do return { (⟨"cave.png", none, none⟩ : Image) with
        source := ← sampleTree.host.resolveImage "cave.png" } : Bake (List String) Image).run.run
        dependencies = _ := Bake.bind_of_ok hresolve
  have himage : image sampleTree.host cave.image dependencies =
      (⟨cave.image, none⟩, FileTree.addDependency "cave.png" dependencies) := by
    simp only [cave, image, Work.each?, Work.part, Work.step, hreplace]
    rfl
  simp only [tileset, Work.andThen, Work.part, himage]
  simp only [cave, tile, image, objects, object, Work.andThen, Work.part, Work.each, Work.each?,
    Work.cons, Work.within, Work.done, resolve_gem]
  rfl

def loadedLevel : Map where
  tilesets := [.inline { cave with firstGid := 3 }]

def settledLevel : Map := { loadedLevel with background := some .black }

def sampleMap : Map where
  background := some .black
  tilesets := [.inline { filledCave with firstGid := 3 }]

theorem compileTileset_cave :
    ∃ alone own, (compileTileset sampleTree.host caveDocument "cave.tsx").run.run [] =
        (.ok alone, caveDependencies) ∧
      Baked.Tileset.read alone = .ok own := by
  have hread : ((Writer.bytes filledCave.write).toOption.bind fun alone =>
      (Baked.Tileset.read alone).toOption).isSome := by decide +kernel
  obtain ⟨own, hread⟩ := Option.isSome_iff_exists.1 hread
  obtain ⟨alone, hwrite, hread⟩ := Option.bind_eq_some_iff.1 hread
  exact ⟨alone, own, compileTileset_of_ok rfl parse_cave (tileset_cave {} [])
    (ok_of_toOption hwrite), ok_of_toOption hread⟩

theorem loadAll_level :
    loadAll sampleTree.host level [] = (⟨loadedLevel, none⟩, ["cave.tsx"]) := by
  have hserves : sampleTree.host.Serves (.tileset "cave.tsx" cave) [] ["cave.tsx"] :=
    FileTree.serves_iff.2 ⟨⟨_, files_sampleTree.1, parse_cave⟩, rfl⟩
  have hinline : (do
        return .inline { (← sampleTree.host.loadTileset "cave.tsx") with firstGid := 3 } :
      Bake (List String) TilesetEntry).run.run [] = _ := Bake.bind_of_ok hserves
  simp only [loadAll, level, load, Work.part, Work.each, Work.cons, Work.step, hinline]
  rfl

theorem assemble_level :
    level.assemble sampleTree.host {} [] = (⟨sampleMap, none⟩, levelDependencies) := by
  have hranges : Tileset.checkRanges [{ cave with firstGid := 3 }] = .ok () := by
    rw [Tileset.checkRanges, List.mergeSort_singleton]
    rfl
  have hsettle : settle (σ := List String) {} loadedLevel =
      Work.done settledLevel := settle_of_checked hranges
  have hentry : ∀ around, tilesetEntry sampleTree.host around (.inline { cave with firstGid := 3 })
        ["cave.tsx"] =
      (⟨.inline { filledCave with firstGid := 3 }, none⟩, levelDependencies) := by
    intro around
    change Work.within _ (Work.part _ (tileset _ _ { cave with firstGid := 3 })) _ = _
    rw [tileset_of_firstGid, Work.within, Work.part, Work.part, tileset_cave]
    rfl
  have htilesets : tilesets sampleTree.host settledLevel ["cave.tsx"] =
      (⟨sampleMap, none⟩, levelDependencies) := by
    simp only [tilesets, settledLevel, loadedLevel, Work.part, Work.each, Work.cons, hentry]
    rfl
  rw [Map.assemble, Work.andThen, loadAll_level]
  change Work.andThen (settle {} loadedLevel) _ _ = _
  rw [hsettle]
  change Work.andThen (tilesets sampleTree.host settledLevel) _ _ = _
  rw [Work.andThen, htilesets]
  rfl

theorem compileMap_level :
    ∃ stream m, (compileMap sampleTree.host {} levelDocument "level.tmx").run.run [] =
        (.ok stream, levelDependencies) ∧
      Baked.Map.read stream = .ok m := by
  have hread : ((Writer.bytes sampleMap.write).toOption.bind fun stream =>
      (Baked.Map.read stream).toOption).isSome := by decide +kernel
  obtain ⟨m, hread⟩ := Option.isSome_iff_exists.1 hread
  obtain ⟨stream, hwrite, hread⟩ := Option.bind_eq_some_iff.1 hread
  exact ⟨stream, m, compileMap_of_ok rfl parse_level assemble_level
    (ok_of_toOption hwrite), ok_of_toOption hread⟩

/-- The cave alone, and in a map that has it from the third id on. -/
theorem tilesets_of_compiledAlone_sample :
    sampleTree.host.AnswersByPath sampleTree.readText sampleTree.image ∧
    sampleTree.readText "cave.tsx" = .ok caveDocument ∧
    ∃ alone own stream m s s',
      (compileTileset sampleTree.host caveDocument "cave.tsx").run.run [] = (.ok alone, s) ∧
      Baked.Tileset.read alone = .ok own ∧
      (compileMap sampleTree.host {} levelDocument "level.tmx").run.run [] = (.ok stream, s') ∧
      Baked.Map.read stream = .ok m ∧ m.tilesets[0]? = some { own with firstGid := 3 } := by
  have htext := FileTree.readText_eq_ok_iff.2 files_sampleTree.1
  obtain ⟨alone, own, halone, hown⟩ := compileTileset_cave
  obtain ⟨stream, m, hcompile, hread⟩ := compileMap_level
  obtain ⟨parsed, hparsed, _, hsame⟩ := tilesets_of_compiledAlone sampleTree.answersByPath htext
    halone hown hcompile hread
  obtain rfl := Except.ok.inj (parse_level.symm.trans hparsed)
  exact ⟨sampleTree.answersByPath, htext, alone, own, stream, m, _, _, halone, hown, hcompile, hread,
    hsame 0 3 rfl⟩

end GemCave

end TileKiln
