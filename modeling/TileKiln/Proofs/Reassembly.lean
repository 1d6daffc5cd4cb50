import TileKiln.Host.Disk
import TileKiln.Host.Memory
import TileKiln.Proofs.Assembled
import TileKiln.Proofs.IdempotentWork

namespace TileKiln

variable {σ α : Type}

namespace Object

variable {source : TemplateSource σ} {answer : String → Except BakeError Object}
  {references : List String} {templates : List Object} {object object' : Object}

theorem Chain.of_template_eq (h : Chain answer object references templates)
    (htemplate : object'.template = object.template) :
    Chain answer object' references templates := by
  cases h with
  | plain _ hnone => exact .plain object' (htemplate.trans hnone)
  | template _ reference template references templates hsome hanswer hrest =>
      exact .template object' reference template references templates (htemplate.trans hsome)
        hanswer hrest

/-- A resolved object still refers to its template, but that has nothing more to give. -/
theorem resolveInPlace_idempotent (hsource : source.Answers answer) :
    Work.Idempotent (resolveInPlace source) := by
  rintro object _ ⟨s, s', hresolve⟩
  obtain ⟨references, templates, hchain, hnodup, rfl⟩ :=
    (resolution_of_resolveInPlace hresolve).exists_chain hsource List.nodup_nil
  have hagain := hchain.of_template_eq (inheritAll_template object templates)
  intro t
  refine ⟨source.after references t, ?_⟩
  rw [hagain.resolveInPlace_eq hsource hnodup, inheritAll_inheritAll_self]

end Object

def Answers.KeepsImages (answers : Answers) : Prop :=
  ∀ path reference, answers.image path = .ok reference → answers.image reference = .ok reference

namespace Assembly

open Work

variable {host : Host σ} {answers : Answers} {around : Surroundings} {settings : BakeSettings}

theorem image_always {before : Image} {source : String} (h : host.Gives answers)
    (hsource : answers.image before.source = .ok source) :
    (image host (some before)).Always (some { before with source }) := by
  have hresolve : (host.resolveImage before.source).Always source :=
    Bake.always_of_answer fun s => (h.image before.source s).trans hsource
  have hreplace : Bake.Always (do return { before with source := ← host.resolveImage before.source })
      ({ before with source } : Image) := hresolve.bind (Bake.always_pure _)
  exact (always_step _ hreplace).part some

theorem image_idempotent (h : host.Gives answers) (himages : answers.KeepsImages) :
    Idempotent (image host) := by
  intro before after hwork
  cases before with
  | none =>
      rw [hwork.of_done]
      exact always_done none
  | some before =>
      obtain ⟨source, hsource, rfl⟩ := image_assembled h hwork
      exact image_always h (himages _ source hsource)

theorem object_idempotent (h : host.Gives answers) : Idempotent (object host around) :=
  fun before after hwork =>
    (Object.resolveInPlace_idempotent (templates_answers h) before after hwork.of_within).within _

theorem objects_idempotent (h : host.Gives answers) : Idempotent (objects host around) :=
  (object_idempotent h).each

theorem tile_idempotent (h : host.Gives answers) (himages : answers.KeepsImages) :
    Idempotent (tile host around) := by
  intro before after hwork
  obtain ⟨_, hfirst, hthen⟩ := hwork.of_andThen
  obtain ⟨image', himage, rfl⟩ := hfirst.of_part
  obtain ⟨objects', hobjects, rfl⟩ := hthen.of_part
  exact ((image_idempotent h himages _ _ himage).part _).andThen
    ((objects_idempotent h _ _ hobjects).part _)

theorem tileset_idempotent (h : host.Gives answers) (himages : answers.KeepsImages) :
    Idempotent (tileset host around) := by
  intro before after hwork
  obtain ⟨_, hfirst, hthen⟩ := hwork.of_andThen
  obtain ⟨image', himage, rfl⟩ := hfirst.of_part
  obtain ⟨tiles', htiles, rfl⟩ := hthen.of_part
  exact ((image_idempotent h himages _ _ himage).part _).andThen
    (((tile_idempotent h himages).each _ _ htiles).part _)

theorem grid_idempotent (name : String) : Idempotent (grid host around name) := by
  intro before after hwork
  -- The encoded cells are still there, and give the same tiles again.
  obtain ⟨cells, hcells, rfl⟩ := grid_assembled hwork
  have hdecode : (liftExcept ((before.data.decode before.width before.height).mapError
      BakeError.decode) : Bake σ (List UInt32)).Always cells := by
    rw [hcells]
    exact Bake.always_pure cells
  exact always_step _ (hdecode.bind ((Bake.always_lift _).bind (Bake.always_pure _)))

mutual

theorem layer_idempotent (h : host.Gives answers) (himages : answers.KeepsImages) :
    ∀ before after : Layer, (layer host around before).Yields after →
      (layer host around after).Always after
  | .tiles head before, after, hwork => by
      rw [layer] at hwork
      obtain ⟨grid', hgrid, rfl⟩ := hwork.of_within.of_part
      rw [layer]
      exact ((grid_idempotent head.name _ _ hgrid).part _).within _
  | .image head picture, after, hwork => by
      rw [layer] at hwork
      obtain ⟨image', himage, rfl⟩ := hwork.of_within.of_part
      rw [layer]
      exact ((image_idempotent h himages _ _ himage).part _).within _
  | .objects head before, after, hwork => by
      rw [layer] at hwork
      obtain ⟨objects', hobjects, rfl⟩ := hwork.of_within.of_part
      rw [layer]
      exact ((objects_idempotent h _ _ hobjects).part _).within _
  | .group head before, after, hwork => by
      rw [layer] at hwork
      obtain ⟨members, hmembers, rfl⟩ := hwork.of_within.of_part
      rw [layer]
      exact ((layers_idempotent h himages _ _ hmembers).part _).within _

theorem layers_idempotent (h : host.Gives answers) (himages : answers.KeepsImages) :
    ∀ before after : List Layer, (layers host around before).Yields after →
      (layers host around after).Always after
  | [], after, hwork => by
      rw [layers] at hwork
      rw [hwork.of_done, layers]
      exact always_done []
  | before :: others, after, hwork => by
      rw [layers] at hwork
      obtain ⟨first, rest, rfl, hfirst, hrest⟩ := hwork.of_cons
      rw [layers]
      exact (layer_idempotent h himages _ _ hfirst).cons (layers_idempotent h himages _ _ hrest)

end

theorem tilesetEntry_again {t : Tileset} (h : (tileset host around t).Always t) :
    (tilesetEntry host around (.inline t)).Always (.inline t) := by
  rw [tilesetEntry]
  split
  next => exact (h.part _).within _
  next => exact h.part _

theorem entries_again {map : Map} {ts : List Tileset} {work : TilesetEntry → Work σ TilesetEntry}
    (htilesets : map.tilesets = ts.map .inline)
    (h : ∀ t ∈ ts, (work (.inline t)).Always (.inline t)) :
    (part (fun tilesets => { map with tilesets }) (each work map.tilesets)).Always map := by
  have heach : (each work map.tilesets).Always map.tilesets := by
    rw [htilesets]
    apply always_each
    intro entry hentry
    obtain ⟨t, ht, rfl⟩ := List.mem_map.1 hentry
    exact h t ht
  exact heach.part _

namespace Stages

variable {before after : Map} {loaded assembled : List Tileset} {painted : List Layer}

theorem settle_again (stages : Stages host settings before after loaded assembled painted) :
    (settle settings after : Work σ Map).Always after := by
  have hrefilled := stages.tilesets.imp fun _ _ => refilled_of_tileset
  have htilesets : after.tilesets = assembled.map .inline := by rw [stages.result]
  have hchecked := (checkGids_of_refilled rfl htilesets hrefilled _).symm.trans stages.checked
  have hbackground : after.background = some (after.background.getD settings.background) := by
    rw [stages.result]
    rfl
  rw [settle_of_checked hchecked, ← hbackground]
  exact always_done after

theorem assemble_again (h : host.Gives answers) (himages : answers.KeepsImages)
    (stages : Stages host settings before after loaded assembled painted) :
    (after.assemble host settings).Always after := by
  have htilesets : after.tilesets = assembled.map .inline := by rw [stages.result]
  have hlayers : after.layers = painted := by rw [stages.result]
  -- The surroundings are computed again, but those of the first run were the assembled map's.
  have horder : after.order = before.order := by rw [stages.result]
  have hfilled : ∀ t ∈ assembled, (tileset host ⟨after.order, after.firstGids⟩ t).Always t := by
    rw [horder]
    exact ((List.forall₂_and_left _ _).1 (stages.tilesets.imp fun _ _ hwork =>
      ⟨tileset_idempotent h himages _ _ hwork, hwork⟩).flip).1
  have hpainted := layers_idempotent h himages _ _ stages.layers
  rw [← horder, ← hlayers] at hpainted
  have hload : (loadAll host after).Always after :=
    entries_again htilesets fun t _ => always_done (TilesetEntry.inline t)
  have hfill : (Assembly.tilesets host after).Always after :=
    entries_again htilesets fun t ht => tilesetEntry_again (hfilled t ht)
  have hpaint : (allLayers host after).Always after :=
    hpainted.part fun layers => ({ after with layers } : Map)
  exact hload.andThen (stages.settle_again.andThen (hfill.andThen hpaint))

end Stages

end Assembly

def parsedAt (texts : String → Except BakeError String)
    (parse : (document path : String) → Document.Result α) (path : String) : Except BakeError α := do
  let document ← texts path
  (parse document path).mapError fun e => .inFile path (.document e)

def Answers.ofTexts (texts image : String → Except BakeError String) : Answers where
  tileset := parsedAt texts Tileset.parse
  template := parsedAt texts Template.parse
  image := image

section

variable {readText : String → Bake σ String} {addDependency : String → StateM σ Unit}
  {texts : String → Except BakeError String}

theorem answer_loadDocument (htexts : ∀ path s, ((readText path).run.run s).1 = texts path)
    (parse : (document path : String) → Document.Result α) (path : String) (s : σ) :
    ((loadDocument readText addDependency parse path).run.run s).1 = parsedAt texts parse path := by
  have htext : (readText path s).1 = texts path := htexts path s
  change (loadDocument readText addDependency parse path s).1 = _
  rw [loadDocument, run_bind, parsedAt, ← htext]
  rcases readText path s with ⟨_ | document, s₁⟩
  · rfl
  · simp only [bind, Except.bind]
    cases parse document path <;> rfl

theorem Host.gives_of_texts (htexts : ∀ path s, ((readText path).run.run s).1 = texts path) :
    ({ readText, addDependency } : Host σ).Gives (.ofTexts texts .ok) where
  tileset := answer_loadDocument htexts Tileset.parse
  template := answer_loadDocument htexts Template.parse
  image _ _ := rfl

end

namespace FileTree

def image (tree : FileTree) (path : String) : Except BakeError String :=
  if tree.isFile path then .ok path else .error (.missing path .image)

theorem answer_readText (tree : FileTree) (path : String) (s : List String) :
    ((tree.host.readText path).run.run s).1 = tree.readText path := by
  change ((liftExcept (tree.readText path) : Bake (List String) String).run.run s).1 = _
  cases tree.readText path <;> rfl

theorem host_gives (tree : FileTree) : tree.host.Gives (.ofTexts tree.readText tree.image) := by
  refine ⟨answer_loadDocument tree.answer_readText Tileset.parse,
    answer_loadDocument tree.answer_readText Template.parse, ?_⟩
  intro path s
  change ((if tree.isFile path then _ else _ : Bake (List String) String) s).1 = tree.image path
  rw [image]
  cases tree.isFile path <;> rfl

theorem keepsImages (tree : FileTree) : (Answers.ofTexts tree.readText tree.image).KeepsImages := by
  intro path reference h
  change tree.image path = .ok reference at h
  have hpath : reference = path := by
    rw [image] at h
    split at h <;> cases h
    rfl
  rw [hpath] at h ⊢
  exact h

end FileTree

/-- A graph that has been assembled is assembled again without a change, and an object resolved, when
answers do not depend on what was asked for before. -/
theorem assemble_idempotent :
    (∀ {σ : Type} (host : Host σ) (answers : Answers), host.Gives answers → answers.KeepsImages →
      (∀ settings, Work.Idempotent (Map.assemble host settings)) ∧
        Work.Idempotent (Tileset.assemble host)) ∧
    (∀ {σ : Type} (source : TemplateSource σ) (answer : String → Except BakeError Object),
      source.Answers answer → Work.Idempotent (Object.resolveInPlace source)) ∧
    (∀ tree : FileTree, ∃ answers, tree.host.Gives answers ∧ answers.KeepsImages) ∧
    ∀ {σ : Type} (readText : String → Bake σ String) (addDependency : String → StateM σ Unit)
      (texts : String → Except BakeError String),
      (∀ path s, ((readText path).run.run s).1 = texts path) →
        ∃ answers, ({ readText, addDependency } : Host σ).Gives answers ∧ answers.KeepsImages := by
  refine ⟨?_, ?_, ?_, ?_⟩
  · intro σ host answers h himages
    constructor
    · intro settings before after hwork
      obtain ⟨loaded, assembled, painted, stages⟩ := Assembly.stages_of_assemble hwork
      exact stages.assemble_again h himages
    · exact Assembly.tileset_idempotent h himages
  · intro σ source answer hsource
    exact Object.resolveInPlace_idempotent hsource
  · intro tree
    exact ⟨_, tree.host_gives, tree.keepsImages⟩
  · intro σ readText addDependency texts htexts
    refine ⟨_, Host.gives_of_texts htexts, ?_⟩
    intro path reference _
    rfl

namespace Assembly

def gatheredAnswers : Answers := { sampleAnswers with image := fun _ => .ok "images/set.png" }

theorem gatheredAnswers_keepsImages : gatheredAnswers.KeepsImages := fun _ _ h => h

def gatheredTileset : Tileset :=
  { sampleLoaded with image := some ⟨"images/set.png", none, none⟩ }

def sampleLibrary : Library := ⟨[("set.tsx", "<tileset/>")], none⟩

def sampleTexts (path : String) : Except BakeError String :=
  match sampleLibrary.documents.lookup path with
  | some document => .ok document
  | none => .error (.missing path .file)

/-- The chest keeps the id that it has been given, and an image that has been found stays. -/
theorem assemble_idempotent_sample :
    (gatheredAnswers.host.Gives gatheredAnswers ∧ gatheredAnswers.KeepsImages ∧
      sampleMap.assemble gatheredAnswers.host {} () = (⟨sampleAssembled, none⟩, ()) ∧
      sampleAssembled.assemble gatheredAnswers.host {} () = (⟨sampleAssembled, none⟩, ()) ∧
      sampleLoaded.assemble gatheredAnswers.host () = (⟨gatheredTileset, none⟩, ()) ∧
      gatheredTileset.assemble gatheredAnswers.host () = (⟨gatheredTileset, none⟩, ())) ∧
    (∃ resolved s,
      Object.sampleInstance.resolveInPlace (.ofList Object.sampleTemplates) [] =
        (⟨resolved, none⟩, s) ∧
      ∃ s', resolved.resolveInPlace (.ofList Object.sampleTemplates) s = (⟨resolved, none⟩, s')) ∧
    ∃ answers, sampleLibrary.plain.Gives answers ∧ answers.KeepsImages := by
  have hgives := gatheredAnswers.host_gives
  have hmap := sampleMap_assemble_of_image fun _ => "images/set.png"
  have htileset : sampleLoaded.assemble gatheredAnswers.host () =
      (⟨gatheredTileset, none⟩, ()) := rfl
  obtain ⟨hagain, htilesetAgain⟩ :=
    assemble_idempotent.1 gatheredAnswers.host gatheredAnswers hgives gatheredAnswers_keepsImages
  obtain ⟨⟨⟩, hmapAgain⟩ := hagain {} _ _ (.of_eq hmap) ()
  obtain ⟨⟨⟩, htilesetAgain⟩ := htilesetAgain _ _ (.of_eq htileset) ()
  have hsource := TemplateSource.ofList_answers Object.sampleTemplates
  have hresolve := Object.sampleInstance_chain.resolveInPlace_eq hsource (by decide) []
  have hresolveAgain := assemble_idempotent.2.1 _ _ hsource _ _ (.of_eq hresolve)
  have htexts : ∀ path s, ((sampleLibrary.plain.readText path).run.run s).1 = sampleTexts path := by
    intro path s
    change (sampleLibrary.document path s).1 = _
    rw [Library.document, sampleTexts]
    cases sampleLibrary.documents.lookup path <;> rfl
  exact ⟨⟨hgives, gatheredAnswers_keepsImages, hmap, hmapAgain, htileset, htilesetAgain⟩,
    ⟨_, _, hresolve, hresolveAgain _⟩, assemble_idempotent.2.2.2 _ _ _ htexts⟩

end Assembly

end TileKiln
