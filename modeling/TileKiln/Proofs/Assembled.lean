import TileKiln.Proofs.AssemblyStages
import TileKiln.Proofs.TemplateChain

namespace TileKiln

variable {σ : Type}

/-- What a host answers, by path. -/
structure Answers where
  tileset : String → Except BakeError Tileset
  template : String → Except BakeError Template
  image : String → Except BakeError String

structure Host.Gives (host : Host σ) (answers : Answers) : Prop where
  tileset : ∀ path s, ((host.loadTileset path).run.run s).1 = answers.tileset path
  template : ∀ path s, ((host.loadTemplate path).run.run s).1 = answers.template path
  image : ∀ path s, ((host.resolveImage path).run.run s).1 = answers.image path

def Answers.host (answers : Answers) : Host Unit where
  readText path := throw (.missing path .file)
  resolveImage path := liftExcept (answers.image path)
  loadTemplate path := liftExcept (answers.template path)
  loadTileset path := liftExcept (answers.tileset path)

theorem Answers.host_gives (answers : Answers) : answers.host.Gives answers where
  tileset path s := by
    change ((liftExcept (answers.tileset path) : Bake Unit Tileset).run.run s).1 = _
    cases answers.tileset path <;> rfl
  template path s := by
    change ((liftExcept (answers.template path) : Bake Unit Template).run.run s).1 = _
    cases answers.template path <;> rfl
  image path s := by
    change ((liftExcept (answers.image path) : Bake Unit String).run.run s).1 = _
    cases answers.image path <;> rfl

def Answers.object (answers : Answers) (firstGids : List (String × UInt32)) (reference : String) :
    Except BakeError Object := do
  let template ← answers.template reference
  match template.tileset, template.object.gid with
  | some tileset, some gid =>
    let gid ← (Gid.remap firstGids tileset gid).mapError (.inFile reference)
    return { template.object with gid := some gid }
  | _, _ => return template.object

def Image.Assembled (answers : Answers) : Option Image → Option Image → Prop
  | none, after => after = none
  | some image, after =>
    ∃ source, answers.image image.source = .ok source ∧ after = some { image with source }

def Object.Assembled (answers : Answers) (firstGids : List (String × UInt32))
    (before after : Object) : Prop :=
  ∃ references templates, Object.Chain (answers.object firstGids) before references templates ∧
    references.Nodup ∧ before.NearestWins templates after

structure Tile.Assembled (answers : Answers) (firstGids : List (String × UInt32))
    (before after : Tile) : Prop where
  image : Image.Assembled answers before.image after.image
  objects : List.Forall₂ (Object.Assembled answers firstGids) before.objects after.objects
  others : after = { before with image := after.image, objects := after.objects }

structure Tileset.Assembled (answers : Answers) (firstGids : List (String × UInt32))
    (before after : Tileset) : Prop where
  image : Image.Assembled answers before.image after.image
  tiles : List.Forall₂ (Tile.Assembled answers firstGids) before.tiles after.tiles
  others : after = { before with image := after.image, tiles := after.tiles }

inductive TilesetEntry.Assembled (answers : Answers) (firstGids : List (String × UInt32)) :
    TilesetEntry → TilesetEntry → Prop
  | inline (before after : Tileset) (h : before.Assembled answers firstGids after) :
      Assembled answers firstGids (.inline before) (.inline after)
  | external (firstGid : UInt32) (source : String) (loaded after : Tileset)
      (hloaded : answers.tileset source = .ok loaded)
      (h : Tileset.Assembled answers firstGids { loaded with firstGid } after) :
      Assembled answers firstGids (.external firstGid source) (.inline after)

inductive Layer.Assembled (answers : Answers) (firstGids : List (String × UInt32))
    (order : PaintOrder) : Layer → Layer → Prop
  | tiles (head : LayerHead) (grid : TileGrid) (cells : List UInt32)
      (hcells : grid.data.decode grid.width grid.height = .ok cells) :
      Assembled answers firstGids order (.tiles head grid)
        (.tiles head { grid with placed := order.sequence grid.width grid.height cells })
  | image (head : LayerHead) (picture : Picture) (after : Option Image)
      (h : Image.Assembled answers picture.image after) :
      Assembled answers firstGids order (.image head picture)
        (.image head { picture with image := after })
  | objects (head : LayerHead) (before after : List Object)
      (h : List.Forall₂ (Object.Assembled answers firstGids) before after) :
      Assembled answers firstGids order (.objects head before) (.objects head after)
  | group (head : LayerHead) (before after : List Layer)
      (h : List.Forall₂ (Assembled answers firstGids order) before after) :
      Assembled answers firstGids order (.group head before) (.group head after)

/-- Template ids are moved to where the tilesets of the assembled map begin. -/
structure Map.Assembled (answers : Answers) (settings : BakeSettings) (before after : Map) :
    Prop where
  tilesets : List.Forall₂ (TilesetEntry.Assembled answers after.firstGids) before.tilesets
    after.tilesets
  background : after.background = some (before.background.getD settings.background)
  layers : List.Forall₂ (Layer.Assembled answers after.firstGids before.order) before.layers
    after.layers
  others : after = { before with
    tilesets := after.tilesets, background := after.background, layers := after.layers }

namespace Assembly

open Work

variable {host : Host σ} {answers : Answers} {around : Surroundings}

theorem templates_answers (h : host.Gives answers) :
    (templates host around).Answers (answers.object around.firstGids) := by
  intro reference s
  have hanswer : (host.loadTemplate reference s).1 = answers.template reference :=
    h.template reference s
  change (fetchTemplate host around reference s).1 = _
  rw [fetchTemplate, run_bind, Answers.object, ← hanswer]
  rcases host.loadTemplate reference s with ⟨e | template, s₁⟩
  · rfl
  · simp only [bind, Except.bind]
    cases template.tileset with
    | none => rfl
    | some tileset =>
        cases template.object.gid with
        | none => rfl
        | some gid =>
            dsimp only
            cases Gid.remap around.firstGids tileset gid <;> rfl

theorem image_assembled (h : host.Gives answers) {before after : Option Image}
    (hwork : (image host before).Yields after) : Image.Assembled answers before after := by
  cases before with
  | none => exact hwork.of_done
  | some before =>
      obtain ⟨_, hstep, rfl⟩ := Yields.of_part hwork
      obtain ⟨s, s', hrun⟩ := hstep.of_step
      obtain ⟨source, s₁, hsource, hrun⟩ := Bake.ok_of_bind hrun
      cases hrun
      exact ⟨source, by rw [← h.image, hsource], rfl⟩

theorem object_assembled (h : host.Gives answers) {before after : Object}
    (hwork : (object host around before).Yields after) :
    before.Assembled answers around.firstGids after := by
  obtain ⟨s, s', hresolve⟩ := hwork.of_within
  obtain ⟨references, templates, hchain, hnodup, rfl⟩ :=
    (Object.resolution_of_resolveInPlace hresolve).exists_chain (templates_answers h)
      List.nodup_nil
  exact ⟨references, templates, hchain, hnodup, Object.nearestWins_inheritAll before templates⟩

theorem objects_assembled (h : host.Gives answers) {before after : List Object}
    (hwork : (objects host around before).Yields after) :
    List.Forall₂ (Object.Assembled answers around.firstGids) before after :=
  hwork.of_each.imp fun _ _ => object_assembled h

theorem tile_assembled (h : host.Gives answers) {before after : Tile}
    (hwork : (tile host around before).Yields after) :
    before.Assembled answers around.firstGids after := by
  obtain ⟨_, hfirst, hthen⟩ := hwork.of_andThen
  obtain ⟨image, himage, rfl⟩ := hfirst.of_part
  obtain ⟨objects, hobjects, rfl⟩ := hthen.of_part
  exact ⟨image_assembled h himage, objects_assembled h hobjects, rfl⟩

theorem tileset_assembled (h : host.Gives answers) {before after : Tileset}
    (hwork : (tileset host around before).Yields after) :
    before.Assembled answers around.firstGids after := by
  obtain ⟨_, hfirst, hthen⟩ := hwork.of_andThen
  obtain ⟨image, himage, rfl⟩ := hfirst.of_part
  obtain ⟨tiles, htiles, rfl⟩ := hthen.of_part
  exact ⟨image_assembled h himage, htiles.of_each.imp fun _ _ => tile_assembled h, rfl⟩

theorem grid_assembled {name : String} {before after : TileGrid}
    (hwork : (grid host around name before).Yields after) :
    ∃ cells, before.data.decode before.width before.height = .ok cells ∧
      after = { before with placed := around.order.sequence before.width before.height cells } := by
  obtain ⟨s, s', hrun⟩ := hwork.of_step
  obtain ⟨cells, s₁, hdecode, hrun⟩ := Bake.ok_of_bind hrun
  obtain ⟨_, s₂, hlog, hrun⟩ := Bake.ok_of_bind hrun
  cases hrun
  exact ⟨cells, (Bake.ok_of_liftExcept hdecode).1, rfl⟩

mutual

theorem layer_assembled (h : host.Gives answers) : ∀ {before after : Layer},
    (layer host around before).Yields after →
      before.Assembled answers around.firstGids around.order after
  | .tiles head before, after, hwork => by
      rw [layer] at hwork
      obtain ⟨grid, hgrid, rfl⟩ := hwork.of_within.of_part
      obtain ⟨cells, hcells, rfl⟩ := grid_assembled hgrid
      exact .tiles head before cells hcells
  | .image head picture, after, hwork => by
      rw [layer] at hwork
      obtain ⟨image, himage, rfl⟩ := hwork.of_within.of_part
      exact .image head picture image (image_assembled h himage)
  | .objects head before, after, hwork => by
      rw [layer] at hwork
      obtain ⟨objects, hobjects, rfl⟩ := hwork.of_within.of_part
      exact .objects head before objects (objects_assembled h hobjects)
  | .group head before, after, hwork => by
      rw [layer] at hwork
      obtain ⟨members, hmembers, rfl⟩ := hwork.of_within.of_part
      exact .group head before members (layers_assembled h hmembers)

theorem layers_assembled (h : host.Gives answers) : ∀ {before after : List Layer},
    (layers host around before).Yields after →
      List.Forall₂ (Layer.Assembled answers around.firstGids around.order) before after
  | [], after, hwork => by
      rw [layers] at hwork
      rw [hwork.of_done]
      exact .nil
  | before :: others, after, hwork => by
      rw [layers] at hwork
      obtain ⟨first, rest, rfl, hfirst, hrest⟩ := hwork.of_cons
      exact .cons (layer_assembled h hfirst) (layers_assembled h hrest)

end

theorem entry_assembled (h : host.Gives answers) {before : TilesetEntry} {loaded after : Tileset}
    (hload : (load host before).Yields (.inline loaded))
    (hwork : (tileset host around loaded).Yields after) :
    before.Assembled answers around.firstGids (.inline after) := by
  cases before with
  | inline before =>
      cases hload.of_done
      exact .inline loaded after (tileset_assembled h hwork)
  | external firstGid source =>
      obtain ⟨s, s', hrun⟩ := hload.of_step
      obtain ⟨tileset, s₁, hanswer, hrun⟩ := Bake.ok_of_bind hrun
      cases hrun
      exact .external firstGid source tileset after (by rw [← h.tileset, hanswer])
        (tileset_assembled h hwork)

theorem entries_assembled (h : host.Gives answers) {before : List TilesetEntry}
    {loaded after : List Tileset}
    (hloads : List.Forall₂ (fun entry t => (load host entry).Yields (.inline t)) before loaded)
    (hwork : List.Forall₂ (fun t t' => (tileset host around t).Yields t') loaded after) :
    List.Forall₂ (TilesetEntry.Assembled answers around.firstGids) before (after.map .inline) := by
  induction hloads generalizing after with
  | nil =>
      cases hwork
      exact .nil
  | cons hload _ ih =>
      cases hwork with
      | cons hfirst hothers => exact .cons (entry_assembled h hload hfirst) (ih hothers)

end Assembly

/-- Assembly that succeeds leaves every node as it has to be, and nothing else changes. -/
theorem Map.assembled_of_assemble {host : Host σ} {answers : Answers} {settings : BakeSettings}
    {map result : Map} {s s' : σ} (h : host.Gives answers)
    (hwork : map.assemble host settings s = (⟨result, none⟩, s')) :
    map.Assembled answers settings result := by
  obtain ⟨loaded, assembled, painted, stages⟩ := Assembly.stages_of_assemble (.of_eq hwork)
  have htilesets := Assembly.entries_assembled h stages.loads stages.tilesets
  have hlayers := Assembly.layers_assembled h stages.layers
  constructor
  · rw [stages.result] at htilesets ⊢
    exact htilesets
  · rw [stages.result]
  · rw [stages.result] at hlayers ⊢
    exact hlayers
  · rw [stages.result]

namespace Assembly

def sampleAnswers : Answers where
  tileset _ := .ok { source := some "set.tsx", tileCount := 4, image := some ⟨"set.png", none, none⟩ }
  template _ := .ok ⟨some ⟨1, "set.tsx"⟩, { name := some "chest", gid := some 2 }⟩
  image path := .ok ("images/" ++ path)

def sampleMap : Map where
  width := 1
  height := 1
  tilesets := [.external 5 "set.tsx"]
  layers := [.group { name := "outer" }
    [.objects { name := "Chests" } [{ id := some 1, template := some "chest.tx" }],
     .tiles { name := "Ground" } { width := 1, height := 1, data := { payload := .cells [5] } }]]

def sampleLoaded : Tileset where
  source := some "set.tsx"
  firstGid := 5
  tileCount := 4
  image := some ⟨"set.png", none, none⟩

def sampleAssembled : Map where
  width := 1
  height := 1
  background := some .black
  tilesets := [.inline { source := some "set.tsx", firstGid := 5, tileCount := 4,
                         image := some ⟨"images/set.png", none, none⟩ }]
  layers := [.group { name := "outer" }
    [.objects { name := "Chests" }
      [{ id := some 1, name := some "chest", gid := some 6, template := some "chest.tx" }],
     .tiles { name := "Ground" } { width := 1, height := 1, data := { payload := .cells [5] },
                                   placed := [⟨5, 0, 0⟩] }]]

def sampleSettled : Map :=
  { sampleMap with tilesets := [.inline sampleLoaded], background := some .black }

/-- Wherever images are kept, the rest of the map is the same. -/
theorem sampleMap_assemble_of_image (place : String → String) :
    sampleMap.assemble
        ({ sampleAnswers with image := fun path => .ok (place path) } : Answers).host {} () =
      (⟨{ sampleAssembled with tilesets :=
        [.inline { sampleLoaded with image := some ⟨place "set.png", none, none⟩ }] }, none⟩, ()) := by
  let answers : Answers := { sampleAnswers with image := fun path => .ok (place path) }
  let around : Surroundings := ⟨.rightDown, [("set.tsx", 5)]⟩
  let filled : Map := { sampleAssembled with tilesets :=
    [.inline { sampleLoaded with image := some ⟨place "set.png", none, none⟩ }] }
  have hranges : Tileset.checkRanges [sampleLoaded] = .ok () := by
    rw [Tileset.checkRanges, List.mergeSort_singleton]
    rfl
  have hsettle : settle (σ := Unit) {} { sampleMap with tilesets := [.inline sampleLoaded] } =
      Work.done sampleSettled := settle_of_checked hranges
  have hchest : Object.Chain (answers.object around.firstGids)
      { id := some 1, template := some "chest.tx" } ["chest.tx"]
      [{ name := some "chest", gid := some 6 }] :=
    .template _ _ _ _ _ rfl rfl (.plain _ rfl)
  have hresolve := hchest.resolveInPlace_eq (templates_answers answers.host_gives)
    (List.nodup_singleton _) ()
  have hlayers : layers answers.host around sampleMap.layers () =
      (⟨filled.layers, none⟩, ()) := by
    simp only [sampleMap, layers, layer, objects, object, grid, Work.each, Work.cons, Work.part,
      Work.within, hresolve]
    rfl
  change Work.andThen (settle {} { sampleMap with tilesets := [.inline sampleLoaded] }) _ () = _
  rw [hsettle]
  change Work.part (fun layers => { filled with layers })
    (layers answers.host around sampleMap.layers) () = _
  rw [Work.part, hlayers]

theorem sampleMap_assemble :
    sampleMap.assemble sampleAnswers.host {} () = (⟨sampleAssembled, none⟩, ()) :=
  sampleMap_assemble_of_image ("images/" ++ ·)

/-- The chest takes its picture from where the map has the set. -/
theorem assembled_of_assemble_sample :
    sampleAnswers.host.Gives sampleAnswers ∧
    sampleMap.assemble sampleAnswers.host {} () = (⟨sampleAssembled, none⟩, ()) ∧
    sampleMap.Assembled sampleAnswers {} sampleAssembled :=
  ⟨sampleAnswers.host_gives, sampleMap_assemble,
    Map.assembled_of_assemble sampleAnswers.host_gives sampleMap_assemble⟩

end Assembly

end TileKiln
