import TileKiln.Compile
import TileKiln.Host.Disk
import TileKiln.Proofs.CompiledMap
import TileKiln.Proofs.Failures
import TileKiln.Proofs.LimitedSink
import TileKiln.Proofs.PayloadKinds
import TileKiln.Proofs.RangeCheck
import TileKiln.Proofs.TemplateChain

namespace TileKiln

namespace BakeError

def isInternal : BakeError → Bool
  | decode (.payloadMismatch _) | write (.unresolvedTileset _ _) | write .sinkFull => true
  | _ => false

def Expected (e : BakeError) : Prop := e.rootCause.isInternal = false

inductive FromHost : BakeError → Prop
  | missing (path : String) (what : Absence) : FromHost (.missing path what)
  | unreadable (path : String) : FromHost (.unreadable path)

theorem FromHost.expected {e : BakeError} (h : e.FromHost) : e.Expected := by
  cases h with
  | missing | unreadable => rfl

end BakeError

variable {σ α : Type} {host : Host σ} {settings : BakeSettings} {document path : String}

structure Host.LoadsTexts (host : Host σ) : Prop where
  readText : ∀ path, (host.readText path).FailsWith BakeError.FromHost
  resolveImage : ∀ path, (host.resolveImage path).FailsWith BakeError.FromHost
  loadTemplate : host.loadTemplate = loadDocument host.readText host.addDependency Template.parse
  loadTileset : host.loadTileset = loadDocument host.readText host.addDependency Tileset.parse

theorem Host.LoadsTexts.loadDocument (h : host.LoadsTexts)
    (parse : (document path : String) → Document.Result α) (path : String) :
    (loadDocument host.readText host.addDependency parse path).FailsWith BakeError.Expected := by
  refine ((h.readText path).mono fun e => BakeError.FromHost.expected).bind fun _ document _ _ => ?_
  refine (Bake.failsWith_lift _).bind fun _ _ _ _ => ?_
  split
  next => exact Bake.failsWith_pure _
  next => exact Bake.failsWith_throw rfl

theorem Gid.expected_of_remap {firstGids : List (String × UInt32)} {origin : TemplateTileset}
    {gid : UInt32} {e : BakeError} (h : remap firstGids origin gid = .error e) : e.Expected := by
  rw [remap] at h
  dsimp only at h
  split at h
  next => cases h
  next =>
    split at h
    next =>
      cases h
      rfl
    next =>
      split at h
      next =>
        cases h
        rfl
      next =>
        split at h
        next =>
          cases h
          rfl
        next => cases h

theorem Map.expected_of_checkGids {map : Map} {checkRanges : Bool} {e : BakeError}
    (h : map.checkGids checkRanges = .error e) : e.Expected := by
  rcases error_of_bind h with hgids | ⟨_, _, hranges⟩
  · obtain ⟨t, _, hcheck⟩ := error_of_forM hgids
    rw [Tileset.checkGids] at hcheck
    split at hcheck
    next =>
      cases hcheck
      rfl
    next => cases hcheck
  · split at hranges
    next =>
      obtain ⟨a, b, _, _, rfl⟩ := Tileset.pair_of_checkNeighbours hranges
      rfl
    next => cases hranges

theorem Object.Resolution.failure_of {P : BakeError → Prop} {fetch : String → Bake σ Object}
    (hfetch : ∀ reference, (fetch reference).FailsWith P) (hcycle : ∀ chain, P (.templateCycle chain))
    {chain : List String} {object : Object} {progress : Progress Object} {s s' : σ}
    (h : Resolution fetch chain object s progress s') : ∀ e ∈ progress.failure, P e := by
  induction h with
  | plain | inherits => simp
  | cycle chain object s reference => simpa using hcycle _
  | unfetched chain object s reference e s₁ _ _ hrun => simpa using hfetch reference hrun
  | unresolved _ _ _ _ _ _ _ e _ _ _ _ _ ih => simpa using ih

namespace Assembly

open Work

theorem expected_fetchTemplate (h : host.LoadsTexts) (around : Surroundings) (reference : String) :
    (fetchTemplate host around reference).FailsWith BakeError.Expected := by
  have hload : (host.loadTemplate reference).FailsWith BakeError.Expected := by
    rw [h.loadTemplate]
    exact h.loadDocument Template.parse reference
  refine hload.bind fun _ template _ _ => ?_
  dsimp only
  split
  next tileset gid _ _ =>
    refine (Bake.failsWith_lift _).bind fun _ _ _ _ => ?_
    split
    next => exact Bake.failsWith_pure _
    next e hremap =>
      have he := Gid.expected_of_remap hremap
      exact Bake.failsWith_throw he
  next => exact Bake.failsWith_pure _

theorem expected_object (h : host.LoadsTexts) (around : Surroundings) (o : Object) :
    (object host around o).FailsWith BakeError.Expected := by
  refine FailsWith.within ?_ fun e he => he
  intro s a e s' hresolve
  rw [Object.resolveInPlace] at hresolve
  cases hrun : Object.resolveFrom? (templates host around).fetch [] o s with
  | none =>
      rw [hrun, Option.getD_none] at hresolve
      cases hresolve
      rfl
  | some result =>
      rw [hrun, Option.getD_some] at hresolve
      subst hresolve
      exact (Object.Resolution.of_resolveFrom? hrun).failure_of (expected_fetchTemplate h around)
        (fun _ => rfl) e rfl

theorem expected_objects (h : host.LoadsTexts) (around : Surroundings) (os : List Object) :
    (objects host around os).FailsWith BakeError.Expected :=
  failsWith_each (expected_object h around) os

theorem expected_image (h : host.LoadsTexts) (image : Option Image) :
    (Assembly.image host image).FailsWith BakeError.Expected := by
  refine failsWith_each? (fun image => failsWith_step ?_) image
  refine ((h.resolveImage _).mono fun e => BakeError.FromHost.expected).bind fun _ _ _ _ => ?_
  exact Bake.failsWith_pure _

theorem expected_tile (h : host.LoadsTexts) (around : Surroundings) (t : Tile) :
    (tile host around t).FailsWith BakeError.Expected :=
  (expected_image h t.image).part.andThen fun t _ => (expected_objects h around t.objects).part

theorem expected_tileset (h : host.LoadsTexts) (around : Surroundings) (t : Tileset) :
    (tileset host around t).FailsWith BakeError.Expected :=
  (expected_image h t.image).part.andThen fun t _ =>
    (failsWith_each (expected_tile h around) t.tiles).part

theorem expected_tilesetEntry (h : host.LoadsTexts) (around : Surroundings)
    (entry : TilesetEntry) :
    (tilesetEntry host around entry).FailsWith BakeError.Expected := by
  cases entry with
  | external firstGid source => exact failsWith_done _
  | inline t =>
      have hpart : (Work.part TilesetEntry.inline (tileset host around t)).FailsWith
          BakeError.Expected := (expected_tileset h around t).part
      rw [tilesetEntry]
      split
      next => exact hpart.within fun e he => he
      next => exact hpart

theorem expected_load (h : host.LoadsTexts) (entry : TilesetEntry) :
    (load host entry).FailsWith BakeError.Expected := by
  cases entry with
  | inline t => exact failsWith_done _
  | external firstGid source =>
      have hload : (host.loadTileset source).FailsWith BakeError.Expected := by
        rw [h.loadTileset]
        exact h.loadDocument Tileset.parse source
      exact failsWith_step (hload.bind fun _ t _ _ => Bake.failsWith_pure _)

/-- Only a payload of the wrong kind would be an internal error of the decoder. -/
theorem expected_grid (around : Surroundings) (name : String) {g : TileGrid} (hdata : g.data.Matched) :
    (grid host around name g).FailsWith BakeError.Expected := by
  refine failsWith_step (Bake.FailsWith.bind ?_ fun _ cells _ _ => ?_)
  · refine Bake.failsWith_liftExcept fun e hdecode => ?_
    cases e with
    | payloadMismatch encoding => exact absurd hdecode hdata.decode_ne_payloadMismatch
    | _ => rfl
  · refine (Bake.failsWith_lift _).bind fun _ _ _ _ => ?_
    exact Bake.failsWith_pure _

mutual

theorem expected_layer (h : host.LoadsTexts) (around : Surroundings) : (l : Layer) →
    (hdata : l.Matched) →
    (layer host around l).FailsWith BakeError.Expected
  | .tiles head g, hdata => by
      rw [layer]
      exact (expected_grid around head.name hdata).part.within fun e he => he
  | .image head picture, _ => by
      rw [layer]
      exact (expected_image h picture.image).part.within fun e he => he
  | .objects head items, _ => by
      rw [layer]
      exact (expected_objects h around items).part.within fun e he => he
  | .group head members, hdata => by
      rw [layer]
      exact (expected_layers h around members hdata).part.within fun e he => he

theorem expected_layers (h : host.LoadsTexts) (around : Surroundings) : (ls : List Layer) →
    (hdata : Layer.AllMatched ls) →
    (layers host around ls).FailsWith BakeError.Expected
  | [], _ => by
      rw [layers]
      exact failsWith_done _
  | l :: ls, hdata => by
      rw [layers]
      exact (expected_layer h around l hdata.1).cons (expected_layers h around ls hdata.2)

end

theorem expected_settle (map : Map) :
    (settle (σ := σ) settings map).FailsWith BakeError.Expected := by
  intro s a e s' hsettle
  cases hcheck : map.checkGids settings.checkRanges with
  | error cause =>
      rw [settle, hcheck] at hsettle
      cases hsettle
      exact Map.expected_of_checkGids hcheck
  | ok =>
      rw [settle_of_checked hcheck] at hsettle
      cases hsettle

theorem expected_prepare (h : host.LoadsTexts) (map : Map) :
    (prepare host settings map).FailsWith BakeError.Expected := by
  refine (failsWith_each (expected_load h) map.tilesets).part.andThen fun loaded _ => ?_
  refine (expected_settle loaded).andThen fun settled _ => ?_
  rw [tilesets]
  exact (failsWith_each (expected_tilesetEntry h _) settled.tilesets).part

theorem expected_assemble (h : host.LoadsTexts) {map : Map}
    (hdata : Layer.AllMatched map.layers) :
    (map.assemble host settings).FailsWith BakeError.Expected := by
  rw [assemble_eq_prepare]
  refine (expected_prepare h map).andThen fun ready hready => ?_
  rw [← (layers_of_prepare hready).1] at hdata
  rw [allLayers]
  exact (expected_layers h _ ready.layers hdata).part

/-- Decoding and placing with a check in between that the cells fill the grid, which fails with `e`
if they do not. -/
def checkedGrid (host : Host σ) (around : Surroundings) (e : BakeError) (layer : String)
    (g : TileGrid) : Work σ TileGrid :=
  Work.step g do
    let cells ← liftExcept ((g.data.decode g.width g.height).mapError BakeError.decode)
    unless cells.length = g.width.toNat * g.height.toNat do throw e
    let placed := around.order.sequence g.width g.height cells
    host.log .debug ("layer '" ++ layer ++ s!"': {placed.length} tiles")
    return { g with placed }

theorem checkedGrid_eq (host : Host σ) (around : Surroundings) (e : BakeError) (layer : String)
    (g : TileGrid) : checkedGrid host around e layer g = grid host around layer g := by
  rw [checkedGrid, grid]
  cases hdecode : g.data.decode g.width g.height with
  | error cause => rfl
  | ok cells =>
      change Work.step g (pure cells >>= fun cells => _) = Work.step g (pure cells >>= fun cells => _)
      rw [pure_bind, pure_bind]
      exact congrArg (Work.step g) (if_pos (TileData.length_of_decode hdecode))

end Assembly

/-- Of a map whose tilesets are all loaded only a length can be impossible to write. -/
theorem Baked.LaysOut.expected {write : Writer Unit} {layout : List UInt8} {fits : Prop} {e : WriteError}
    (h : Baked.LaysOut write (.ok ()) layout fits) (hbytes : write.bytes = .error e) :
    (BakeError.write e).Expected := by
  rcases h with hemits | ⟨_, length, front, _, hemits⟩
  · rw [hemits.bytes_eq] at hbytes
    cases hbytes
  · rw [hemits.bytes_eq] at hbytes
    cases hbytes
    rfl

theorem expected_compileWith {parse : Document.Result α} {assemble : α → Work σ α}
    {write : α → Writer Unit}
    (hassemble : ∀ parsed, parse = .ok parsed → (assemble parsed).FailsWith BakeError.Expected)
    (hwrite : ∀ parsed assembled, (assemble parsed).Yields assembled →
      ∀ e, (write assembled).bytes = .error e → (BakeError.write e).Expected) :
    (compileWith parse assemble write).FailsWith BakeError.Expected := by
  refine Bake.FailsWith.bind ?_ fun _ parsed _ hparse => ?_
  · exact Bake.failsWith_liftExcept fun _ _ => rfl
  · refine (hassemble parsed (Bake.ok_of_liftExcept hparse).1).toBake.bind ?_
    intro s assembled s' hrun
    have hyields := Work.Yields.of_eq (Work.toBake_eq_ok_iff.1 hrun)
    exact Bake.failsWith_liftExcept (hwrite parsed assembled hyields)

theorem expected_reporting {compile : Bake σ (List UInt8)}
    (h : compile.FailsWith BakeError.Expected) :
    (reporting host path compile).FailsWith BakeError.Expected := by
  refine h.tryCatch fun e he => ?_
  by_cases hoverflow : e = .decode .overflow
  · subst hoverflow
    exact Bake.failsWith_throw he
  · rw [report_of_ne hoverflow]
    exact (Bake.failsWith_lift _).bind fun _ _ _ _ => Bake.failsWith_throw he

theorem expected_compileMap (h : host.LoadsTexts) :
    (compileMap host settings document path).FailsWith BakeError.Expected := by
  refine (Bake.failsWith_lift _).bind fun _ _ _ _ => expected_reporting (expected_compileWith ?_ ?_)
  · intro parsed hparse
    exact Assembly.expected_assemble h (Map.matched_of_parse hparse)
  · intro parsed assembled hyields e hbytes
    obtain ⟨_, _, _, stages⟩ := Assembly.stages_of_assemble hyields
    exact (Baked.map_laysOut stages.isLoaded).expected hbytes

theorem expected_compileTileset (h : host.LoadsTexts) :
    (compileTileset host document path).FailsWith BakeError.Expected := by
  refine (Bake.failsWith_lift _).bind fun _ _ _ _ => expected_reporting (expected_compileWith ?_ ?_)
  · intro parsed _
    exact Assembly.expected_tileset h {} parsed
  · intro parsed assembled _ e hbytes
    exact (Baked.tileset_laysOut assembled).expected hbytes

/-- Over a host that loads templates and tilesets from texts, baking fails with no internal error,
and the cells that are put in painting order fill their grid: a check that they do changes
nothing. -/
theorem not_internal_of_loadsTexts (h : host.LoadsTexts) :
    (∀ settings document path s e s',
      (compileMap host settings document path).run.run s = (.error e, s') →
        e.rootCause.isInternal = false) ∧
    (∀ document path s e s',
      (compileTileset host document path).run.run s = (.error e, s') →
        e.rootCause.isInternal = false) ∧
    ∀ around e layer g,
      Assembly.checkedGrid host around e layer g = Assembly.grid host around layer g :=
  ⟨fun _ _ _ _ _ _ hrun => expected_compileMap h hrun,
    fun _ _ _ _ _ hrun => expected_compileTileset h hrun, Assembly.checkedGrid_eq host⟩

theorem FileTree.fromHost_of_readText {tree : FileTree} {e : BakeError}
    (h : tree.readText path = .error e) : e.FromHost := by
  rw [readText] at h
  split at h
  next =>
    split at h
    next => cases h
    next =>
      cases h
      exact .unreadable path
  next =>
    cases h
    exact .missing path .file
  all_goals
    cases h
    exact .unreadable path

theorem FileTree.host_loadsTexts (tree : FileTree) : tree.host.LoadsTexts where
  readText path := by
    intro s e s' hrun
    cases hread : tree.readText path with
    | ok text =>
        simp only [host, hread] at hrun
        cases hrun
    | error cause =>
        simp only [host, hread] at hrun
        cases hrun
        exact fromHost_of_readText hread
  resolveImage path := by
    intro s e s' hrun
    change (if tree.isFile path then _ else _ : Bake (List String) String) s = _ at hrun
    split at hrun
    next => cases hrun
    next =>
      cases hrun
      exact .missing path .image
  loadTemplate := rfl
  loadTileset := rfl

def crowdedLevel : String :=
  "<map><layer name=\"floor\" width=\"1\" height=\"1\"><data encoding=\"csv\">1,2</data></layer></map>"

theorem not_internal_of_loadsTexts_sample :
    (⟨[], []⟩ : FileTree).host.LoadsTexts ∧
    ∃ e s', (compileMap (⟨[], []⟩ : FileTree).host {} crowdedLevel "level.tmx").run.run [] =
        (.error e, s') ∧
      e = .inFile "level.tmx" (.inLayer "floor" (.decode (.sizeMismatch 1 2))) ∧
      e.rootCause.isInternal = false := by
  have hfails : ((compileMap (⟨[], []⟩ : FileTree).host {} crowdedLevel "level.tmx").run.run []).1 =
      .error (.inFile "level.tmx" (.inLayer "floor" (.decode (.sizeMismatch 1 2)))) := by
    decide +kernel
  have hrun : (compileMap (⟨[], []⟩ : FileTree).host {} crowdedLevel "level.tmx").run.run [] =
      (.error _, _) := Prod.ext hfails rfl
  have hhost := FileTree.host_loadsTexts ⟨[], []⟩
  exact ⟨hhost, _, _, hrun, rfl, (not_internal_of_loadsTexts hhost).1 _ _ _ _ _ _ hrun⟩

end TileKiln
