import TileKiln.Compile
import TileKiln.Proofs.Success
import TileKiln.Proofs.TemplateChain
import TileKiln.Proofs.WorkResults

namespace TileKiln

variable {σ τ α β : Type} {R : σ → τ → Prop}

/-- From related states both runs end with the same outcome, and in related states. -/
def Alike (R : σ → τ → Prop) (run : σ → α × σ) (run' : τ → α × τ) : Prop :=
  ∀ ⦃s t⦄, R s t → ∃ a s' t', run s = (a, s') ∧ run' t = (a, t') ∧ R s' t'

theorem alike_const (a : α) : Alike R (fun s => (a, s)) (fun t => (a, t)) :=
  fun s t hst => ⟨a, s, t, rfl, rfl, hst⟩

theorem Alike.symm {run : σ → α × σ} {run' : τ → α × τ} (h : Alike R run run') :
    Alike (fun t s => R s t) run' run := by
  intro t s hst
  obtain ⟨a, s', t', hrun, hrun', hst'⟩ := h hst
  exact ⟨a, t', s', hrun', hrun, hst'⟩

namespace Bake

theorem alike_bind {act : Bake σ α} {act' : Bake τ α} {next : α → Bake σ β} {next' : α → Bake τ β}
    (h : Alike R act act') (hnext : ∀ a, Alike R (next a) (next' a)) :
    Alike R (act >>= next) (act' >>= next') := by
  intro s t hst
  obtain ⟨outcome, s₁, t₁, hrun, hrun', hst₁⟩ := h hst
  rw [run_bind, run_bind, hrun, hrun']
  cases outcome with
  | error e => exact alike_const (Except.error e) hst₁
  | ok a => exact hnext a hst₁

theorem alike_tryCatch {act : Bake σ α} {act' : Bake τ α} {handle : BakeError → Bake σ α}
    {handle' : BakeError → Bake τ α} (h : Alike R act act')
    (hhandle : ∀ e, Alike R (handle e) (handle' e)) :
    Alike R (tryCatch act handle) (tryCatch act' handle') := by
  intro s t hst
  obtain ⟨outcome, s₁, t₁, hrun, hrun', hst₁⟩ := h hst
  rw [run_tryCatch, run_tryCatch, hrun, hrun']
  cases outcome with
  | error e => exact hhandle e hst₁
  | ok a => exact alike_const (Except.ok a) hst₁

theorem alike_lift {act : StateM σ α} {act' : StateM τ α} (h : Alike R act act') :
    Alike R (liftM act : Bake σ α) (liftM act' : Bake τ α) := by
  intro s t hst
  obtain ⟨a, s', t', hrun, hrun', hst'⟩ := h hst
  refine ⟨.ok a, s', t', ?_, ?_, hst'⟩
  · change (Except.ok (act s).1, (act s).2) = _
    rw [hrun]
  · change (Except.ok (act' t).1, (act' t).2) = _
    rw [hrun']

theorem alike_liftExcept (result : Except BakeError α) :
    Alike R (liftExcept result : Bake σ α) (liftExcept result : Bake τ α) := by
  cases result with
  | error e => exact alike_const (Except.error e)
  | ok a => exact alike_const (Except.ok a)

end Bake

namespace Work

theorem alike_done (a : α) : Alike R (done a : Work σ α) (done a : Work τ α) :=
  alike_const (Progress.mk a none)

theorem alike_fail (a : α) (e : BakeError) : Alike R (fail a e : Work σ α) (fail a e : Work τ α) :=
  alike_const (Progress.mk a (some e))

theorem alike_step (a : α) {next : Bake σ α} {next' : Bake τ α} (h : Alike R next next') :
    Alike R (step a next) (step a next') := by
  intro s t hst
  obtain ⟨outcome, s₁, t₁, hrun, hrun', hst₁⟩ := h hst
  have hrun : next.run.run s = _ := hrun
  have hrun' : next'.run.run t = _ := hrun'
  rw [step, step, hrun, hrun']
  cases outcome with
  | error e => exact alike_fail a e hst₁
  | ok b => exact alike_done b hst₁

theorem alike_andThen {work : Work σ α} {work' : Work τ α} {next : α → Work σ α}
    {next' : α → Work τ α} (h : Alike R work work') (hnext : ∀ a, Alike R (next a) (next' a)) :
    Alike R (work.andThen next) (work'.andThen next') := by
  intro s t hst
  obtain ⟨⟨a, failure⟩, s₁, t₁, hrun, hrun', hst₁⟩ := h hst
  rw [andThen, andThen, hrun, hrun']
  cases failure with
  | none => exact hnext a hst₁
  | some e => exact alike_fail a e hst₁

theorem alike_part (whole : β → α) {work : Work σ β} {work' : Work τ β} (h : Alike R work work') :
    Alike R (work.part whole) (work'.part whole) := by
  intro s t hst
  obtain ⟨⟨b, failure⟩, s₁, t₁, hrun, hrun', hst₁⟩ := h hst
  rw [part, part, hrun, hrun']
  exact alike_const (Progress.mk (whole b) failure) hst₁

theorem alike_within (place : BakeError → BakeError) {work : Work σ α} {work' : Work τ α}
    (h : Alike R work work') : Alike R (work.within place) (work'.within place) := by
  intro s t hst
  obtain ⟨⟨a, failure⟩, s₁, t₁, hrun, hrun', hst₁⟩ := h hst
  rw [within, within, hrun, hrun']
  exact alike_const (Progress.mk a (failure.map (BakeError.within place))) hst₁

theorem alike_cons {first : Work σ α} {first' : Work τ α} (others : List α)
    {next : Work σ (List α)} {next' : Work τ (List α)} (h : Alike R first first')
    (hnext : Alike R next next') : Alike R (first.cons others next) (first'.cons others next') := by
  intro s t hst
  obtain ⟨⟨a, failure⟩, s₁, t₁, hrun, hrun', hst₁⟩ := h hst
  rw [cons, cons, hrun, hrun']
  cases failure with
  | none => exact alike_part (a :: ·) hnext hst₁
  | some e => exact alike_fail (a :: others) e hst₁

theorem alike_each {work : α → Work σ α} {work' : α → Work τ α}
    (h : ∀ a, Alike R (work a) (work' a)) (as : List α) :
    Alike R (each work as) (each work' as) := by
  induction as with
  | nil => exact alike_done []
  | cons a as ih => exact alike_cons as (h a) ih

theorem alike_toBake {work : Work σ α} {work' : Work τ α} (h : Alike R work work') :
    Alike R work.toBake work'.toBake := by
  intro s t hst
  obtain ⟨⟨a, failure⟩, s₁, t₁, hrun, hrun', hst₁⟩ := h hst
  simp only [toBake, ExceptT.mk, hrun, hrun']
  cases failure with
  | none => exact alike_const (Except.ok a) hst₁
  | some e => exact alike_const (Except.error e) hst₁

end Work

structure Host.Alike (R : σ → τ → Prop) (host : Host σ) (host' : Host τ) : Prop where
  tileset : ∀ path, TileKiln.Alike R (host.loadTileset path) (host'.loadTileset path)
  template : ∀ path, TileKiln.Alike R (host.loadTemplate path) (host'.loadTemplate path)
  image : ∀ path, TileKiln.Alike R (host.resolveImage path) (host'.resolveImage path)
  dependency : ∀ path, TileKiln.Alike R (host.addDependency path) (host'.addDependency path)
  log : ∀ level message, TileKiln.Alike R (host.log level message) (host'.log level message)

namespace Object

variable {fetch : String → Bake σ Object} {fetch' : String → Bake τ Object}

theorem Resolution.of_alike (hfetch : ∀ reference, Alike R (fetch reference) (fetch' reference))
    {chain : List String} {object : Object} {progress : Progress Object} {s s' : σ} {t : τ}
    (h : Resolution fetch chain object s progress s') (hst : R s t) :
    ∃ t', Resolution fetch' chain object t progress t' ∧ R s' t' := by
  induction h generalizing t with
  | plain chain object s htemplate => exact ⟨t, .plain chain object t htemplate, hst⟩
  | cycle chain object s reference htemplate hseen =>
      exact ⟨t, .cycle chain object t reference htemplate hseen, hst⟩
  | unfetched chain object s reference e s₁ htemplate hnew hrun =>
      obtain ⟨_, _, t₁, hrun₁, hrun', hst₁⟩ := hfetch reference hst
      cases hrun.symm.trans hrun₁
      exact ⟨t₁, .unfetched chain object t reference e t₁ htemplate hnew hrun', hst₁⟩
  | inherits chain object s reference template s₁ base s₂ htemplate hnew hrun hrest ih =>
      obtain ⟨_, _, t₁, hrun₁, hrun', hst₁⟩ := hfetch reference hst
      cases hrun.symm.trans hrun₁
      obtain ⟨t₂, hrest', hst₂⟩ := ih hst₁
      exact ⟨t₂, .inherits chain object t reference template t₁ base t₂ htemplate hnew hrun' hrest',
        hst₂⟩
  | unresolved chain object s reference template s₁ base e s₂ htemplate hnew hrun hrest ih =>
      obtain ⟨_, _, t₁, hrun₁, hrun', hst₁⟩ := hfetch reference hst
      cases hrun.symm.trans hrun₁
      obtain ⟨t₂, hrest', hst₂⟩ := ih hst₁
      exact ⟨t₂, .unresolved chain object t reference template t₁ base e t₂ htemplate hnew hrun'
        hrest', hst₂⟩

/-- Of two chains that are served alike, either both end or none does. -/
theorem alike_resolveInPlace {source : TemplateSource σ} {source' : TemplateSource τ}
    (h : ∀ reference, Alike R (source.fetch reference) (source'.fetch reference))
    (object : Object) : Alike R (object.resolveInPlace source) (object.resolveInPlace source') := by
  intro s t hst
  cases hrun : resolveFrom? source.fetch [] object s with
  | some result =>
      obtain ⟨progress, s'⟩ := result
      obtain ⟨t', hresolution, hst'⟩ := (Resolution.of_resolveFrom? hrun).of_alike h hst
      refine ⟨progress, s', t', ?_, ?_, hst'⟩
      · rw [resolveInPlace, hrun, Option.getD_some]
      · rw [resolveInPlace, hresolution.resolveFrom?_eq, Option.getD_some]
  | none =>
      have hnone : resolveFrom? source'.fetch [] object t = none := by
        by_contra hsome
        obtain ⟨result, hresult⟩ := Option.ne_none_iff_exists'.1 hsome
        have hback := (Resolution.of_resolveFrom? hresult).of_alike (fun r => (h r).symm) hst
        obtain ⟨s', hresolution, _⟩ := hback
        rw [hresolution.resolveFrom?_eq] at hrun
        cases hrun
      rw [resolveInPlace, resolveInPlace, hrun, hnone]
      exact alike_const _ hst

end Object

namespace Assembly

variable {host : Host σ} {host' : Host τ}

theorem alike_fetchTemplate (h : host.Alike R host') (around : Surroundings) (reference : String) :
    Alike R (fetchTemplate host around reference) (fetchTemplate host' around reference) := by
  refine Bake.alike_bind (h.template reference) fun template => ?_
  cases template.tileset with
  | none => exact alike_const (Except.ok template.object)
  | some tileset =>
      cases template.object.gid with
      | none => exact alike_const (Except.ok template.object)
      | some gid =>
          refine Bake.alike_bind (Bake.alike_lift (h.dependency tileset.source)) fun _ => ?_
          dsimp only
          cases Gid.remap around.firstGids tileset gid with
          | error e => exact alike_const (Except.error (BakeError.inFile reference e))
          | ok gid => exact alike_const (Except.ok { template.object with gid := some gid })

theorem alike_object (h : host.Alike R host') (around : Surroundings) (o : Object) :
    Alike R (object host around o) (object host' around o) :=
  Work.alike_within _ (o.alike_resolveInPlace (alike_fetchTemplate h around))

theorem alike_objects (h : host.Alike R host') (around : Surroundings) (os : List Object) :
    Alike R (objects host around os) (objects host' around os) :=
  Work.alike_each (alike_object h around) os

theorem alike_image (h : host.Alike R host') (image : Option Image) :
    Alike R (Assembly.image host image) (Assembly.image host' image) := by
  cases image with
  | none => exact Work.alike_done none
  | some image =>
      refine Work.alike_part some (Work.alike_step image ?_)
      exact Bake.alike_bind (h.image image.source) fun source =>
        alike_const (Except.ok { image with source })

theorem alike_tile (h : host.Alike R host') (around : Surroundings) (t : Tile) :
    Alike R (tile host around t) (tile host' around t) :=
  Work.alike_andThen (Work.alike_part _ (alike_image h t.image)) fun t =>
    Work.alike_part _ (alike_objects h around t.objects)

theorem alike_tileset (h : host.Alike R host') (around : Surroundings) (t : Tileset) :
    Alike R (tileset host around t) (tileset host' around t) :=
  Work.alike_andThen (Work.alike_part _ (alike_image h t.image)) fun t =>
    Work.alike_part _ (Work.alike_each (alike_tile h around) t.tiles)

theorem alike_grid (h : host.Alike R host') (around : Surroundings) (name : String) (g : TileGrid) :
    Alike R (grid host around name g) (grid host' around name g) := by
  refine Work.alike_step g (Bake.alike_bind (Bake.alike_liftExcept _) fun cells => ?_)
  refine Bake.alike_bind (Bake.alike_lift (h.log .debug _)) fun _ => ?_
  exact alike_const (Except.ok _)

mutual

theorem alike_layer (h : host.Alike R host') (around : Surroundings) : (l : Layer) →
    Alike R (layer host around l) (layer host' around l)
  | .tiles head g => by
      rw [layer, layer]
      exact Work.alike_within _ (Work.alike_part _ (alike_grid h around head.name g))
  | .image head picture => by
      rw [layer, layer]
      exact Work.alike_within _ (Work.alike_part _ (alike_image h picture.image))
  | .objects head items => by
      rw [layer, layer]
      exact Work.alike_within _ (Work.alike_part _ (alike_objects h around items))
  | .group head members => by
      rw [layer, layer]
      exact Work.alike_within _ (Work.alike_part _ (alike_layers h around members))

theorem alike_layers (h : host.Alike R host') (around : Surroundings) : (ls : List Layer) →
    Alike R (layers host around ls) (layers host' around ls)
  | [] => by
      rw [layers, layers]
      exact Work.alike_done []
  | l :: ls => by
      rw [layers, layers]
      exact Work.alike_cons ls (alike_layer h around l) (alike_layers h around ls)

end

theorem alike_load (h : host.Alike R host') (entry : TilesetEntry) :
    Alike R (load host entry) (load host' entry) := by
  cases entry with
  | inline t => exact Work.alike_done (TilesetEntry.inline t)
  | external firstGid source =>
      refine Work.alike_step _ (Bake.alike_bind (h.tileset source) fun t => ?_)
      exact alike_const (Except.ok _)

theorem alike_tilesetEntry (h : host.Alike R host') (around : Surroundings) (entry : TilesetEntry) :
    Alike R (tilesetEntry host around entry) (tilesetEntry host' around entry) := by
  cases entry with
  | inline t =>
      have hpart := Work.alike_part TilesetEntry.inline (alike_tileset h around t)
      rw [tilesetEntry, tilesetEntry]
      cases t.source with
      | none => exact hpart
      | some source => exact Work.alike_within _ hpart
  | external firstGid source => exact Work.alike_done (TilesetEntry.external firstGid source)

theorem alike_settle (settings : BakeSettings) (map : Map) :
    Alike R (settle (σ := σ) settings map) (settle (σ := τ) settings map) := by
  rw [settle, settle]
  cases map.checkGids settings.checkRanges with
  | error e => exact Work.alike_fail map e
  | ok => exact Work.alike_done _

theorem alike_loadAll (h : host.Alike R host') (map : Map) :
    Alike R (loadAll host map) (loadAll host' map) :=
  Work.alike_part _ (Work.alike_each (alike_load h) map.tilesets)

theorem alike_tilesets (h : host.Alike R host') (map : Map) :
    Alike R (tilesets host map) (tilesets host' map) := by
  rw [tilesets, tilesets]
  exact Work.alike_part _ (Work.alike_each (alike_tilesetEntry h _) map.tilesets)

theorem alike_allLayers (h : host.Alike R host') (map : Map) :
    Alike R (allLayers host map) (allLayers host' map) := by
  rw [allLayers, allLayers]
  exact Work.alike_part _ (alike_layers h _ map.layers)

end Assembly

variable {host : Host σ} {host' : Host τ}

theorem Map.alike_assemble (h : host.Alike R host') (settings : BakeSettings) (map : Map) :
    Alike R (map.assemble host settings) (map.assemble host' settings) :=
  Work.alike_andThen (Assembly.alike_loadAll h map) fun map =>
    Work.alike_andThen (Assembly.alike_settle settings map) fun map =>
      Work.alike_andThen (Assembly.alike_tilesets h map) (Assembly.alike_allLayers h)

theorem Tileset.alike_assemble (h : host.Alike R host') (t : Tileset) :
    Alike R (t.assemble host) (t.assemble host') :=
  Assembly.alike_tileset h {} t

theorem alike_compileWith {parse : Document.Result α} {assemble : α → Work σ α}
    {assemble' : α → Work τ α} (write : α → Writer Unit)
    (hassemble : ∀ a, Alike R (assemble a) (assemble' a)) :
    Alike R (compileWith parse assemble write) (compileWith parse assemble' write) := by
  refine Bake.alike_bind (Bake.alike_liftExcept _) fun a => ?_
  refine Bake.alike_bind (Work.alike_toBake (hassemble a)) fun a => ?_
  exact Bake.alike_liftExcept _

/-- Compilation, reported under a message, over hosts that answer alike. -/
theorem alike_logged (h : host.Alike R host') (message path : String) {parse : Document.Result α}
    {assemble : α → Work σ α} {assemble' : α → Work τ α} {write : α → Writer Unit}
    (hassemble : ∀ a, Alike R (assemble a) (assemble' a)) :
    Alike R
      (do host.log .debug message
          reporting host path (compileWith parse assemble write) : Bake σ _)
      (do host'.log .debug message
          reporting host' path (compileWith parse assemble' write) : Bake τ _) := by
  refine Bake.alike_bind (Bake.alike_lift (h.log .debug message)) fun _ => ?_
  refine Bake.alike_tryCatch (alike_compileWith write hassemble) fun e => ?_
  by_cases he : e = .decode .overflow
  · subst he
    exact alike_const (Except.error _)
  · rw [report_of_ne he, report_of_ne he]
    refine Bake.alike_bind (Bake.alike_lift (h.log .error _)) fun _ => ?_
    exact alike_const (Except.error _)

theorem alike_compileMap (h : host.Alike R host') (settings : BakeSettings)
    (document path : String) :
    Alike R (compileMap host settings document path) (compileMap host' settings document path) :=
  alike_logged h _ path (Map.alike_assemble h settings)

theorem alike_compileTileset (h : host.Alike R host') (document path : String) :
    Alike R (compileTileset host document path) (compileTileset host' document path) :=
  alike_logged h _ path (Tileset.alike_assemble h)

end TileKiln
