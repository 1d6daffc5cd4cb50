import TileKiln.Assembly.Assemble
import TileKiln.Proofs.Success
import TileKiln.Proofs.WorkResults

namespace TileKiln.Assembly

open Work

variable {σ : Type} {host : Host σ} {around : Surroundings} {settings : BakeSettings}

/-- What an entry loads is at hand, with the first id of the entry. -/
theorem inline_of_load {before after : TilesetEntry} (h : (load host before).Yields after) :
    ∃ tileset, after = .inline tileset ∧ tileset.firstGid = before.firstGid := by
  cases before with
  | inline tileset => exact ⟨tileset, h.of_done, rfl⟩
  | external firstGid source =>
      obtain ⟨s, s', hrun⟩ := h.of_step
      obtain ⟨loaded, s₁, _, hrun⟩ := Bake.ok_of_bind hrun
      cases hrun
      exact ⟨{ loaded with firstGid }, rfl, rfl⟩

/-- Work that puts a tileset at hand in the place of every entry. -/
theorem inline_of_each {work : TilesetEntry → Work σ TilesetEntry} {before after : List TilesetEntry}
    (hwork : ∀ entry ∈ before, ∀ entry', (work entry).Yields entry' → ∃ t, entry' = .inline t)
    (h : (each work before).Yields after) :
    ∃ tilesets : List Tileset, after = tilesets.map .inline ∧
      List.Forall₂ (fun entry t => (work entry).Yields (.inline t)) before tilesets := by
  induction before generalizing after with
  | nil => exact ⟨[], h.of_done, .nil⟩
  | cons first before ih =>
      obtain ⟨entry, entries, rfl, hfirst, hrest⟩ := h.of_cons
      obtain ⟨tileset, rfl⟩ := hwork first List.mem_cons_self entry hfirst
      obtain ⟨tilesets, rfl, hothers⟩ :=
        ih (fun entry hentry => hwork entry (List.mem_cons_of_mem _ hentry)) hrest
      exact ⟨tileset :: tilesets, rfl, .cons hfirst hothers⟩

theorem tilesets_of_each_load {before after : List TilesetEntry}
    (h : (each (load host) before).Yields after) :
    ∃ loaded : List Tileset, after = loaded.map .inline ∧
      List.Forall₂ (fun entry t => (load host entry).Yields (.inline t)) before loaded := by
  refine inline_of_each ?_ h
  intro entry _ entry' hload
  obtain ⟨tileset, hinline, _⟩ := inline_of_load hload
  exact ⟨tileset, hinline⟩

def Refilled (before after : Tileset) : Prop :=
  ∃ image tiles, after = { before with image, tiles }

theorem refilled_of_tileset {before after : Tileset}
    (h : (tileset host around before).Yields after) : Refilled before after := by
  obtain ⟨_, hfirst, hthen⟩ := h.of_andThen
  obtain ⟨image, _, rfl⟩ := hfirst.of_part
  obtain ⟨tiles, _, rfl⟩ := hthen.of_part
  exact ⟨image, tiles, rfl⟩

theorem tileset_of_tilesetEntry {before : Tileset} {after : TilesetEntry}
    (h : (tilesetEntry host around (.inline before)).Yields after) :
    ∃ tileset', after = .inline tileset' ∧ (tileset host around before).Yields tileset' := by
  rw [tilesetEntry] at h
  cases hsource : before.source with
  | none =>
      rw [hsource] at h
      obtain ⟨tileset', hwork, rfl⟩ := h.of_part
      exact ⟨tileset', rfl, hwork⟩
  | some source =>
      rw [hsource] at h
      obtain ⟨tileset', hwork, rfl⟩ := h.of_within.of_part
      exact ⟨tileset', rfl, hwork⟩

theorem tilesets_of_each_tilesetEntry {before : List Tileset} {after : List TilesetEntry}
    (h : (each (tilesetEntry host around) (before.map .inline)).Yields after) :
    ∃ tilesets : List Tileset, after = tilesets.map .inline ∧
      List.Forall₂ (fun t t' => (tileset host around t).Yields t') before tilesets := by
  obtain ⟨tilesets, rfl, htilesets⟩ := inline_of_each (fun entry hentry entry' hwork => by
    obtain ⟨t, _, rfl⟩ := List.mem_map.1 hentry
    obtain ⟨t', hinline, _⟩ := tileset_of_tilesetEntry hwork
    exact ⟨t', hinline⟩) h
  refine ⟨tilesets, rfl, (List.forall₂_map_left_iff.1 htilesets).imp ?_⟩
  intro t t' hwork
  obtain ⟨_, hinline, hwork⟩ := tileset_of_tilesetEntry hwork
  cases hinline
  exact hwork

theorem loaded_of_inline {map : Map} {tilesets : List Tileset}
    (h : map.tilesets = tilesets.map .inline) : map.loaded = tilesets := by
  rw [Map.loaded, h, List.filterMap_map]
  exact List.filterMap_some

theorem map_of_refilled {β : Type} {f : Tileset → β}
    (hf : ∀ (t : Tileset) image tiles, f { t with image, tiles } = f t) {before after : List Tileset}
    (h : List.Forall₂ Refilled before after) : before.map f = after.map f := by
  induction h with
  | nil => rfl
  | cons hfirst _ ih =>
      obtain ⟨image, tiles, rfl⟩ := hfirst
      exact congrArg₂ List.cons (hf _ image tiles).symm ih

theorem firstGids_of_refilled {before after : Map} {loaded refilled : List Tileset}
    (hbefore : before.tilesets = loaded.map .inline)
    (hafter : after.tilesets = refilled.map .inline) (h : List.Forall₂ Refilled loaded refilled) :
    before.firstGids = after.firstGids := by
  have hsources := map_of_refilled (f := fun t => t.source.map (·, t.firstGid))
    (fun _ _ _ => rfl) h
  have hgids := congrArg (List.filterMap id) hsources
  rw [List.filterMap_map, List.filterMap_map] at hgids
  rw [Map.firstGids, Map.firstGids, loaded_of_inline hbefore, loaded_of_inline hafter]
  exact hgids

def emptied (t : Tileset) : Tileset := { t with image := none, tiles := [] }

theorem checkNeighbours_emptied (ts : List Tileset) :
    Tileset.checkNeighbours (ts.map emptied) = Tileset.checkNeighbours ts := by
  induction ts with
  | nil => rfl
  | cons first rest ih =>
      cases rest with
      | nil => rfl
      | cons second rest =>
          rw [List.map_cons, List.map_cons, Tileset.checkNeighbours, Tileset.checkNeighbours,
            ← List.map_cons, ih]
          rfl

theorem checkRanges_emptied (ts : List Tileset) :
    Tileset.checkRanges (ts.map emptied) = Tileset.checkRanges ts := by
  rw [Tileset.checkRanges, Tileset.checkRanges, ← checkNeighbours_emptied (ts.mergeSort _)]
  rw [List.map_mergeSort]
  intro a _ b _
  rfl

/-- The checks of the id space do not look at what assembly fills in. -/
theorem checkGids_of_refilled {before after : Map} {loaded refilled : List Tileset}
    (hbefore : before.tilesets = loaded.map .inline)
    (hafter : after.tilesets = refilled.map .inline) (h : List.Forall₂ Refilled loaded refilled)
    (checkRanges : Bool) : before.checkGids checkRanges = after.checkGids checkRanges := by
  have hcheck : ∀ ts : List Tileset, (ts.map emptied).forM Tileset.checkGids =
      ts.forM Tileset.checkGids := fun ts => List.forM_map
  have hemptied : loaded.map emptied = refilled.map emptied := map_of_refilled (fun _ _ _ => rfl) h
  rw [Map.checkGids, Map.checkGids, loaded_of_inline hbefore, loaded_of_inline hafter,
    ← hcheck loaded, ← hcheck refilled, ← checkRanges_emptied loaded,
    ← checkRanges_emptied refilled, hemptied]

theorem settle_of_checked {map : Map} (h : map.checkGids settings.checkRanges = .ok ()) :
    settle (σ := σ) settings map =
      done { map with background := some (map.background.getD settings.background) } := by
  rw [settle, h]

theorem checked_of_settle {before after : Map} (h : (settle (σ := σ) settings before).Yields after) :
    before.checkGids settings.checkRanges = .ok () ∧
      after = { before with background := some (before.background.getD settings.background) } := by
  cases hcheck : before.checkGids settings.checkRanges with
  | error e =>
      rw [settle, hcheck] at h
      exact (not_yields_fail h).elim
  | ok =>
      rw [settle_of_checked hcheck] at h
      exact ⟨rfl, h.of_done⟩

def prepare (host : Host σ) (settings : BakeSettings) (map : Map) : Work σ Map :=
  (loadAll host map).andThen fun map => (settle settings map).andThen (tilesets host)

theorem assemble_eq_prepare (host : Host σ) (settings : BakeSettings) (map : Map) :
    map.assemble host settings = (prepare host settings map).andThen (allLayers host) := by
  simp only [Map.assemble, prepare, andThen_assoc]

/-- The layers, and the order that they are painted in, wait as they are. -/
theorem layers_of_prepare {before after : Map} (h : (prepare host settings before).Yields after) :
    after.layers = before.layers ∧ after.order = before.order := by
  obtain ⟨loaded, hload, h⟩ := h.of_andThen
  obtain ⟨_, _, rfl⟩ := hload.of_part
  obtain ⟨settled, hsettle, h⟩ := h.of_andThen
  obtain ⟨_, rfl⟩ := checked_of_settle hsettle
  rw [tilesets] at h
  obtain ⟨_, _, rfl⟩ := h.of_part
  exact ⟨rfl, rfl⟩

structure Stages (host : Host σ) (settings : BakeSettings) (before after : Map)
    (loaded assembled : List Tileset) (painted : List Layer) : Prop where
  loads : List.Forall₂ (fun entry t => (load host entry).Yields (.inline t)) before.tilesets loaded
  checked : ({ before with tilesets := loaded.map .inline } : Map).checkGids settings.checkRanges =
    .ok ()
  tilesets : List.Forall₂ (fun t t' => (tileset host ⟨before.order, after.firstGids⟩ t).Yields t')
    loaded assembled
  layers : (layers host ⟨before.order, after.firstGids⟩ before.layers).Yields painted
  result : after = { before with
    tilesets := assembled.map .inline
    background := some (before.background.getD settings.background)
    layers := painted }

theorem stages_of_assemble {before after : Map} (h : (before.assemble host settings).Yields after) :
    ∃ loaded assembled painted, Stages host settings before after loaded assembled painted := by
  obtain ⟨_, hload, h⟩ := h.of_andThen
  obtain ⟨_, hentries, rfl⟩ := hload.of_part
  obtain ⟨loaded, rfl, hloads⟩ := tilesets_of_each_load hentries
  obtain ⟨settled, hsettle, h⟩ := h.of_andThen
  obtain ⟨hchecked, hsettled⟩ := checked_of_settle hsettle
  have hinline : settled.tilesets = loaded.map .inline := by rw [hsettled]
  obtain ⟨shaped, hshape, hpaint⟩ := h.of_andThen
  rw [tilesets, hinline] at hshape
  obtain ⟨_, hentries, hshaped⟩ := hshape.of_part
  obtain ⟨assembled, rfl, htilesets⟩ := tilesets_of_each_tilesetEntry hentries
  -- The two stages compute where tilesets begin from different maps, but find the same.
  have hgids : settled.firstGids = shaped.firstGids :=
    firstGids_of_refilled hinline (by rw [hshaped])
      (htilesets.imp fun _ _ => refilled_of_tileset)
  rw [allLayers] at hpaint
  obtain ⟨painted, hlayers, rfl⟩ := hpaint.of_part
  rw [hgids] at htilesets
  subst hshaped hsettled
  exact ⟨loaded, assembled, painted, hloads, hchecked, htilesets, hlayers, rfl⟩

end TileKiln.Assembly
